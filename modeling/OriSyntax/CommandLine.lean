import OriSyntax.Discovery
import OriSyntax.Report

/-!
The command line: which command to run on which files, and what the run writes.
-/

namespace OriSyntax

/-- What to show of each file. -/
inductive Action where
  /-- The token listing. -/
  | lex
  /-- The tree listing. -/
  | parse
deriving DecidableEq, Repr

/-- A command with its options. -/
structure Command where
  action : Action
  inputs : Inputs := ⟨[], []⟩
  verbose : Bool := false
  quiet : Bool := false
deriving DecidableEq, Repr

/-- Reasons why arguments are no command. -/
inductive UsageError where
  | missingCommand
  | unknownCommand (name : String)
  | unexpectedArgument (argument : String)
  | missingValue (option : String)
  | repeatedFlag (flag : String)
deriving DecidableEq, Repr

/-- The reason as it is reported. -/
def UsageError.message : UsageError → String
  | missingCommand => "a command is missing: lex or parse"
  | unknownCommand name => "unknown command '" ++ name ++ "'"
  | unexpectedArgument argument => "unexpected argument '" ++ argument ++ "'"
  | missingValue option => "a value is missing for '" ++ option ++ "'"
  | repeatedFlag flag => "'" ++ flag ++ "' cannot be given more than once"

namespace Command

/-- Options that take a path. -/
inductive PathOption where
  | file | directory
deriving DecidableEq, Repr

/-- The long form of a path option. -/
def PathOption.long : PathOption → String
  | file => "--file"
  | directory => "--directory"

/-- The command with one more path to work on. -/
def addPath (command : Command) (option : PathOption) (path : String) :
    Except UsageError Command :=
  if path.isEmpty then .error (.missingValue option.long)
  else
    match option with
    | .file => .ok { command with
        inputs := { command.inputs with files := command.inputs.files ++ [path] } }
    | .directory => .ok { command with
        inputs := { command.inputs with
          directories := command.inputs.directories ++ [path] } }

/-- The command with the flag for more messages set. -/
def setVerbose (command : Command) : Except UsageError Command :=
  if command.verbose then .error (.repeatedFlag "--verbose")
  else .ok { command with verbose := true }

/-- The command with the flag for no listings set, which only `parse` has. -/
def setQuiet (command : Command) (argument : String) : Except UsageError Command :=
  if command.action ≠ .parse then .error (.unexpectedArgument argument)
  else if command.quiet then .error (.repeatedFlag "--quiet")
  else .ok { command with quiet := true }

/-- Reads the path behind the letter of a path option, after an optional equals
sign.  If nothing is there, the option waits for the next argument. -/
def readLetterPath (command : Command) (option : PathOption) :
    List Char → Except UsageError (Command × Option PathOption)
  | [] => .ok (command, some option)
  | '=' :: path => (command.addPath option (String.ofList path)).map (·, none)
  | path => (command.addPath option (String.ofList path)).map (·, none)

/-- Reads the letters of an argument such as `-qf`.  The letter of a path option
ends the letters, since what follows it is the path. -/
def readLetters (argument : String) (command : Command) :
    List Char → Except UsageError (Command × Option PathOption)
  | [] => .ok (command, none)
  | letter :: rest =>
      if letter = 'v' then
        command.setVerbose.bind fun command => readLetters argument command rest
      else if letter = 'q' then
        (command.setQuiet argument).bind fun command =>
          readLetters argument command rest
      else if letter = 'f' then command.readLetterPath .file rest
      else if letter = 'd' then command.readLetterPath .directory rest
      else .error (.unexpectedArgument argument)

/-- The path of an argument such as `--file=a`, if it has the option's form. -/
def pathAfter? (option : PathOption) (argument : String) : Option String :=
  let opening := option.long.toList ++ ['=']
  if opening.isPrefixOf argument.toList then
    some (String.ofList (argument.toList.drop opening.length))
  else none

/-- Reads one argument.  A path option may wait for the next one. -/
def readArgument (command : Command) (argument : String) :
    Except UsageError (Command × Option PathOption) :=
  if argument = "--verbose" then command.setVerbose.map (·, none)
  else if argument = "--quiet" then (command.setQuiet argument).map (·, none)
  else if argument = PathOption.file.long then .ok (command, some .file)
  else if argument = PathOption.directory.long then .ok (command, some .directory)
  else if let some path := pathAfter? .file argument then
    (command.addPath .file path).map (·, none)
  else if let some path := pathAfter? .directory argument then
    (command.addPath .directory path).map (·, none)
  else
    match argument.toList with
    | '-' :: '-' :: _ => .error (.unexpectedArgument argument)
    | '-' :: letter :: rest => readLetters argument command (letter :: rest)
    | _ => .error (.unexpectedArgument argument)

/-- Whether an argument looks like an option, so that it is no option's value. -/
def looksLikeOption (argument : String) : Bool :=
  argument.toList.head? = some '-' && argument ≠ "-"

/-- Reads the arguments after the name of the command; `waiting` is a path option
that still needs its value.  Two dashes end the arguments. -/
def readArguments (command : Command) (waiting : Option PathOption) :
    List String → Except UsageError Command
  | [] =>
      match waiting with
      | none => .ok command
      | some option => .error (.missingValue option.long)
  | argument :: rest =>
      match waiting with
      | none =>
          if argument = "--" then
            match rest with
            | [] => .ok command
            | extra :: _ => .error (.unexpectedArgument extra)
          else do
            let (command, waiting) ← command.readArgument argument
            readArguments command waiting rest
      | some option =>
          if looksLikeOption argument then .error (.missingValue option.long)
          else do readArguments (← command.addPath option argument) none rest

/-- The command of a list of arguments. -/
def ofArguments : List String → Except UsageError Command
  | [] => .error .missingCommand
  | "lex" :: rest => readArguments { action := .lex } none rest
  | "parse" :: rest => readArguments { action := .parse } none rest
  | name :: _ => .error (.unknownCommand name)

/-- The report on one file. -/
def report (command : Command) (path source : String) : FileReport :=
  match command.action with
  | .lex => .ofTokens path source
  | .parse => .ofTree path source command.quiet

/-- The reports on all files of a run, or why there are none.  One file that cannot
be read is enough. -/
def reports (command : Command) (storage : Storage) :
    Except RunError (List FileReport) := do
  let paths ← command.inputs.resolve storage
  paths.mapM fun path =>
    match storage.read path with
    | .ok source => .ok (command.report path source)
    | .error cause => .error (.unreadable path cause)

end Command

/-- What a run leaves behind: its exit code and what it wrote. -/
structure Outcome where
  code : Nat
  stdout : String
  stderr : String
deriving DecidableEq, Repr

namespace Command

/-- Runs a command whose diagnostics are shown on `terminal`.  Its exit code is zero
only if there is nothing to report. -/
def run (command : Command) (terminal : Terminal) (storage : Storage) : Outcome :=
  match command.reports storage with
  | .ok reports =>
      let report := RunReport.ofFiles terminal reports
      { code := if report.status = .clean then 0 else 1
        stdout := report.stdout
        stderr := report.stderr }
  | .error cause =>
      { code := 1, stdout := "", stderr := "error: " ++ cause.message ++ "\n" }

/-- What a list of arguments that is no command leaves behind. -/
def usageOutcome (cause : UsageError) : Outcome where
  code := 2
  stdout := ""
  stderr := "error: " ++ cause.message ++ "\n"

end Command

end OriSyntax
