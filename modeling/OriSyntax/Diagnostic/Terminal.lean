import OriSyntax.Diagnostic

/-!
Diagnostics as a terminal shows them: one line each with its notes below, in
colour if wanted, and a summary line at the end of a run.
-/

namespace OriSyntax

/-- When to use colour. -/
inductive ColorMode where
  | auto | always | never
deriving DecidableEq, Repr, Inhabited

/-- Whether to use colour; `auto` leaves it to the kind of output. -/
def ColorMode.isOn (mode : ColorMode) (toTerminal : Bool) : Bool :=
  match mode with
  | auto => toTerminal
  | always => true
  | never => false

/-- How diagnostics are shown: in colour or not, and for which file. -/
structure Terminal where
  color : Bool
  path : Option String := none
deriving DecidableEq, Repr

namespace Terminal

/-- A terminal of the given mode. -/
def ofMode (mode : ColorMode) (toTerminal : Bool) : Terminal where
  color := mode.isOn toTerminal

/-- A text between the code `style` and the one that ends it, if in colour. -/
def styled (terminal : Terminal) (style text : String) : String :=
  if terminal.color then "\x1b[" ++ style ++ "m" ++ text ++ "\x1b[0m" else text

/-- A word in the colour of errors. -/
def asError (terminal : Terminal) (text : String) : String :=
  terminal.styled "1;31" text

/-- A text in bold. -/
def asBold (terminal : Terminal) (text : String) : String :=
  terminal.styled "1" text

/-- A diagnostic with its notes. -/
def showDiagnostic (terminal : Terminal) (diagnostic : Diagnostic) : String :=
  terminal.asError diagnostic.severity.text ++
    terminal.asBold ("[" ++ diagnostic.code.text ++ "]") ++ ": " ++
    (terminal.path.map (· ++ ":")).getD "" ++ diagnostic.text ++ "\n" ++
    String.join (diagnostic.notes.map fun note =>
      "  = " ++ terminal.asBold "note" ++ ": " ++ note ++ "\n")

/-- Several diagnostics in order. -/
def showDiagnostics (terminal : Terminal) (diagnostics : List Diagnostic) : String :=
  String.join (diagnostics.map terminal.showDiagnostic)

/-- The summary of a run with `count` errors; nothing if there were none. -/
def showSummary (terminal : Terminal) (count : Nat) : String :=
  if count = 0 then ""
  else
    terminal.asError "error" ++
      s!": {count} syntax error" ++ (if count = 1 then "" else "s") ++ " reported\n"

end Terminal

end OriSyntax
