import OriSyntax.CommandLine

/-!
The program: reads what a command asks about from the disk, runs the command, and
writes its outputs.
-/

namespace OriSyntax.Disk

/-- The reason for a failure of the system. -/
def accessError : IO.Error → AccessError
  | .noFileOrDirectory .. => .notFound
  | .inappropriateType _ code _ => if code = 21 then .isDirectory else .notDirectory
  | failure => .other (toString failure)

/-- The result of an action, or why the system refused it. -/
def attempt {α : Type} (action : IO α) : IO (Except AccessError α) := do
  match ← action.toBaseIO with
  | .ok value => return .ok value
  | .error failure => return .error (accessError failure)

/-- The directory tree at a path, without the contents of its files.  A link at the
top is followed if `follow` holds. -/
partial def readTree (follow : Bool) (path : String) : IO FileTree := do
  let place : IO.FS.DirEntry := ⟨path, ""⟩
  let data ← if follow then place.root.metadata else place.root.symlinkMetadata
  match data.type with
  | .dir =>
      let entries ← (← place.root.readDir).mapM fun entry => do
        return (entry.fileName, ← readTree false (Path.join path entry.fileName))
      return .directory entries.toList
  | .file => return .file ByteArray.empty
  | _ => return .link ""

/-- What a walk from a path meets first. -/
def readStart (path : String) : IO WalkStart := do
  match ← readTree false path with
  | .link target => return ⟨.link target, ← readTree true path⟩
  | tree => return ⟨tree, tree⟩

/-- The text of a file. -/
def readText (path : String) : IO (Except AccessError String) := do
  match ← attempt (IO.FS.readBinFile path) with
  | .error cause => return .error cause
  | .ok bytes =>
      match String.fromUTF8? bytes with
      | some text => return .ok text
      | none => return .error .notText

/-- The answers found so far; whatever was not asked counts as missing. -/
def answers (starts : List (String × Except AccessError WalkStart))
    (texts : List (String × Except AccessError String)) : Storage where
  start path := (starts.lookup path).getD (.error .notFound)
  read path := (texts.lookup path).getD (.error .notFound)

/-- All that a run with these inputs will ask. -/
def storageFor (inputs : Inputs) : IO Storage := do
  let starts ← inputs.directories.mapM fun dir => do
    return (dir, ← attempt (readStart dir))
  match inputs.resolve (answers starts []) with
  | .error _ => return answers starts []
  | .ok paths =>
      let texts ← paths.mapM fun path => do return (path, ← readText path)
      return answers starts texts

end OriSyntax.Disk

/-- Runs the command that the arguments name. -/
def main (arguments : List String) : IO UInt32 := do
  let outcome ← match OriSyntax.Command.ofArguments arguments with
    | .error cause => pure (OriSyntax.Command.usageOutcome cause)
    | .ok command =>
        let terminal := .ofMode .auto (← (← IO.getStderr).isTty)
        command.run terminal <$> OriSyntax.Disk.storageFor command.inputs
  IO.print outcome.stdout
  IO.eprint outcome.stderr
  return outcome.code.toUInt32
