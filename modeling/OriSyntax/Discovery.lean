import OriSyntax.Files

/-!
Discovery: the source files that a run works on.  A directory is walked in the
order of its entries' names, and what stands in a vendor directory is left out.
-/

namespace OriSyntax

/-- Reasons why a run ends before any file is read, or because of one. -/
inductive RunError where
  | noInput
  | noFilesFound (dir : String)
  | unreadable (path : String) (cause : AccessError)
  | unwalkable (dir : String) (cause : AccessError)
deriving DecidableEq, Repr

/-- The reason as it is reported. -/
def RunError.message : RunError → String
  | noInput => "no file or directory specified"
  | noFilesFound dir => "no files found in " ++ dir
  | unreadable path cause => "failed to read " ++ path ++ ": " ++ cause.text
  | unwalkable dir cause =>
      "failed to walk directory: IO error for operation on " ++ dir ++ ": " ++
        cause.text

mutual

/-- The paths of the sources in a tree that stands at `path` under `name`, in the
order of a walk.  Links are not followed. -/
def FileTree.sources (path name : String) : FileTree → List String
  | .file _ => if Path.isSource name then [path] else []
  | .link _ => []
  | .directory entries =>
      if Path.isVendor name then [] else FileTree.sourcesOf path entries

/-- The paths of the sources among the entries of the directory at `path`. -/
def FileTree.sourcesOf (path : String) (entries : List (String × FileTree)) :
    List String :=
  ((FileTree.listings path entries).mergeSort (fun one other => one.1 ≤ other.1)).flatMap
    Prod.snd

/-- Each entry's name with the paths of the sources it holds. -/
def FileTree.listings (path : String) :
    List (String × FileTree) → List (String × List String)
  | [] => []
  | (name, tree) :: rest =>
      (name, tree.sources (Path.join path name) name) :: FileTree.listings path rest

end

/-- The paths of the sources of a walk.  The walk follows a link at its start,
whatever its name. -/
def WalkStart.sources (start : WalkStart) (dir : String) : List String :=
  match start.own, start.target with
  | .link _, .directory entries => FileTree.sourcesOf dir entries
  | own, _ => own.sources dir (Path.lastName dir)

/-- The sources below a directory; there must be one. -/
def discover (storage : Storage) (dir : String) : Except RunError (List String) :=
  match storage.start dir with
  | .error cause => .error (.unwalkable dir cause)
  | .ok start =>
      let sources := start.sources dir
      if sources.isEmpty then .error (.noFilesFound dir) else .ok sources

/-- The files and directories given to a run. -/
structure Inputs where
  files : List String
  directories : List String
deriving DecidableEq, Repr

/-- The files of a run: those given, then those of each directory given. -/
def Inputs.resolve (inputs : Inputs) (storage : Storage) :
    Except RunError (List String) := do
  if inputs.files.isEmpty && inputs.directories.isEmpty then throw .noInput
  else
    let found ← inputs.directories.mapM (discover storage)
    return inputs.files ++ found.flatten

end OriSyntax
