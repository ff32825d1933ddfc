import OriSyntax.Text.Split

/-!
Files as a run sees them: paths, trees of files, directories and symbolic links, how a path
leads through a tree, and what may be asked about the files that a run works on.
-/

namespace OriSyntax

namespace Path

/-- The parts of a path between its slashes. -/
def parts (path : String) : List String :=
  (Text.pieces '/' path.toList).map String.ofList

/-- Whether a path begins at the root of the file system. -/
def isAbsolute (path : String) : Bool := path.toList.head? = some '/'

/-- The path of an entry of a directory. -/
def join (dir name : String) : String :=
  if dir.isEmpty || dir.toList.getLast? = some '/' then dir ++ name
  else dir ++ "/" ++ name

/-- The name to which a path leads, or the whole path if it ends in no name. -/
def lastName (path : String) : String :=
  match ((parts path).filter fun part => part ≠ "" && part ≠ ".").getLast? with
  | some name => if name = ".." then path else name
  | none => path

/-- Whether `name` is `stem ++ ending` for a stem that is not empty. -/
def hasEnding (ending name : String) : Bool :=
  ending.toList.isSuffixOf name.toList && name ≠ ending

/-- Files of these names hold sources. -/
def isSource (name : String) : Bool := hasEnding ".ori" name || hasEnding ".mod" name

/-- Directories of these names hold code of others. -/
def isVendor (name : String) : Bool := ".vendor".toList.isSuffixOf name.toList

end Path

/-- A reason why a path cannot be read. -/
inductive AccessError where
  | notFound
  | notDirectory
  | isDirectory
  /-- Too many symbolic links were followed. -/
  | linkLoop
  /-- The bytes of a file are no text. -/
  | notText
  /-- Any other reason, in the words of the system. -/
  | other (reason : String)
deriving DecidableEq, Repr

/-- The reason as it is reported. -/
def AccessError.text : AccessError → String
  | notFound => "No such file or directory (os error 2)"
  | notDirectory => "Not a directory (os error 20)"
  | isDirectory => "Is a directory (os error 21)"
  | linkLoop => "Too many levels of symbolic links (os error 40)"
  | notText => "stream did not contain valid UTF-8"
  | other reason => reason

/-- A file with its bytes, a directory with named entries, or a link to a path. -/
inductive FileTree where
  | file (bytes : ByteArray)
  | directory (entries : List (String × FileTree))
  | link (target : String)

namespace FileTree

/-- The entries of a directory; a file or a link has none. -/
def entries : FileTree → List (String × FileTree)
  | directory entries => entries
  | _ => []

/-- Whether the tree is a directory. -/
def isDirectory : FileTree → Bool
  | directory _ => true
  | _ => false

/-- The tree with `node` in the place to which `names` lead.  Directories on the
way are made as needed, and a directory that is there is not emptied. -/
def insert (tree : FileTree) (names : List String) (node : FileTree) : FileTree :=
  match names with
  | [] => if node.isDirectory && tree.isDirectory then tree else node
  | name :: rest =>
      let others := tree.entries.filter (·.1 ≠ name)
      let inner := (tree.entries.lookup name).getD (directory [])
      directory (others ++ [(name, inner.insert rest node)])

/-- What stands in the place to which `names` lead, links not followed. -/
def lookup (tree : FileTree) (names : List String) : Option FileTree :=
  match names with
  | [] => some tree
  | name :: rest => (tree.entries.lookup name).bind fun inner => inner.lookup rest

/-- The names that lead from the top of the tree to where `path` leads from `here`,
with at most `links` links on the way.  A link in the last place is followed if
`followLast` holds, or if anything stands behind it. -/
def locate (tree : FileTree) (followLast : Bool) (links : Nat) (here path : List String) :
    Except AccessError (List String) :=
  match path with
  | [] => .ok here
  | name :: rest =>
      if name = "" || name = "." then locate tree followLast links here rest
      else if name = ".." then locate tree followLast links here.dropLast rest
      else
        let place := here ++ [name]
        match tree.lookup place with
        | none => .error .notFound
        | some (.directory _) => locate tree followLast links place rest
        | some (.file _) => if rest.isEmpty then .ok place else .error .notDirectory
        | some (.link target) =>
            if rest.isEmpty && !followLast then .ok place
            else if target.isEmpty || Path.isAbsolute target then .error .notFound
            else match links with
              | 0 => .error .linkLoop
              | links + 1 =>
                  locate tree followLast links here (Path.parts target ++ rest)
termination_by (links, path.length)

/-- As many links are followed on the way of one path. -/
def maxLinks : Nat := 40

/-- What a path leads to from the top of the tree. -/
def find (tree : FileTree) (followLast : Bool) (path : String) :
    Except AccessError FileTree :=
  if path.isEmpty || Path.isAbsolute path then .error .notFound
  else
    match locate tree followLast maxLinks [] (Path.parts path) with
    | .ok names =>
        match tree.lookup names with
        | some found => .ok found
        | none => .error .notFound
    | .error cause => .error cause

end FileTree

/-- Where a walk begins: what stands at its path, and what that leads to, which is
another thing only if it is a link. -/
structure WalkStart where
  own : FileTree
  target : FileTree

/-- Answers to the two questions that a run asks about a path. -/
structure Storage where
  /-- Where a walk from the path begins. -/
  start : String → Except AccessError WalkStart
  /-- The text of the file at the path. -/
  read : String → Except AccessError String

/-- The storage of a tree in which every path begins at the top. -/
def FileTree.storage (tree : FileTree) : Storage where
  start path := do
    let own ← tree.find false path
    let target ← tree.find true path
    return ⟨own, target⟩
  read path := do
    match ← tree.find true path with
    | .file bytes =>
        match String.fromUTF8? bytes with
        | some text => return text
        | none => throw .notText
    | _ => throw .isDirectory

end OriSyntax
