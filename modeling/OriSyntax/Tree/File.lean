import OriSyntax.Tree.Stmt

/-!
Source files as trees: the package clause and the top-level items, sorted into
buckets by kind.
-/

namespace OriSyntax

/-- One top-level item, in the bucket where it belongs. -/
inductive Item where
  | const (stmt : Stmt)
  | decl (decl : Decl)
  | struct (decl : StructDecl)
  | interface (decl : InterfaceDecl)
  | enum (decl : EnumDecl)
  | sum (decl : SumDecl)
  | implements (decl : ImplementsDecl)

/-- The item of a type declaration; the four sorts have buckets of their own. -/
def Item.ofTypeDecl : Decl → Item
  | .struct type => .struct type
  | .interface type => .interface type
  | .enum type => .enum type
  | .sum type => .sum type
  | other => .decl other

/-- A source file.  Functions and whatever could not be read are in `decls`; a
constant that could not be read is in `consts`. -/
structure File where
  package : Token
  name : Token
  consts : List Stmt
  decls : List Decl
  structs : List StructDecl
  interfaces : List InterfaceDecl
  enums : List EnumDecl
  sums : List SumDecl
  implements : List ImplementsDecl

namespace File

/-- The file of a package clause and its items; each bucket keeps their order. -/
def ofItems (package name : Token) (items : List Item) : File where
  package := package
  name := name
  consts := items.filterMap fun | .const stmt => some stmt | _ => none
  decls := items.filterMap fun | .decl decl => some decl | _ => none
  structs := items.filterMap fun | .struct decl => some decl | _ => none
  interfaces := items.filterMap fun | .interface decl => some decl | _ => none
  enums := items.filterMap fun | .enum decl => some decl | _ => none
  sums := items.filterMap fun | .sum decl => some decl | _ => none
  implements := items.filterMap fun | .implements decl => some decl | _ => none

/-- Number of top-level items. -/
def itemCount (file : File) : Nat :=
  file.consts.length + file.decls.length + file.structs.length +
    file.interfaces.length + file.enums.length + file.sums.length +
    file.implements.length

end File

end OriSyntax
