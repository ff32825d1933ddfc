import OriSyntax.Tree.File

/-!
The extent of a node: its first and its last token.  A node made of others begins
where its leftmost part begins and ends where its rightmost part ends.
-/

namespace OriSyntax

/-- The first token of a value declaration. -/
def ValueDecl.first (decl : ValueDecl) : Token := decl.keyword

/-- The last token of a value declaration. -/
def ValueDecl.last (decl : ValueDecl) : Token := decl.value.last

/-- The first token of a parameter: its name, or its type if it has no name. -/
def Param.first (param : Param) : Token := param.name.getD param.type.first

/-- The last token of a parameter. -/
def Param.last (param : Param) : Token := param.type.last

/-- The first token of results. -/
def Results.first : Results → Token
  | single type => type.first
  | list params => params.opening

/-- The last token of results. -/
def Results.last : Results → Token
  | single type => type.last
  | list params => params.closing

/-- The first token of a qualified name. -/
def QualifiedName.first (name : QualifiedName) : Token :=
  (name.qualifier.map Qualifier.package).getD name.name

/-- The last token of a qualified name. -/
def QualifiedName.last (name : QualifiedName) : Token := name.name

/-- The first token of a field. -/
def FieldDecl.first (field : FieldDecl) : Token := field.name

/-- The last token of a field: that of its default value, if it has one. -/
def FieldDecl.last (field : FieldDecl) : Token :=
  (field.default.map (·.value.last)).getD field.type.last

/-- The first token of a method. -/
def MethodSpec.first (method : MethodSpec) : Token := method.name

/-- The last token of a method. -/
def MethodSpec.last (method : MethodSpec) : Token :=
  (method.results.map Results.last).getD method.params.closing

/-- The first token of a member. -/
def InterfaceMember.first : InterfaceMember → Token
  | method spec => spec.first
  | embed name => name.first

/-- The last token of a member. -/
def InterfaceMember.last : InterfaceMember → Token
  | method spec => spec.last
  | embed name => name.last

/-- The first token of a variant. -/
def SumVariant.first (variant : SumVariant) : Token := variant.name

/-- The last token of a variant. -/
def SumVariant.last (variant : SumVariant) : Token :=
  (variant.params.map Enclosed.closing).getD variant.name

/-- The first token of a type declaration. -/
def TypeDecl.first {α : Type} (decl : TypeDecl α) : Token := decl.typeKeyword

/-- The last token of a type declaration. -/
def TypeDecl.last {α : Type} (decl : TypeDecl α) : Token := decl.body.closing

/-- The first token of an `implements` declaration. -/
def ImplementsDecl.first (decl : ImplementsDecl) : Token := decl.typeName

/-- The last token of an `implements` declaration. -/
def ImplementsDecl.last (decl : ImplementsDecl) : Token := decl.interface.last

/-- The first token of a function. -/
def FuncDecl.first (decl : FuncDecl) : Token := decl.keyword

/-- The last token of a function. -/
def FuncDecl.last (decl : FuncDecl) : Token := decl.body.closing

/-- The first token of a declaration. -/
def Decl.first : Decl → Token
  | func decl => decl.first
  | struct decl => decl.first
  | interface decl => decl.first
  | enum decl => decl.first
  | sum decl => decl.first
  | implements decl => decl.first
  | bad node => node.first

/-- The last token of a declaration. -/
def Decl.last : Decl → Token
  | func decl => decl.last
  | struct decl => decl.last
  | interface decl => decl.last
  | enum decl => decl.last
  | sum decl => decl.last
  | implements decl => decl.last
  | bad node => node.last

/-- The first token of a statement. -/
def Stmt.first : Stmt → Token
  | block body => body.opening
  | const value | var value => value.first
  | assign left _ _ => left.first
  | incDec target _ => target.first
  | effect value => value.first
  | returns keyword _ | ifElse keyword .. | forLoop keyword ..
  | rangeLoop keyword .. | switch keyword .. | clause keyword ..
  | breakLoop keyword | continueLoop keyword | fallThrough keyword => keyword
  | decl inner => inner.first
  | bad node => node.first

mutual

/-- The last token of a statement. -/
def Stmt.last : Stmt → Token
  | .block body => body.closing
  | .const value | .var value => value.last
  | .assign _ _ right => right.last
  | .incDec _ op => op
  | .effect value => value.last
  | .returns keyword values => (values.getLast?.map Expr.last).getD keyword
  | .ifElse _ _ body none => body.closing
  | .ifElse _ _ _ (some otherwise) => otherwise.last
  | .forLoop _ _ _ _ body | .rangeLoop _ _ _ _ _ _ body => body.closing
  | .switch _ _ _ cases => cases.closing
  | .clause _ _ colon body => Stmt.lastOf colon body
  | .breakLoop keyword | .continueLoop keyword | .fallThrough keyword => keyword
  | .decl inner => inner.last
  | .bad node => node.last

/-- The last token of a sequence of statements, which is `before` if there are
none. -/
def Stmt.lastOf (before : Token) : List Stmt → Token
  | [] => before
  | [stmt] => stmt.last
  | _ :: stmt :: rest => Stmt.lastOf before (stmt :: rest)

end

namespace File

/-- The first token of a file. -/
def first (file : File) : Token := file.package

/-- The last tokens of the items, bucket by bucket. -/
def itemEnds (file : File) : List Token :=
  file.consts.map Stmt.last ++ file.decls.map Decl.last ++
    file.structs.map TypeDecl.last ++ file.interfaces.map TypeDecl.last ++
    file.enums.map TypeDecl.last ++ file.sums.map TypeDecl.last ++
    file.implements.map ImplementsDecl.last

/-- The last token of a file: of the ends of its items and its name the one that
stands furthest along, and of several in one place the last. -/
def last (file : File) : Token :=
  (file.itemEnds ++ [file.name]).foldl
    (fun best token => if best.position ≤ token.position then token else best)
    .absent

end File

end OriSyntax
