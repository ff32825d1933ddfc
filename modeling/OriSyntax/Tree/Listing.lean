import OriSyntax.Outline
import OriSyntax.Tree.File

/-!
Tree listings: the outline of every node, with its tokens and parts labelled in
source order.  Parts that a node does not have are left out.
-/

namespace OriSyntax

/-- The outline of a bad node under the name of its category. -/
def BadNode.outline (name : String) (node : BadNode) : Outline :=
  .node name
    [.leaf ("Reason: " ++ node.reason), .token "From" node.first,
      .token "To" node.last]

/-- The outline of a type. -/
def TypeExpr.outline : TypeExpr → Outline
  | named name => .node "NameType" [.token "Name" name]
  | bad node => node.outline "BadType"

mutual

/-- The outline of an expression. -/
def Expr.outline (expr : Expr) : Outline :=
  match expr with
  | .ident name => .node expr.nodeName [.token "Name" name]
  | .literal _ value => .node expr.nodeName [.token "Value" value]
  | .paren opening inner closing =>
      .node expr.nodeName
        [.token "Left" opening, .child "Inner" inner.outline,
          .token "Right" closing]
  | .unary op operand =>
      .node expr.nodeName [.token "Op" op, .child "Right" operand.outline]
  | .binary left op right =>
      .node expr.nodeName
        [.child "Left" left.outline, .token "Op" op, .child "Right" right.outline]
  | .selector base dot name =>
      .node expr.nodeName
        [.child "X" base.outline, .token "Dot" dot, .token "Selector" name]
  | .index base opening inner closing =>
      .node expr.nodeName
        [.child "X" base.outline, .token "LBracket" opening,
          .child "Index" inner.outline, .token "RBracket" closing]
  | .call callee ⟨opening, args, closing⟩ =>
      .node expr.nodeName
        [.child "Callee" callee.outline, .token "LParen" opening,
          .listing "Args" (Expr.outlines args), .token "RParen" closing]
  | .bad node => node.outline expr.nodeName

/-- The outlines of expressions in a row. -/
def Expr.outlines : List Expr → List Outline
  | [] => []
  | expr :: rest => expr.outline :: Expr.outlines rest

end

/-- A labelled part that may be missing. -/
def Outline.child? {α : Type} (label : String) (outline : α → Outline) :
    Option α → List Outline
  | some part => [.child label (outline part)]
  | none => []

/-- The outline of a parameter. -/
def Param.outline (param : Param) : Outline :=
  .node "Param"
    (Outline.token? "Name" param.name ++ [.child "Type" param.type.outline])

/-- The outline of a parameter list; its parentheses are not shown. -/
def ParamList.outline (params : ParamList) : Outline :=
  .listing "Params" (params.items.map Param.outline)

/-- The outline of results. -/
def Results.outline : Results → Outline
  | single type => type.outline
  | list params =>
      .node "ResultList"
        [.token "LParen" params.opening,
          .listing "Results" (params.items.map Param.outline),
          .token "RParen" params.closing]

/-- The parts of a qualified name. -/
def QualifiedName.outlines (name : QualifiedName) : List Outline :=
  Outline.token? "Qualifier" (name.qualifier.map Qualifier.package) ++
    Outline.token? "Dot" (name.qualifier.map Qualifier.dot) ++
    [.token "Name" name.name]

/-- The outline of a field. -/
def FieldDecl.outline (field : FieldDecl) : Outline :=
  .node "FieldDecl"
    ([.token "Name" field.name, .child "Type" field.type.outline] ++
      Outline.token? "Eq" (field.default.map Default.eq) ++
      Outline.child? "Default" (fun default => default.value.outline) field.default ++
      [.flag "Public" field.isPublic])

/-- The outline of a member of an interface. -/
def InterfaceMember.outline : InterfaceMember → Outline
  | method spec =>
      .node "MethodSpec"
        ([.token "Name" spec.name, ParamList.outline spec.params] ++
          Outline.child? "Results" Results.outline spec.results)
  | embed name => .node "EmbeddedType" name.outlines

/-- The outline of a variant of a sum. -/
def SumVariant.outline (variant : SumVariant) : Outline :=
  .node "SumVariant"
    (.token "Name" variant.name :: (variant.params.map ParamList.outline).toList)

/-- The outline of a type declaration; `label` names its keyword, `members` its
members. -/
def TypeDecl.outline {α : Type} (name label members : String)
    (outline : α → Outline) (decl : TypeDecl α) : Outline :=
  .node name
    [.token "Type" decl.typeKeyword, .token "Name" decl.name,
      .token label decl.keyword, .token "LBrace" decl.body.opening,
      .listing members (decl.body.items.map outline),
      .token "RBrace" decl.body.closing, .flag "Public" decl.isPublic]

/-- The outline of a structure. -/
def StructDecl.outline (decl : StructDecl) : Outline :=
  TypeDecl.outline "StructType" "Struct" "Fields" FieldDecl.outline decl

/-- The outline of an interface. -/
def InterfaceDecl.outline (decl : InterfaceDecl) : Outline :=
  TypeDecl.outline "InterfaceType" "Interface" "Members" InterfaceMember.outline decl

/-- The outline of an enumeration. -/
def EnumDecl.outline (decl : EnumDecl) : Outline :=
  TypeDecl.outline "EnumType" "Enum" "Variants" (Outline.token "Variant") decl

/-- The outline of a sum. -/
def SumDecl.outline (decl : SumDecl) : Outline :=
  TypeDecl.outline "SumType" "Sum" "Variants" SumVariant.outline decl

/-- The outline of an `implements` declaration. -/
def ImplementsDecl.outline (decl : ImplementsDecl) : Outline :=
  .node "ImplementsDecl"
    [.token "TypeName" decl.typeName, .token "Implements" decl.keyword,
      .node "Interface:" decl.interface.outlines]

/-- The outline of a value declaration under the name of its statement. -/
def ValueDecl.outline (name : String) (decl : ValueDecl) : Outline :=
  .node name
    ([.token "Keyword" decl.keyword, .token "Name" decl.name] ++
      Outline.child? "Type" TypeExpr.outline decl.type ++
      [.token "Eq" decl.eq, .child "Init" decl.value.outline])

mutual

/-- The outline of a statement.  A `default` clause shows no list of values. -/
def Stmt.outline (stmt : Stmt) : Outline :=
  match stmt with
  | .block body => Stmt.blockOutline body
  | .const decl | .var decl => decl.outline stmt.nodeName
  | .assign left op right =>
      .node stmt.nodeName
        [.child "Left" left.outline, .token "Op" op, .child "Right" right.outline]
  | .incDec target op =>
      .node stmt.nodeName [.child "X" target.outline, .token "Op" op]
  | .effect value => .node stmt.nodeName [.child "Expr" value.outline]
  | .returns keyword values =>
      .node stmt.nodeName
        [.token "Return" keyword, .listing "Values" (Expr.outlines values)]
  | .ifElse keyword condition body otherwise =>
      .node stmt.nodeName
        ([.token "If" keyword, .child "Condition" condition.outline,
          .child "Then" (Stmt.blockOutline body)] ++
          Stmt.outline? "Else" otherwise)
  | .forLoop keyword first condition after body =>
      .node stmt.nodeName
        (.token "For" keyword :: Stmt.outline? "Init" first ++
          Outline.child? "Condition" Expr.outline condition ++
          Stmt.outline? "Post" after ++ [.child "Body" (Stmt.blockOutline body)])
  | .rangeLoop keyword key value op rangeKeyword subject body =>
      .node stmt.nodeName
        (.token "For" keyword :: Outline.child? "Key" Expr.outline key ++
          Outline.child? "Value" Expr.outline value ++ Outline.token? "Op" op ++
          [.token "Range" rangeKeyword, .child "X" subject.outline,
            .child "Body" (Stmt.blockOutline body)])
  | .switch keyword first tag ⟨opening, cases, closing⟩ =>
      .node stmt.nodeName
        (.token "Switch" keyword :: Stmt.outline? "Init" first ++
          Outline.child? "Tag" Expr.outline tag ++
          [.token "LBrace" opening, .listing "Cases" (Stmt.outlines cases),
            .token "RBrace" closing])
  | .clause keyword values colon body =>
      .node stmt.nodeName
        (.token "Case" keyword ::
          (if keyword.kind = .defaultKw then []
            else [.listing "Values" (Expr.outlines values)]) ++
          [.token "Colon" colon, .listing "Body" (Stmt.outlines body)])
  | .breakLoop keyword | .continueLoop keyword | .fallThrough keyword =>
      .node stmt.nodeName [.token "Keyword" keyword]
  | .decl decl => .node stmt.nodeName [.child "Decl" decl.outline]
  | .bad node => node.outline stmt.nodeName

/-- The outline of statements in braces. -/
def Stmt.blockOutline : Enclosed Stmt → Outline
  | ⟨opening, stmts, closing⟩ =>
      .node "BlockStmt"
        [.token "LBrace" opening, .listing "Stmts" (Stmt.outlines stmts),
          .token "RBrace" closing]

/-- A labelled statement that may be missing. -/
def Stmt.outline? (label : String) : Option Stmt → List Outline
  | none => []
  | some stmt => [.child label stmt.outline]

/-- The outlines of statements in a row. -/
def Stmt.outlines : List Stmt → List Outline
  | [] => []
  | stmt :: rest => stmt.outline :: Stmt.outlines rest

/-- The outline of a function. -/
def FuncDecl.outline : FuncDecl → Outline
  | ⟨keyword, name, params, results, body⟩ =>
      .node "FuncDecl"
        ([.token "Func" keyword, .token "Name" name, ParamList.outline params] ++
          Outline.child? "Results" Results.outline results ++
          [.child "Body" (Stmt.blockOutline body)])

/-- The outline of a declaration. -/
def Decl.outline : Decl → Outline
  | .func decl => decl.outline
  | .struct decl => StructDecl.outline decl
  | .interface decl => InterfaceDecl.outline decl
  | .enum decl => EnumDecl.outline decl
  | .sum decl => SumDecl.outline decl
  | .implements decl => decl.outline
  | .bad node => node.outline "BadDecl"

end

namespace File

/-- The outline of a file, bucket by bucket. -/
def outline (file : File) : Outline :=
  .node "File"
    [.token "Package" file.package, .token "Name" file.name,
      .listing "ConstDecls" (file.consts.map Stmt.outline),
      .listing "Decls" (file.decls.map Decl.outline),
      .listing "Structs" (file.structs.map StructDecl.outline),
      .listing "Interfaces" (file.interfaces.map InterfaceDecl.outline),
      .listing "Enums" (file.enums.map EnumDecl.outline),
      .listing "Sums" (file.sums.map SumDecl.outline),
      .listing "Implements" (file.implements.map ImplementsDecl.outline)]

/-- The tree listing of a file. -/
def listing (file : File) : String := file.outline.render

end File

end OriSyntax
