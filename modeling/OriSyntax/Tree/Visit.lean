import OriSyntax.Tree.File

/-!
Walks over a tree: the nodes of a file from the outside in, parents before their
children and children in source order.  Type declarations in the buckets of a file
are not nodes of their own here, but what they contain is.
-/

namespace OriSyntax

/-- One node met on a walk. -/
inductive Visit where
  | decl (decl : Decl)
  | stmt (stmt : Stmt)
  | block (block : Block)
  | expr (expr : Expr)
  | type (type : TypeExpr)
  | bad (node : BadNode)

/-- The walk over a type, ahead of `rest`. -/
def TypeExpr.walk (rest : List Visit) : TypeExpr → List Visit
  | named name => .type (.named name) :: rest
  | bad node => .type (.bad node) :: .bad node :: rest

mutual

/-- The walk over an expression, ahead of `rest`. -/
def Expr.walk (rest : List Visit) (expr : Expr) : List Visit :=
  .expr expr ::
    match expr with
    | .ident _ | .literal .. => rest
    | .paren _ inner _ => inner.walk rest
    | .unary _ operand => operand.walk rest
    | .binary left _ right => left.walk (right.walk rest)
    | .selector base _ _ => base.walk rest
    | .index base _ inner _ => base.walk (inner.walk rest)
    | .call callee ⟨_, args, _⟩ => callee.walk (Expr.walkAll rest args)
    | .bad node => .bad node :: rest

/-- The walk over expressions in a row, ahead of `rest`. -/
def Expr.walkAll (rest : List Visit) : List Expr → List Visit
  | [] => rest
  | expr :: others => expr.walk (Expr.walkAll rest others)

end

/-- The walk over an expression that may be missing. -/
def Expr.walk? (rest : List Visit) : Option Expr → List Visit
  | none => rest
  | some expr => expr.walk rest

/-- The walk over the types of parameters. -/
def ParamList.walk (rest : List Visit) (params : ParamList) : List Visit :=
  params.items.foldr (fun param rest => param.type.walk rest) rest

/-- The walk over the types of results that may be missing. -/
def Results.walk? (rest : List Visit) : Option Results → List Visit
  | none => rest
  | some (.single type) => type.walk rest
  | some (.list params) => ParamList.walk rest params

/-- The walk over a value declaration. -/
def ValueDecl.walk (rest : List Visit) (decl : ValueDecl) : List Visit :=
  match decl.type with
  | none => decl.value.walk rest
  | some type => type.walk (decl.value.walk rest)

/-- The walk over the fields of a structure. -/
def StructDecl.walk (rest : List Visit) (decl : StructDecl) : List Visit :=
  decl.body.items.foldr
    (fun field rest =>
      field.type.walk (Expr.walk? rest (field.default.map Default.value)))
    rest

/-- The walk over the methods of an interface. -/
def InterfaceDecl.walk (rest : List Visit) (decl : InterfaceDecl) : List Visit :=
  decl.body.items.foldr
    (fun member rest =>
      match member with
      | .method spec => ParamList.walk (Results.walk? rest spec.results) spec.params
      | .embed _ => rest)
    rest

/-- The walk over the variants of a sum. -/
def SumDecl.walk (rest : List Visit) (decl : SumDecl) : List Visit :=
  decl.body.items.foldr
    (fun variant rest =>
      match variant.params with
      | none => rest
      | some params => ParamList.walk rest params)
    rest

mutual

/-- The walk over a statement, ahead of `rest`. -/
def Stmt.walk (rest : List Visit) (stmt : Stmt) : List Visit :=
  .stmt stmt ::
    match stmt with
    | .block body => Stmt.walkBlock rest body
    | .const decl | .var decl => decl.walk rest
    | .assign left _ right => left.walk (right.walk rest)
    | .incDec target _ => target.walk rest
    | .effect value => value.walk rest
    | .returns _ values => Expr.walkAll rest values
    | .ifElse _ condition body otherwise =>
        condition.walk (Stmt.walkBlock (Stmt.walk? rest otherwise) body)
    | .forLoop _ first condition after body =>
        Stmt.walk?
          (Expr.walk? (Stmt.walk? (Stmt.walkBlock rest body) after) condition) first
    | .rangeLoop _ key value _ _ subject body =>
        Expr.walk? (Expr.walk? (subject.walk (Stmt.walkBlock rest body)) value) key
    | .switch _ first tag ⟨_, cases, _⟩ =>
        Stmt.walk? (Expr.walk? (Stmt.walkAll rest cases) tag) first
    | .clause _ values _ body => Expr.walkAll (Stmt.walkAll rest body) values
    | .breakLoop _ | .continueLoop _ | .fallThrough _ => rest
    | .decl decl => decl.walk rest
    | .bad node => .bad node :: rest

/-- The walk over statements in braces. -/
def Stmt.walkBlock (rest : List Visit) (block : Enclosed Stmt) : List Visit :=
  .block block ::
    match block with
    | ⟨_, stmts, _⟩ => Stmt.walkAll rest stmts

/-- The walk over a statement that may be missing. -/
def Stmt.walk? (rest : List Visit) : Option Stmt → List Visit
  | none => rest
  | some stmt => stmt.walk rest

/-- The walk over statements in a row. -/
def Stmt.walkAll (rest : List Visit) : List Stmt → List Visit
  | [] => rest
  | stmt :: others => stmt.walk (Stmt.walkAll rest others)

/-- The walk over a function. -/
def FuncDecl.walk (rest : List Visit) : FuncDecl → List Visit
  | ⟨_, _, params, results, body⟩ =>
      ParamList.walk (Results.walk? (Stmt.walkBlock rest body) results) params

/-- The walk over a declaration. -/
def Decl.walk (rest : List Visit) (decl : Decl) : List Visit :=
  .decl decl ::
    match decl with
    | .func decl => decl.walk rest
    | .struct decl => StructDecl.walk rest decl
    | .interface decl => InterfaceDecl.walk rest decl
    | .sum decl => SumDecl.walk rest decl
    | .enum _ | .implements _ => rest
    | .bad node => .bad node :: rest

end

namespace Visit

/-- The bad node that was met, if it is one. -/
def bad? : Visit → Option BadNode
  | bad node => some node
  | _ => none

/-- The name under which the node is counted: declarations, statements and
expressions are. -/
def countedName? : Visit → Option String
  | decl node => some node.nodeName
  | stmt node => some node.nodeName
  | expr node => some node.nodeName
  | block _ | type _ | bad _ => none

end Visit

namespace File

/-- The walk over a file, bucket by bucket. -/
def visits (file : File) : List Visit :=
  Stmt.walkAll
    (file.decls.foldr (fun decl rest => decl.walk rest)
      (file.structs.foldr (fun decl rest => StructDecl.walk rest decl)
        (file.interfaces.foldr (fun decl rest => InterfaceDecl.walk rest decl)
          (file.sums.foldr (fun decl rest => SumDecl.walk rest decl) []))))
    file.consts

/-- The bad nodes of a file, in the order of the walk. -/
def badNodes (file : File) : List BadNode := file.visits.filterMap Visit.bad?

/-- The names of all counted nodes, in the order of the walk. -/
def countedNames (file : File) : List String :=
  file.visits.filterMap Visit.countedName?

end File

end OriSyntax
