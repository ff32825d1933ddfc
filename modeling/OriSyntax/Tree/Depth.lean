import OriSyntax.Tree.File

/-!
The depth of a tree: how many declarations, statements and expressions are nested
in each other at most.  Bodies and types add nothing by themselves.
-/

namespace OriSyntax

mutual

/-- Depth of an expression; a name or a literal has depth one. -/
def Expr.depth : Expr → Nat
  | .ident _ | .literal .. | .bad _ => 1
  | .paren _ inner _ => inner.depth + 1
  | .unary _ operand => operand.depth + 1
  | .binary left _ right => max left.depth right.depth + 1
  | .selector base _ _ => base.depth + 1
  | .index base _ inner _ => max base.depth inner.depth + 1
  | .call callee ⟨_, args, _⟩ => max callee.depth (Expr.depthOfAll args) + 1

/-- The greatest depth among expressions; zero if there are none. -/
def Expr.depthOfAll : List Expr → Nat
  | [] => 0
  | expr :: rest => max expr.depth (Expr.depthOfAll rest)

end

/-- Depth of an expression that may be missing. -/
def Expr.depth? (expr : Option Expr) : Nat := (expr.map Expr.depth).getD 0

/-- The greatest depth among the defaults of the fields of a structure. -/
def StructDecl.depth (decl : StructDecl) : Nat :=
  decl.body.items.foldl
    (fun deepest field => max deepest (Expr.depth? (field.default.map Default.value)))
    0

mutual

/-- Depth of a statement. -/
def Stmt.depth : Stmt → Nat
  | .block body => Stmt.depthOfBlock body + 1
  | .const decl | .var decl => decl.value.depth + 1
  | .assign left _ right => max left.depth right.depth + 1
  | .incDec target _ => target.depth + 1
  | .effect value => value.depth + 1
  | .returns _ values => Expr.depthOfAll values + 1
  | .ifElse _ condition body otherwise =>
      max condition.depth (max (Stmt.depthOfBlock body) (Stmt.depth? otherwise)) + 1
  | .forLoop _ first condition after body =>
      max (max (Stmt.depth? first) (Expr.depth? condition))
        (max (Stmt.depth? after) (Stmt.depthOfBlock body)) + 1
  | .rangeLoop _ key value _ _ subject body =>
      max (max (Expr.depth? key) (Expr.depth? value))
        (max subject.depth (Stmt.depthOfBlock body)) + 1
  | .switch _ first tag ⟨_, cases, _⟩ =>
      max (max (Stmt.depth? first) (Expr.depth? tag)) (Stmt.depthOfAll cases) + 1
  | .clause _ values _ body =>
      max (Expr.depthOfAll values) (Stmt.depthOfAll body) + 1
  | .breakLoop _ | .continueLoop _ | .fallThrough _ | .bad _ => 1
  | .decl decl => decl.depth + 1

/-- The greatest depth among statements in braces. -/
def Stmt.depthOfBlock : Enclosed Stmt → Nat
  | ⟨_, stmts, _⟩ => Stmt.depthOfAll stmts

/-- Depth of a statement that may be missing. -/
def Stmt.depth? : Option Stmt → Nat
  | none => 0
  | some stmt => stmt.depth

/-- The greatest depth among statements; zero if there are none. -/
def Stmt.depthOfAll : List Stmt → Nat
  | [] => 0
  | stmt :: rest => max stmt.depth (Stmt.depthOfAll rest)

/-- The greatest depth in the body of a function. -/
def FuncDecl.depth : FuncDecl → Nat
  | ⟨_, _, _, _, body⟩ => Stmt.depthOfBlock body

/-- Depth of a declaration. -/
def Decl.depth : Decl → Nat
  | .func decl => decl.depth + 1
  | .struct decl => StructDecl.depth decl + 1
  | .interface _ | .enum _ | .sum _ | .implements _ | .bad _ => 1

end

/-- Depth of a file.  A type declaration at the top level adds no level. -/
def File.depth (file : File) : Nat :=
  max (Stmt.depthOfAll file.consts)
    (max (file.decls.foldl (fun deepest decl => max deepest decl.depth) 0)
      (file.structs.foldl (fun deepest decl => max deepest (StructDecl.depth decl)) 0))

end OriSyntax
