import OriSyntax.Grammar.Loop
import OriSyntax.Grammar.Switch

/-!
Statements of all forms, and the constructs that contain each other: expressions,
statements and the branches of an `if`.  They are built level by level from the
innermost one, at which everything is nested too deeply to be read.
-/

namespace OriSyntax.Grammar

/-- A statement of any form; its first token tells which. -/
def stmtInside (nested : Nested) : Production Stmt := do
  match ← currentKind with
  | .constKw => return .const (← valueDecl nested "constant name")
  | .varKw => return .var (← valueDecl nested "variable name")
  | .returnKw => returnStmt nested
  | .ifKw => ifStmt nested
  | .forKw => loop nested
  | .switchKw => switch nested
  | .breakKw | .continueKw => branchStmt
  | .fallthroughKw => fallThroughStmt
  | .lbrace => return .block (← block nested)
  | .typeKw =>
      if ← atTypeDecl then return .decl (← typeDecl nested)
      else simpleStmt nested
  | _ => simpleStmt nested

/-- An expression, whatever `inside` makes of it.  If it fails, all that may belong
to the expression is skipped. -/
def exprOf (inside : Production Expr) : Step Expr := do
  recoverWith .expression (← current) Expr.bad inside

/-- A statement, whatever `inside` makes of it.  If it fails, the rest of the
statement is skipped. -/
def stmtOf (inside : Production Stmt) : Step Stmt := do
  recoverWith .statement (← current) Stmt.bad inside

/-- The productions of the innermost level, which fail on everything. -/
def Nested.innermost : Nested where
  expr := fun _ => exprOf failTooDeep
  stmt := stmtOf failTooDeep
  ifElse := failTooDeep

/-- The productions around those of the level `nested`. -/
def Nested.around (nested : Nested) : Nested where
  expr := fun least => exprOf (descend (exprInside nested least))
  stmt := stmtOf (descend (stmtInside nested))
  ifElse := descend (ifStmt nested)

/-- The productions that have `levels` levels inside them. -/
def nested : Nat → Nested
  | 0 => .innermost
  | levels + 1 => (nested levels).around

/-- The productions of the outermost level. -/
def outermost : Nested := nested maxNesting

end OriSyntax.Grammar
