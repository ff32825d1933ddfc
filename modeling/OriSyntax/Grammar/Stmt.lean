import OriSyntax.Grammar.TypeDecl

/-!
Statements without a body of their own, and sequences of statements.
-/

namespace OriSyntax.Grammar

variable (nested : Nested)

/-- A constant or a variable; `what` names it in reports. -/
def valueDecl (what : String) : Production ValueDecl := do
  let keyword ← advance
  let name ← expectName what
  let type ← unlessAt .assign (typeName Kind.isValueType "type")
  let eq ← expect .assign "'='"
  return ⟨keyword, name, type, eq, ← nested.expr .lowest⟩

/-- An assignment, an increment or a decrement, or a call.  No other expression is
a statement. -/
def simpleStmt : Production Stmt := do
  let expr ← nested.expr .lowest
  match expr with
  | .bad bad => throw bad
  | _ =>
    let kind ← currentKind
    if expr.isAssignable && kind.isAssignOp then
      let op ← advance
      return .assign expr op (← nested.expr .lowest)
    else if expr.isAssignable && kind.isIncDec then
      return .incDec expr (← advance)
    else if expr.isCall then return .effect expr
    else fail (.unsupportedStatement expr.first) expr.first expr.last

/-- Whether a `return` has no values: what follows ends the statement, or begins
another clause or line. -/
def atReturnEnd : Step Bool := do
  let kind ← currentKind
  return kind ∈ [.rbrace, .semicolon, .eof, .caseKw, .defaultKw] || (← opensLine)

/-- A `return` with its values. -/
def returnStmt : Step Stmt := do
  let keyword ← advance
  if ← atReturnEnd then return .returns keyword []
  else return .returns keyword (← exprList nested)

/-- A `break` or `continue`: inside a loop, and last on its line. -/
def branchStmt : Production Stmt := do
  let keyword ← advance
  if (← get).loopDepth = 0 then fail (.outsideLoop keyword) keyword keyword
  else
    let kind ← currentKind
    if kind ∈ [.rbrace, .semicolon, .eof] || (← opensLine) then
      return if keyword.kind = .breakKw then .breakLoop keyword
        else .continueLoop keyword
    else
      let got ← current
      fail (.afterBranch keyword got) keyword got

/-- A `fallthrough`, which must be the last statement of its clause.  It reads the
semicolon behind it. -/
def fallThroughStmt : Production Stmt := do
  let keyword ← advance
  let _ ← accept? .semicolon
  if (← currentKind) ∈ [.rbrace, .eof, .caseKw, .defaultKw] then
    return .fallThrough keyword
  else
    let got ← current
    fail (.misplacedFallThrough got) keyword got

/-- A statement of a sequence.  If it could not read anything, the token at which
it stands is stepped over. -/
def steppingStmt : Step Stmt := do
  let before := (← get).cursor.position
  let stmt ← nested.stmt
  if (← get).cursor.position = before then
    moveCursor Cursor.next
    return stmt
  else return stmt

/-- One pass over a sequence of statements: a semicolon, or a statement. -/
def stmtPass (stops : Kind → Bool) (found : List Stmt) :
    Step (ForInStep (List Stmt)) := do
  let kind ← currentKind
  if kind = .eof || stops kind then return .done found
  else if kind = .semicolon then
    let _ ← advance
    return .yield found
  else return .yield ((← steppingStmt nested) :: found)

/-- The statements up to a kind at which `stops` holds, or to the end of the
file. -/
def stmtList (stops : Kind → Bool) : Step (List Stmt) := do
  return (← repeatStep (stmtPass nested stops) []).reverse

/-- Statements in braces. -/
def block : Production Block := do
  let opening ← expect .lbrace "'\x7b'"
  let stmts ← stmtList nested (· = .rbrace)
  return ⟨opening, stmts, ← covering opening (expect .rbrace "'\x7d'")⟩

/-- The statement after the condition of an `if`, if there is one. -/
def elseBranch : Production (Option Stmt) := do
  match ← accept? .elseKw with
  | none => return none
  | some keyword =>
      let kind ← currentKind
      if kind = .ifKw then return some (← nested.ifElse)
      else if kind = .lbrace then return some (.block (← block nested))
      else
        let diagnostic ← expectedHere .unexpectedToken "'if' or '\x7b' after 'else'"
        fail diagnostic keyword (← current)

/-- An `if` with all its branches. -/
def ifStmt : Production Stmt := do
  let keyword ← advance
  if (← currentKind) = .lbrace then
    let diagnostic ← expectedHere .missingExpression "condition after 'if'"
    fail diagnostic keyword (← current)
  else
    let condition ← nested.expr .lowest
    if (← currentKind).isAssignOp then
      let op ← current
      fail (.assignmentInCondition op) keyword op
    else
      let body ← block nested
      return .ifElse keyword condition body (← elseBranch nested)

end OriSyntax.Grammar
