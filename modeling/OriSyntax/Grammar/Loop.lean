import OriSyntax.Grammar.Stmt

/-!
Loops.  What stands in the header up to its opening brace tells the form: nothing,
`range`, semicolons, or else a condition.
-/

namespace OriSyntax.Grammar

variable (nested : Nested)

/-- The body of a loop, in which loop statements are allowed. -/
def loopBody : Production Block := insideLoop (block nested)

/-- The value behind the key of a `range`, if a comma follows the key. -/
def rangeValue : Step (Option Expr) := do
  match ← accept? .comma with
  | some _ => return some (← nested.expr .lowest)
  | none => return none

/-- What a `range` runs through: a key with its operator, or nothing.  A value may
follow the key. -/
def rangeTargets (keyword : Token) :
    Production (Option Expr × Option Expr × Option Token) := do
  if (← currentKind) = .rangeKw then return (none, none, none)
  else
    let key ← nested.expr .lowest
    let value ← rangeValue nested
    if (← currentKind) ∈ [.define, .assign] then
      return (some key, value, some (← advance))
    else
      let diagnostic ← expectedHere .unexpectedToken "':=' or '=' before 'range'"
      fail diagnostic keyword (← current)

/-- A loop over the items of a value. -/
def rangeLoop (keyword : Token) : Production Stmt := do
  let (key, value, op) ← rangeTargets nested keyword
  let rangeKeyword ← expect .rangeKw "'range'"
  let subject ← nested.expr .lowest
  return .rangeLoop keyword key value op rangeKeyword subject (← loopBody nested)

/-- The two clauses of a loop header that are statements. -/
inductive ForClause where
  | init | post
deriving DecidableEq, Repr

/-- The name of a clause in reports. -/
def ForClause.name : ForClause → String
  | init => "init"
  | post => "post"

/-- Statements that may be a clause: assignments, calls, and in the last clause
increments and decrements. -/
def ForClause.allows (clause : ForClause) : Stmt → Bool
  | .assign .. => true
  | .incDec .. => clause = post
  | stmt => stmt.isCall

/-- A clause of a loop header. -/
def forClause (clause : ForClause) : Production Stmt := do
  let stmt ← simpleStmt nested
  if clause.allows stmt then return stmt
  else fail (.invalidForClause clause.name stmt.first) stmt.first stmt.last

/-- A loop with three clauses, each of which may be missing. -/
def threeClauseLoop (keyword : Token) : Production Stmt := do
  let first ← unlessAt .semicolon (forClause nested .init)
  let _ ← expect .semicolon "';' after for init"
  let condition ← unlessAt .semicolon (nested.expr .lowest)
  let _ ← expect .semicolon "';' after for condition"
  let after ← unlessAt .lbrace (forClause nested .post)
  return .forLoop keyword first condition after (← loopBody nested)

/-- What follows the keyword of a loop. -/
def restOfLoop (keyword : Token) : Production Stmt := do
  if (← currentKind) = .lbrace then
    return .forLoop keyword none none none (← loopBody nested)
  else if ← headerContains .rangeKw then rangeLoop nested keyword
  else if ← headerContains .semicolon then threeClauseLoop nested keyword
  else
    let condition ← nested.expr .lowest
    return .forLoop keyword none (some condition) none (← loopBody nested)

/-- A loop.  A broken one is skipped with its body, since the semicolons of its
header end no statement. -/
def loop : Production Stmt := do
  let keyword ← advance
  covering keyword (skipping .compound (restOfLoop nested keyword))

end OriSyntax.Grammar
