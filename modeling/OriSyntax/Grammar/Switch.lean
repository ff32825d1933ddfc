import OriSyntax.Grammar.Stmt

/-!
Switches and their clauses.
-/

namespace OriSyntax.Grammar

variable (nested : Nested)

/-- The values of a clause that began with `keyword`; a `default` has none. -/
def caseValues (keyword : Token) : Step (List Expr) := do
  if keyword.kind = .caseKw then exprList nested else return []

/-- A `case` with its values or a `default`, and the statements up to the next
clause. -/
def caseClause : Production Stmt := do
  let keyword ← advance
  let values ← caseValues nested keyword
  let colon ← expect .colon "':'"
  return .clause keyword values colon
    (← stmtList nested (· ∈ [.caseKw, .defaultKw, .rbrace]))

/-- Whether a statement is a `default` clause. -/
def isDefaultClause : Stmt → Bool
  | .clause keyword .. => keyword.kind = .defaultKw
  | _ => false

/-- A clause, or a bad statement up to the next one.  Of the clauses `found` before
it and this one only one may be a `default`. -/
def caseStmt (found : List Stmt) : Step Stmt := do
  let start ← current
  match ← (caseClause nested).run with
  | .ok clause =>
      if isDefaultClause clause && found.any isDefaultClause then
        return .bad (← report (.repeatedDefault start) start clause.last)
      else return clause
  | .error bad =>
      skip (.toSet .caseBoundary)
      return .bad (← cover start bad)

/-- A token that begins no clause, with all up to the next one. -/
def strayCase : Step Stmt := do
  let start ← current
  let bad ← reportHere (← expectedHere .unexpectedToken "'case' or 'default'")
  moveCursor Cursor.next
  skip (.toSet .caseBoundary)
  return .bad (← cover start bad)

/-- One pass over the clauses of a switch. -/
def casePass (found : List Stmt) : Step (ForInStep (List Stmt)) := do
  let kind ← currentKind
  if kind ∈ [.rbrace, .eof] then return .done found
  else if kind = .semicolon then
    let _ ← advance
    return .yield found
  else if kind ∈ [.caseKw, .defaultKw] then
    return .yield ((← caseStmt nested found) :: found)
  else return .yield ((← strayCase) :: found)

/-- The clauses of a switch up to its closing brace. -/
def caseList : Step (List Stmt) := do
  return (← repeatStep (casePass nested) []).reverse

/-- The first statement of a switch with the semicolon behind it, if the header has
one. -/
def switchInit : Production (Option Stmt) := do
  if ← headerContains .semicolon then
    let stmt ← simpleStmt nested
    let _ ← expect .semicolon "';' after switch init"
    return some stmt
  else return none

/-- What follows the keyword of a switch: a first statement with a semicolon, a
value to compare, and the clauses.  Each of the first two may be missing. -/
def restOfSwitch (keyword : Token) : Production Stmt := do
  let first ← switchInit nested
  let tag ← unlessAt .lbrace (nested.expr .lowest)
  let opening ← expect .lbrace "'\x7b'"
  let cases ← caseList nested
  let closing ← covering keyword (expect .rbrace "'\x7d'")
  return .switch keyword first tag ⟨opening, cases, closing⟩

/-- A switch.  A broken one is skipped with its body. -/
def switch : Production Stmt := do
  let keyword ← advance
  covering keyword (skipping .compound (restOfSwitch nested keyword))

end OriSyntax.Grammar
