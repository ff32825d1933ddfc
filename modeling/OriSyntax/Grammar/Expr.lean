import OriSyntax.Grammar.Type

/-!
Expressions: an operand, then operators and suffixes folded onto it from the left
as long as they bind tightly enough.
-/

namespace OriSyntax.Grammar

variable (nested : Nested)

/-- An expression in parentheses. -/
def parenthesized : Production Expr := do
  let opening ← advance
  if (← currentKind) = .rparen then
    let diagnostic ← expectedHere .missingExpression "expression inside '()'"
    fail diagnostic opening (← advance)
  else
    let inner ← nested.expr .lowest
    let closing ← covering opening (expect .rparen "')'")
    return .paren opening inner closing

/-- An expression without operators behind it: a name, a literal, an expression in
parentheses, or an operand with a sign before it. -/
def operand : Production Expr := do
  match ← currentKind with
  | .ident => return .ident (← advance)
  | .intLit => return .literal .int (← advance)
  | .floatLit => return .literal .float (← advance)
  | .boolLit => return .literal .bool (← advance)
  | .stringLit => return .literal .string (← advance)
  | .lparen => parenthesized nested
  | .minus | .not =>
      let op ← advance
      return .unary op (← nested.expr .suffix)
  | _ =>
      let bad ← reportHere (← expectedHere .missingExpression "expression")
      skipUnexpected
      throw bad

/-- A binary operator and its right operand, folded onto `left`.  The right operand
must bind one level tighter, which makes operators of one level associate to the
left.  The outcome of a comparison cannot be compared again. -/
def binary (left : Expr) (level : Precedence) : Step Expr := do
  let op ← advance
  let right ← nested.expr level.tighter
  if op.kind.isComparison && left.isComparison then
    return .bad (← report (.chainedComparison op) op right.last)
  else return .binary left op right

/-- A selection, an index or a call, folded onto `base`. -/
def suffix (base : Expr) : Production Expr := do
  let opening ← advance
  if opening.kind = .dot then
    return .selector base opening (← expectName "selector after '.'")
  else if opening.kind = .lbracket then
    let inner ← nested.expr .lowest
    return .index base opening inner (← expect .rbracket "']'")
  else
    return .call base (← restOfList "argument" opening (nested.expr .lowest))

/-- One pass over what continues the expression `left`.  An operator on a new line
does not: it begins a statement. -/
def exprPass (least : Precedence) (left : Expr) : Step (ForInStep Expr) := do
  let kind ← currentKind
  let level := kind.precedence
  if level = .lowest || level < least || (← opensLine) then return .done left
  else if kind.isSuffix then
    match ← (suffix nested left).run with
    | .ok expr => return .yield expr
    | .error bad => return .done (.bad (← cover left.first bad))
  else return .yield (← binary nested left level)

/-- An expression whose operators bind at least as tightly as `least`. -/
def exprInside (least : Precedence) : Step Expr := do
  match ← (operand nested).run with
  | .ok left => repeatStep (exprPass nested least) left
  | .error bad => return .bad bad

/-- One pass over expressions in a row: an expression and the comma behind it. -/
def exprListPass (found : List Expr) : Step (ForInStep (List Expr)) := do
  let expr ← nested.expr .lowest
  match ← accept? .comma with
  | some _ => return .yield (expr :: found)
  | none => return .done (expr :: found)

/-- The expressions of a comma list that has no delimiters, one at least. -/
def exprList : Step (List Expr) := do
  return (← repeatStep (exprListPass nested) []).reverse

end OriSyntax.Grammar
