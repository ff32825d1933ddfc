import OriSyntax.Grammar.State

/-!
Types, parameter lists, results and qualified names.  Which kinds may stand as a
type depends on the place, so each place says which it accepts.
-/

namespace OriSyntax.Grammar

/-- Fails because the commas of a list are wrong at the next token. -/
def failList {α : Type} (message : String) : Production α := do
  failHere (.malformedList message (← current))

/-- One pass over a comma list: an entry and the comma behind it, if any. -/
def commaPass {α : Type} (noun : String) (entry : Production α) (found : List α) :
    Production (ForInStep (List α)) := do
  let kind ← currentKind
  if kind = .rparen then return .done found
  else if kind = .eof then failHere (← expectedHere .unexpectedToken "')'")
  else
    let found := (← entry) :: found
    let kind ← currentKind
    if kind = .comma then
      let _ ← advance
      if (← currentKind) = .rparen then failList "unexpected ',' before ')'"
      else return .yield found
    else if kind = .rparen then return .yield found
    else failList s!"expected ',' or ')' in {noun} list"

/-- The entries of a list up to its closing parenthesis, which is not read.  No
comma may stand before the first entry or behind the last one. -/
def commaList {α : Type} (noun : String) (entry : Production α) :
    Production (List α) := do
  if (← currentKind) = .comma then
    failList s!"unexpected ',' before first {noun}"
  else return (← repeatProduction (commaPass noun entry) []).reverse

/-- What follows the opening parenthesis `opening`: the entries of a list and the
closing parenthesis.  A broken list is skipped to its end. -/
def restOfList {α : Type} (noun : String) (opening : Token) (entry : Production α) :
    Production (Enclosed α) := do
  let items ← skipping .list (commaList noun entry)
  return ⟨opening, items, ← advance⟩

/-- A type by its name.  A token that is no type here is read past all the same,
reserved word or not, unless it closes something or opens a body. -/
def typeName (accepts : Kind → Bool) (what : String) : Step TypeExpr := do
  if accepts (← currentKind) then return .named (← advance)
  else
    let got ← current
    let bad ← reportHere
      (if got.kind = .illegal then .illegal got else .unsupportedType what got)
    stepOverUnless fun kind => kind.isClosing || kind = .lbrace
    return .bad bad

/-- The name of a parameter, if the list has names. -/
def paramName (named : Bool) : Production (Option Token) := do
  if named then return some (← expectName "parameter name") else return none

/-- A parameter: a name, if the list has names, and a type. -/
def param (named : Bool) : Production Param := do
  let name ← paramName named
  return ⟨name, ← typeName Kind.isParamType "parameter type"⟩

/-- A list of parameters in parentheses, with names or without. -/
def paramList (named : Bool) : Production ParamList := do
  let opening ← expect .lparen "'('"
  covering opening (restOfList "parameter" opening (param named))

/-- Whether a signature ends here, so that it has no results. -/
def atSignatureEnd : Step Bool := do
  let kind ← currentKind
  return kind ∈ [.lbrace, .rbrace, .semicolon, .eof] || (← opensLine)

/-- The results of a function, if it has any.  A list in parentheses holds bare
types if a comma or a closing parenthesis stands two places past the opening one,
and pairs of a name and a type otherwise. -/
def results : Production (Option Results) := do
  if ← atSignatureEnd then return none
  else if (← currentKind) = .lparen then
    let second ← kindAt 2
    return some (.list (← paramList (second ≠ .comma && second ≠ .rparen)))
  else return some (.single (← typeName Kind.isParamType "result type"))

/-- A name, or a name within a package. -/
def qualifiedName (what : String) : Production QualifiedName := do
  let name ← expectName what
  match ← accept? .dot with
  | some dot => return ⟨some ⟨name, dot⟩, ← expectName what⟩
  | none => return ⟨none, name⟩

end OriSyntax.Grammar
