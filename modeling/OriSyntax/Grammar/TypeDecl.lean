import OriSyntax.Grammar.Expr

/-!
Type declarations: structures, interfaces, enumerations and sums.
-/

namespace OriSyntax.Grammar

variable (nested : Nested)

/-- Whether a type declaration begins here. -/
def atTypeDecl : Step Bool := do
  return (← kindAt 1) = .ident &&
    (← kindAt 2) ∈ [.structKw, .interfaceKw, .enumKw, .sumKw]

/-- Fails unless a separator follows a member of a type. -/
def memberEnd : Production Unit := do
  let kind ← currentKind
  if kind ∈ [.semicolon, .rbrace, .eof] || (← opensLine) then return ()
  else failHere (← expectedHere .unexpectedToken "';' or newline")

/-- One pass over the members of a type: a semicolon, or a member with a separator
behind it.  A broken member takes the rest of the body with it. -/
def memberPass {α : Type} (member : Production α) (found : List α) :
    Production (ForInStep (List α)) := do
  let kind ← currentKind
  if kind = .rbrace then return .done found
  else if kind = .eof then failHere (← expectedHere .unexpectedToken "'\x7d'")
  else if kind = .semicolon then
    let _ ← advance
    return .yield found
  else
    let item ← skipping .block do
      let item ← member
      memberEnd
      return item
    return .yield (item :: found)

/-- The members of a type in braces, separated by semicolons or new lines. -/
def members {α : Type} (member : Production α) : Production (Enclosed α) := do
  let opening ← expect .lbrace "'\x7b'"
  let items ← repeatProduction (memberPass member) []
  return ⟨opening, items.reverse, ← advance⟩

/-- A field of a structure. -/
def field : Production FieldDecl := do
  let name ← expectName "field name"
  let type ← typeName Kind.isValueType "field type"
  match ← accept? .assign with
  | some eq => return ⟨name, type, some ⟨eq, ← nested.expr .lowest⟩⟩
  | none => return ⟨name, type, none⟩

/-- A member of an interface: a method if a parenthesis follows the name. -/
def interfaceMember : Production InterfaceMember := do
  if (← currentKind) = .ident && (← kindAt 1) = .lparen then
    let name ← advance
    let params ← paramList true
    return .method ⟨name, params, ← results⟩
  else return .embed (← qualifiedName "interface name")

/-- A variant of a sum. -/
def sumVariant : Production SumVariant := do
  let name ← expectName "sum variant"
  if (← currentKind) = .lparen then return ⟨name, some (← paramList true)⟩
  else return ⟨name, none⟩

/-- The keyword and the body of a type declaration that began with `typeKeyword`
and `name`. -/
def typeBody {α : Type} (typeKeyword name : Token) (member : Production α) :
    Production (TypeDecl α) := do
  let keyword ← advance
  return ⟨typeKeyword, name, keyword, ← members member⟩

/-- A type of the sort `what` that must have a member. -/
def nonemptyBody {α : Type} (what : String) (typeKeyword name : Token)
    (member : Production α) : Production (TypeDecl α) := do
  let decl ← typeBody typeKeyword name member
  if decl.body.items.isEmpty then
    fail (.emptyType what name decl.body.closing) typeKeyword decl.body.closing
  else return decl

/-- A type declaration. -/
def typeDecl : Production Decl := do
  let typeKeyword ← advance
  let name ← expectName "type name"
  covering typeKeyword do
    match ← currentKind with
    | .structKw => return .struct (← typeBody typeKeyword name (field nested))
    | .interfaceKw => return .interface (← typeBody typeKeyword name interfaceMember)
    | .enumKw =>
        return .enum (← nonemptyBody "enum" typeKeyword name (expectName "enum variant"))
    | .sumKw => return .sum (← nonemptyBody "sum" typeKeyword name sumVariant)
    | _ =>
        failHere (← expectedHere .unexpectedToken
          "'struct', 'interface', 'enum' or 'sum'")

end OriSyntax.Grammar
