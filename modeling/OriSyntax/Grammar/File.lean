import OriSyntax.Grammar.Nesting
import OriSyntax.Source

/-!
Source files: the package clause, then top-level items to the end of the file.  Expressions,
types and bodies are read by the productions of the outermost level, unless others are given.
A file is read from any list of tokens, and always gives a tree and diagnostics.
-/

namespace OriSyntax

namespace Grammar

variable (outer : Nested := outermost)

/-- The package clause.  If there is none, nothing is read, so that the first item
is not lost. -/
def packageClause : Production (Token × Token) := do
  if (← currentKind) = .packageKw then
    let keyword ← advance
    let name ← covering keyword (expectName "package name")
    return (keyword, name)
  else failHere (← expectedHere .unexpectedToken "'package'")

/-- The body of a function, which no loop around the function encloses. -/
def funcBody : Production Block := outsideLoops (block outer)

/-- A function.  A broken part makes all of it bad, but the parts behind it are
read nevertheless; the first broken part tells why. -/
def funcDecl : Production FuncDecl := do
  let keyword ← advance
  let name ← expectName "function name"
  let params ← attempt (paramList true)
  let results ← attempt results
  let body ← attempt (funcBody outer)
  let params ← covering keyword (settle params)
  return ⟨keyword, name, params, ← settle results, ← settle body⟩

/-- The statement that a type offers an interface. -/
def implementsDecl : Production ImplementsDecl := do
  let typeName ← advance
  let keyword ← advance
  return ⟨typeName, keyword, ← qualifiedName "interface name"⟩

/-- A variable is read as in a body, and then rejected. -/
def fileVariable : Production Decl := do
  let decl ← valueDecl outer "variable name"
  return .bad (← report (.variableAtFileScope decl.keyword) decl.first decl.last)

/-- A token with which no item begins. -/
def strayItem {α : Type} : Production α := do
  let start ← current
  let bad ← reportHere
    (if start.kind = .illegal then .illegal start else .unexpectedAtFileScope start)
  moveCursor Cursor.next
  throw bad

/-- A top-level item; its first tokens tell which.  A broken item is skipped up to
the next keyword that opens a declaration. -/
def item : Step Item := do
  let start ← current
  let recovering (ofBad : BadNode → Item) (production : Production Item) : Step Item :=
    recoverWith (.toSet .declStart) start ofBad production
  let badDecl (bad : BadNode) : Item := .decl (.bad bad)
  match start.kind with
  | .constKw =>
      recovering (.const ∘ .bad) do
        return .const (.const (← valueDecl outer "constant name"))
  | .varKw => recovering badDecl do return .decl (← fileVariable outer)
  | .funcKw => recovering badDecl do return .decl (.func (← funcDecl outer))
  | .typeKw => recovering badDecl do return Item.ofTypeDecl (← typeDecl outer)
  | .ident =>
      if (← kindAt 1) = .implementsKw then
        recovering badDecl do return .implements (← implementsDecl)
      else recovering badDecl strayItem
  | _ => recovering badDecl strayItem

/-- One pass over the items of a file: a semicolon, or an item. -/
def itemPass (found : List Item) : Step (ForInStep (List Item)) := do
  let kind ← currentKind
  if kind = .eof then return .done found
  else if kind = .semicolon then
    let _ ← advance
    return .yield found
  else return .yield ((← item outer) :: found)

/-- The items up to the end of the file. -/
def items : Step (List Item) := do return (← repeatStep (itemPass outer) []).reverse

/-- A source file.  Without a package clause its header is made of absent tokens,
and the bad node of the clause is the first declaration. -/
def file : Step File := do
  match ← packageClause.run with
  | .ok (package, name) => return .ofItems package name (← items outer)
  | .error bad => return .ofItems .absent .absent (.decl (.bad bad) :: (← items outer))

end Grammar

/-- What was made of a list of tokens. -/
structure Parsed where
  file : File
  diagnostics : List Diagnostic

/-- Whether a diagnostic makes the file unusable. -/
def Parsed.hasErrors (parsed : Parsed) : Bool :=
  parsed.diagnostics.any Diagnostic.isError

/-- Reads a file from its tokens.  A mistake leaves a bad node in the tree and a
diagnostic, and the rest of the file is read nevertheless. -/
def parse (tokens : List Token) : Parsed :=
  let (file, state) := Grammar.file.run { cursor := .ofTokens tokens }
  ⟨file, state.diagnostics.toList⟩

/-- Reads a file from its text. -/
def Source.parse (source : String) : Parsed := OriSyntax.parse (Source.tokens source)

end OriSyntax
