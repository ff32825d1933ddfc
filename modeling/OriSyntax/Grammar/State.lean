import OriSyntax.Cursor.Skip
import OriSyntax.Diagnostic
import OriSyntax.Precedence
import OriSyntax.Tree.Extent

/-!
What a production of the grammar works on, and the steps of which productions are
made: reading tokens, reporting mistakes and recovering from them.

A production that fails has reported why, and hands on a bad node.  Every bad node
comes from `report`, so behind each one there is a diagnostic with its reason.
-/

namespace OriSyntax.Grammar

/-- No more expressions and statements than this are nested in each other. -/
def maxNesting : Nat := 1000

/-- Where the reading of a file stands. -/
structure State where
  cursor : Cursor
  /-- Number of loops whose bodies enclose this place. -/
  loopDepth : Nat := 0
  /-- Number of expressions and statements that enclose this place. -/
  nesting : Nat := 0
  /-- What was reported so far. -/
  diagnostics : Array Diagnostic := #[]
deriving DecidableEq

/-- A step that always has an outcome. -/
abbrev Step := StateM State

/-- A step that may fail with a bad node. -/
abbrev Production := ExceptT BadNode Step

/-! ### Reading -/

/-- The token to be read next. -/
def current : Step Token := do return (← get).cursor.current

/-- The kind of the token to be read next. -/
def currentKind : Step Kind := do return (← get).cursor.kind

/-- The kind of the token `offset` places past the next one. -/
def kindAt (offset : Nat) : Step Kind := do return (← get).cursor.kindAt offset

/-- Whether the next token opens a line. -/
def opensLine : Step Bool := do return (← get).cursor.opensLine

/-- Whether `kind` occurs before the next opening brace. -/
def headerContains (kind : Kind) : Step Bool := do
  return (← get).cursor.headerContains kind

/-- Applies `move` to the cursor. -/
def moveCursor (move : Cursor → Cursor) : Step Unit :=
  modify fun state => { state with cursor := move state.cursor }

/-- Reads the next token. -/
def advance : Step Token := do
  let token ← current
  moveCursor Cursor.next
  return token

/-- Reads the next token if it is of the given kind. -/
def accept? (kind : Kind) : Step (Option Token) := do
  if (← currentKind) = kind then return some (← advance) else return none

/-- Reads past what a rule skips. -/
def skip (rule : Skip.Rule) : Step Unit := moveCursor (Cursor.skip rule)

/-- Reads past the next token unless its kind is needed by what comes. -/
def stepOverUnless (needed : Kind → Bool) : Step Unit := do
  if needed (← currentKind) then return () else moveCursor Cursor.next

/-- Reads past a token that was not expected, unless recovery needs to see it: a
kind that closes something, an opening brace, or a reserved word, with which the
next statement or declaration may begin. -/
def skipUnexpected : Step Unit :=
  stepOverUnless fun kind => kind.isClosing || kind.isKeyword || kind = .lbrace

/-! ### Reporting -/

/-- Records a diagnostic and makes the bad node that goes with it. -/
def report (diagnostic : Diagnostic) (first last : Token) : Step BadNode := do
  modify fun state =>
    { state with diagnostics := state.diagnostics.push diagnostic }
  return ⟨first, last, diagnostic.message⟩

/-- Records a diagnostic at the next token, without reading it. -/
def reportHere (diagnostic : Diagnostic) : Step BadNode := do
  let here ← current
  report diagnostic here here

/-- Fails with a diagnostic and the tokens it is about. -/
def fail {α : Type} (diagnostic : Diagnostic) (first last : Token) : Production α := do
  throw (← report diagnostic first last)

/-- Fails with a diagnostic about the next token, without reading it. -/
def failHere {α : Type} (diagnostic : Diagnostic) : Production α := do
  throw (← reportHere diagnostic)

/-- Something else was expected here.  If the next token is illegal, that is the
mistake to report. -/
def expectedHere (code : ErrorCode) (what : String) : Step Diagnostic := do
  let got ← current
  return if got.kind = .illegal then .illegal got else .expected code what got

/-- Reads a token of the given kind.  Any other token is reported, and read past
unless recovery needs it. -/
def expectAs (code : ErrorCode) (kind : Kind) (what : String) : Production Token := do
  if (← currentKind) = kind then advance
  else
    let bad ← reportHere (← expectedHere code what)
    skipUnexpected
    throw bad

/-- Reads a delimiter, a separator or a reserved word. -/
def expect (kind : Kind) (what : String) : Production Token :=
  expectAs .unexpectedToken kind what

/-- Reads a name. -/
def expectName (what : String) : Production Token :=
  expectAs .missingName .ident what

/-! ### Recovering -/

/-- The later of two tokens, the first if they stand in one place. -/
def laterToken (first second : Token) : Token :=
  if first.position < second.position then second else first

/-- Stretches a bad node: it begins at `first` and ends no earlier than the token
read last. -/
def cover (first : Token) (bad : BadNode) : Step BadNode := do
  let previous := (← get).cursor.previous
  return ⟨first, laterToken (laterToken bad.last previous) first, bad.reason⟩

/-- Changes the bad node with which a production fails. -/
def onFailure {α : Type} (production : Production α)
    (repair : BadNode → Step BadNode) : Production α :=
  ExceptT.mk do
    match ← production.run with
    | .ok value => return .ok value
    | .error bad => return .error (← repair bad)

/-- Runs a production and hands on its failure as a value. -/
def attempt {α : Type} (production : Production α) : Production (Except BadNode α) :=
  ExceptT.lift production.run

/-- Succeeds or fails as an earlier attempt did. -/
def settle {α : Type} (outcome : Except BadNode α) : Production α :=
  ExceptT.mk (pure outcome)

/-- If a production fails, its bad node is stretched from `first` on. -/
def covering {α : Type} (first : Token) (production : Production α) : Production α :=
  onFailure production (cover first)

/-- If a production fails, the rest of its construct is skipped by a rule. -/
def skipping {α : Type} (rule : Skip.Rule) (production : Production α) : Production α :=
  onFailure production fun bad => do
    skip rule
    return bad

/-- Goes on after a failure: skips by a rule, then makes an outcome of the bad node
stretched from `first` on. -/
def recoverWith {α : Type} (rule : Skip.Rule) (first : Token) (ofBad : BadNode → α)
    (production : Production α) : Step α := do
  match ← production.run with
  | .ok value => return value
  | .error bad =>
      skip rule
      return ofBad (← cover first bad)

/-! ### Contexts and repetition -/

/-- Runs a production unless a token of the given kind tells that it is left out. -/
def unlessAt {α : Type} (kind : Kind) (production : Production α) :
    Production (Option α) := do
  if (← currentKind) = kind then return none else return some (← production)

/-- Runs a production between two changes of the state; the second one is made
whether it fails or not. -/
def between {α : Type} (enter leave : State → State) (production : Production α) :
    Production α :=
  ExceptT.mk do
    modify enter
    let outcome ← production.run
    modify leave
    return outcome

/-- Runs a production in the body of one more loop. -/
def insideLoop {α : Type} (production : Production α) : Production α :=
  between (fun state => { state with loopDepth := state.loopDepth + 1 })
    (fun state => { state with loopDepth := state.loopDepth - 1 }) production

/-- Runs a production that no loop around it encloses. -/
def outsideLoops {α : Type} (production : Production α) : Production α := do
  let outside := (← get).loopDepth
  between (fun state => { state with loopDepth := 0 })
    (fun state => { state with loopDepth := outside }) production

/-- Fails because too much is nested at the next token. -/
def failTooDeep {α : Type} : Production α := do
  failHere (.nestingTooDeep maxNesting (← current))

/-- Runs a production one level deeper.  Beyond the last level it is not run at
all. -/
def descend {α : Type} (production : Production α) : Production α := do
  if (← get).nesting ≥ maxNesting then failTooDeep
  else
    between (fun state => { state with nesting := state.nesting + 1 })
      (fun state => { state with nesting := state.nesting - 1 }) production

/-- Runs `pass` on what it has gathered until it is done, at most `bound` times. -/
def passes {m : Type → Type} [Monad m] {β : Type} (pass : β → m (ForInStep β)) :
    Nat → β → m β
  | 0, gathered => pure gathered
  | bound + 1, gathered => do
      match ← pass gathered with
      | .done result => pure result
      | .yield gathered => passes pass bound gathered

/-- A number of passes that is never reached by a pass that reads a token whenever
it is not the last one. -/
def passBound : Step Nat := do return (← get).cursor.remaining + 1

/-- Repeats a pass that always has an outcome. -/
def repeatStep {β : Type} (pass : β → Step (ForInStep β)) (gathered : β) : Step β := do
  passes pass (← passBound) gathered

/-- Repeats a pass until it is done or fails. -/
def repeatProduction {β : Type} (pass : β → Production (ForInStep β)) (gathered : β) :
    Production β := do
  passes pass (← passBound) gathered

/-- The productions that a construct may hold inside itself, one level deeper. -/
structure Nested where
  expr : Precedence → Step Expr
  stmt : Step Stmt
  ifElse : Production Stmt

end OriSyntax.Grammar
