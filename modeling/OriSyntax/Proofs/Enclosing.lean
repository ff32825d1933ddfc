import OriSyntax.Proofs.Failing
import OriSyntax.Proofs.Rejoining

/-!
What encloses a list of statements.  While a list is read, the statements around it, the
function and the file wait to be completed: each layer says how it goes on once the list inside
it is there.  The run over a file is what is left of the list, plugged into what encloses it.
-/

namespace OriSyntax.Grammar

variable {α : Type} {nested : Nested} {list list' : Step (List Stmt)} {here there : State}

/-- What is left of a production between two changes of the state once it has begun. -/
def leaving (leave : State → State) (production : Production α) : Production α :=
  between id leave production

/-- The state one level further out. -/
def State.shallower (state : State) : State := { state with nesting := state.nesting - 1 }

/-- The state outside the body of a loop. -/
def State.outOfLoop (state : State) : State := { state with loopDepth := state.loopDepth - 1 }

/-- The state outside a function before which this many loops were counted. -/
def State.outOfBody (outside : Nat) (state : State) : State := { state with loopDepth := outside }

/-- The header of a loop. -/
inductive LoopHead where
  | clauses (first : Option Stmt) (condition : Option Expr) (after : Option Stmt)
  | range (key value : Option Expr) (op : Option Token) (rangeKeyword : Token) (subject : Expr)

/-- The loop with this header. -/
def LoopHead.loop (keyword : Token) (body : Block) : LoopHead → Stmt
  | clauses first condition after => .forLoop keyword first condition after body
  | range key value op rangeKeyword subject =>
      .rangeLoop keyword key value op rangeKeyword subject body

/-- The header of a switch, its clauses before the last one, the last one first, and what comes
before the statements of that one. -/
structure ClauseHead where
  keyword : Token
  first : Option Stmt
  tag : Option Expr
  opening : Token
  earlier : List Stmt
  label : Token
  values : List Expr
  colon : Token

/-- A statement that was read up to and into a list of statements in it. -/
inductive Layer where
  | block (opening : Token)
  | ifBody (keyword : Token) (condition : Expr) (opening : Token)
  | elseBody (keyword : Token) (condition : Expr) (body : Block) (opening : Token)
  /-- The list is in the `if` behind an `else`. -/
  | elseIf (keyword : Token) (condition : Expr) (body : Block) (inner : Layer)
  | loop (keyword : Token) (head : LoopHead) (opening : Token)
  | clause (head : ClauseHead)

/-- What ends the list. -/
def Layer.stops : Layer → Kind → Bool
  | elseIf _ _ _ inner => inner.stops
  | clause _ => (· ∈ [.caseKw, .defaultKw, .rbrace])
  | _ => (· = .rbrace)

/-- Number of levels between the statement and the list, beyond that of the statement. -/
def Layer.depth : Layer → Nat
  | elseIf _ _ _ inner => inner.depth + 1
  | _ => 0

/-- What is left of a clause that begins with `start` once all of it is read: of the clauses
`earlier` and this one only one may be a `default`. -/
def checkClause (earlier : List Stmt) (start : Token) (clause : Stmt) : Step Stmt := do
  if isDefaultClause clause && earlier.any isDefaultClause then
    return .bad (← report (.repeatedDefault start) start clause.last)
  else return clause

/-- What is left of the clauses of a switch, of which one is left from its statements on. -/
def ClauseHead.rest (nested : Nested) (list : Step (List Stmt)) (head : ClauseHead) :
    Step (List Stmt) := do
  let clause := .clause head.label head.values head.colon (← list)
  let stmt ← checkClause head.earlier head.label clause
  return (← repeatStep (casePass nested) (stmt :: head.earlier)).reverse

/-- What is left of the statement, of which a list is left. -/
def Layer.rest (nested : Nested) (list : Step (List Stmt)) : Layer → Production Stmt
  | block opening => do return .block (← restOfBlock opening list)
  | ifBody keyword condition opening => do
      let body ← restOfBlock opening list
      return .ifElse keyword condition body (← elseBranch nested)
  | elseBody keyword condition body opening => do
      return .ifElse keyword condition body (some (.block (← restOfBlock opening list)))
  | elseIf keyword condition body inner => do
      return .ifElse keyword condition body
        (some (← leaving State.shallower (inner.rest nested list)))
  | loop keyword head opening =>
      covering keyword (skipping .compound do
        return head.loop keyword (← leaving State.outOfLoop (restOfBlock opening list)))
  | clause head =>
      covering head.keyword (skipping .compound do
        let cases ← head.rest nested list
        let closing ← covering head.keyword (expect .rbrace "'\x7d'")
        return .switch head.keyword head.first head.tag ⟨head.opening, cases, closing⟩)

/-- A function that was read up to and into its body, in a file with a package clause and items
before it, the last one first. -/
structure FunctionHead where
  package : Except BadNode (Token × Token)
  found : List Item
  keyword : Token
  name : Token
  params : Except BadNode ParamList
  results : Except BadNode (Option Results)
  opening : Token
  outside : Nat

/-- The file of a package clause, read or not, and its items. -/
def fileOf (package : Except BadNode (Token × Token)) (items : List Item) : File :=
  match package with
  | .ok (package, name) => .ofItems package name items
  | .error bad => .ofItems .absent .absent (.decl (.bad bad) :: items)

/-- What is left of the function. -/
def FunctionHead.decl (list : Step (List Stmt)) (head : FunctionHead) : Production FuncDecl := do
  let body ← attempt (leaving (.outOfBody head.outside) (restOfBlock head.opening list))
  let params ← covering head.keyword (settle head.params)
  return ⟨head.keyword, head.name, params, ← settle head.results, ← settle body⟩

/-- What is left of the file. -/
def FunctionHead.rest (list : Step (List Stmt)) (head : FunctionHead) : Step File := do
  let item ← recoverWith (.toSet .declStart) head.keyword (fun bad => Item.decl (.bad bad)) do
    return .decl (.func (← head.decl list))
  return fileOf head.package (← repeatStep itemPass (item :: head.found)).reverse

theorem file_eq : file = (do
    let package ← packageClause.run
    return fileOf package (← items)) := by
  refine bind_congr fun package => ?_
  cases package <;> rfl

/-- What encloses a list of statements: the layers up to the body of a function.  In each list
on the way some statements were found, the last one first, and then the first token of the next
one. -/
inductive Enclosing where
  | function (head : FunctionHead)
  | stmt (outer : Enclosing) (found : List Stmt) (first : Token) (layer : Layer)

theorem leaving_run (leave : State → State) (production : Production α) (start : State) :
    (leaving leave production).run.run start =
      ((production.run.run start).1, leave (production.run.run start).2) := rfl

/-- The list is read first. -/
theorem Layer.rest_run (layer : Layer) (here : State) :
    (layer.rest nested list).run.run here =
      (layer.rest nested (pure (list.run here).1)).run.run (list.run here).2 := by
  induction layer with
  | elseIf keyword condition body inner ih =>
      rw [rest, ExceptT.run_bind, StateT.run_bind, leaving_run, ih]
      rfl
  | _ => rfl

namespace Enclosing

/-- What ends the list. -/
def stops : Enclosing → Kind → Bool
  | function _ => (· = .rbrace)
  | stmt _ _ _ layer => layer.stops

/-- The rest of the run over a file once `list` has given the list that is enclosed, which has
`levels` levels inside it. -/
def plug : Enclosing → Nat → Step (List Stmt) → Step File
  | function head, _, list => head.rest list
  | stmt outer found first layer, levels, list =>
      outer.plug (levels + layer.depth + 1) do
        let stmt ← recoverWith .statement first Stmt.bad
          (leaving State.shallower (layer.rest (Grammar.nested levels) list))
        restOfStmts (Grammar.nested (levels + layer.depth + 1)) outer.stops (stmt :: found)

/-- The run over the tokens goes on from `here` in a list of statements in which some were
found, the last one first. -/
def Reaches (context : Enclosing) (levels : Nat) (tokens : List Token) (found : List Stmt)
    (here : State) : Prop :=
  file.run (initialState tokens) =
    (context.plug levels (restOfStmts (Grammar.nested levels) context.stops found)).run here

/-- The list is read first. -/
theorem plug_run (context : Enclosing) (levels : Nat) (list : Step (List Stmt)) (here : State) :
    (context.plug levels list).run here =
      (context.plug levels (pure (list.run here).1)).run (list.run here).2 := by
  induction context generalizing levels list here with
  | function head => rfl
  | stmt outer found first layer ih =>
      rw [plug, plug, ih, ih _ _ (list.run here).2]
      have hrest : (layer.rest (Grammar.nested levels) list).run.run here = _ :=
        layer.rest_run here
      simp only [StateT.run_bind, recoverWith, leaving_run, hrest]

theorem plug_congr (context : Enclosing) (levels : Nat) (hlist : list.run here = list'.run there) :
    (context.plug levels list).run here = (context.plug levels list').run there := by
  rw [plug_run, hlist, ← plug_run]

variable {context : Enclosing} {levels : Nat} {tokens : List Token} {found : List Stmt}

namespace Reaches

/-- The list goes on behind a pass over it. -/
theorem round {next : List Stmt} (hreaches : context.Reaches levels tokens found here)
    (hround : Round (stmtPass (Grammar.nested levels) context.stops) (found, here) (next, there)) :
    context.Reaches levels tokens next there :=
  Eq.trans hreaches (context.plug_congr levels (restOfStmts_run_of_round hround))

theorem parse_eq (hreaches : context.Reaches levels tokens found here) :
    parse tokens =
      let (file, stop) := (context.plug levels
        (restOfStmts (Grammar.nested levels) context.stops found)).run here
      ⟨file, stop.diagnostics.toList⟩ := by
  rw [← hreaches]
  rfl

end Reaches

end Enclosing

end OriSyntax.Grammar
