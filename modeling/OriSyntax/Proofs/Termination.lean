import OriSyntax.Proofs.Agreement
import OriSyntax.Proofs.Lossless

/-!
Reading a file ends by itself.  Two bounds are written into the grammar: one on the passes
of a loop and one on the levels of productions inside each other.  Neither of them ends
anything.  Each pass of a loop reads a token or leaves the loop, so there are fewer passes
than tokens; and where the levels are used up, the limit on nesting has been reached before.
-/

namespace OriSyntax

namespace Grammar

variable {α β : Type} {nested : Nested}

/-- At least one token is read on the way from `here` to `there`. -/
def State.Advances (here there : State) : Prop :=
  ∃ token run, here.cursor.Reads (token :: run) there.cursor

theorem State.Follows.advances {here there : State} (hfollows : here.Follows there)
    (hless : there.cursor.remaining < here.cursor.remaining) : here.Advances there := by
  obtain ⟨run, hrun⟩ := hfollows.reads
  cases run with
  | nil =>
      have hstays := hrun.remaining
      simp only [List.length_nil] at hstays
      omega
  | cons token run => exact ⟨token, run, hrun⟩

/-- A loop that ends.  Every pass that leads to another one reads a token.  From each state
some pass is the last one, and the loop does what that pass does, whatever number above that
of the tokens left bounds its passes. -/
structure StepTerminates (pass : β → Step (ForInStep β)) : Prop where
  advances : ∀ {here there : β × State}, Round pass here there → here.2.Advances there.2
  leaves : ∀ (first : β) (start : State), ∃ last result stop,
    Relation.ReflTransGen (Round pass) (first, start) last ∧
      Gives (pass last.1) last.2 (.done result) stop ∧
      Gives (repeatStep pass first) start result stop ∧
      ∀ bound, start.cursor.remaining < bound → Gives (passes pass bound first) start result stop

/-- A loop that ends, though its passes may fail.  The last pass is done or has failed. -/
structure ProductionTerminates (pass : β → Production (ForInStep β)) : Prop where
  advances : ∀ {here there : β × State}, RoundOrFails pass here there → here.2.Advances there.2
  leaves : ∀ (first : β) (start : State), ∃ last outcome stop,
    Relation.ReflTransGen (RoundOrFails pass) (first, start) last ∧
      Gives (pass last.1).run last.2 (outcome.map .done) stop ∧
      Gives (repeatProduction pass first).run start outcome stop ∧
      ∀ bound, start.cursor.remaining < bound →
        Gives (passes pass bound first).run start outcome stop

/-- Since passes use up the tokens, one of them is the last. -/
theorem exists_last_pass {pass : β → Step (ForInStep β)} (hgains : Gains pass) (first : β)
    (start : State) : ∃ last result stop,
      Relation.ReflTransGen (Round pass) (first, start) last ∧
        Gives (pass last.1) last.2 (.done result) stop := by
  induction hremaining : start.cursor.remaining using Nat.strong_induction_on
    generalizing first start with
  | h remaining ih =>
      cases hturn : (pass first).run start with
      | mk turn middle =>
          cases turn with
          | done result => exact ⟨(first, start), result, middle, .refl, hturn⟩
          | yield found =>
              have hround : Round pass (first, start) (found, middle) := hturn
              have hless := hround.remaining_lt hgains
              obtain ⟨last, result, stop, hrounds, hdone⟩ :=
                ih _ (hremaining ▸ hless) found middle rfl
              exact ⟨last, result, stop, .head hround hrounds, hdone⟩

theorem exists_last_pass_run {pass : β → Production (ForInStep β)} (hgains : GainsOrFails pass)
    (first : β) (start : State) : ∃ (last : β × State) (outcome : Except BadNode β) (stop : State),
      Relation.ReflTransGen (RoundOrFails pass) (first, start) last ∧
        Gives (pass last.1).run last.2 (outcome.map .done) stop := by
  induction hremaining : start.cursor.remaining using Nat.strong_induction_on
    generalizing first start with
  | h remaining ih =>
      cases hturn : (pass first).run.run start with
      | mk turn middle =>
          match turn with
          | .error bad => exact ⟨(first, start), .error bad, middle, .refl, hturn⟩
          | .ok (.done result) => exact ⟨(first, start), .ok result, middle, .refl, hturn⟩
          | .ok (.yield found) =>
              have hround : RoundOrFails pass (first, start) (found, middle) := hturn
              have hless := hround.remaining_lt hgains
              obtain ⟨last, outcome, stop, hrounds, hlast⟩ :=
                ih _ (hremaining ▸ hless) found middle rfl
              exact ⟨last, outcome, stop, .head hround hrounds, hlast⟩

theorem StepTerminates.of_gains {pass : β → Step (ForInStep β)}
    (hpass : ∀ found, Orderly (pass found)) (hgains : Gains pass) : StepTerminates pass where
  advances := by
    intro here there hround
    have hfollows := hpass here.1 here.2
    rw [hround] at hfollows
    exact hfollows.advances (hround.remaining_lt hgains)
  leaves first start := by
    obtain ⟨last, result, stop, hrounds, hdone⟩ := exists_last_pass hgains first start
    refine ⟨last, result, stop, hrounds, hdone, hdone.repeatStep hgains hrounds, ?_⟩
    exact fun bound hbound => Gives.passes hgains hrounds hdone hbound

theorem ProductionTerminates.of_gains {pass : β → Production (ForInStep β)}
    (hpass : ∀ found, Orderly (pass found).run) (hgains : GainsOrFails pass) :
    ProductionTerminates pass where
  advances := by
    intro here there hround
    have hfollows := hpass here.1 here.2
    rw [hround] at hfollows
    exact hfollows.advances (hround.remaining_lt hgains)
  leaves first start := by
    obtain ⟨last, outcome, stop, hrounds, hlast⟩ := exists_last_pass_run hgains first start
    have hpasses (bound : Nat) (hbound : start.cursor.remaining < bound) :
        Gives (passes pass bound first).run start outcome stop :=
      Gives.run_passes hgains hrounds hlast hbound
    exact ⟨last, outcome, stop, hrounds, hlast, hpasses _ (Nat.lt_succ_self _), hpasses⟩

/-- All loops of the grammar end, if the productions inside them are those of `nested`. -/
structure LoopsTerminate (nested : Nested) : Prop where
  /-- The items of a file. -/
  items : StepTerminates itemPass
  /-- The statements of a body or a clause. -/
  stmts : ∀ stops, StepTerminates (stmtPass nested stops)
  /-- The clauses of a switch. -/
  clauses : StepTerminates (casePass nested)
  /-- The values of a `return` or a `case`. -/
  values : StepTerminates (exprListPass nested)
  /-- Operators and suffixes behind an operand. -/
  operators : ∀ least, StepTerminates (exprPass nested least)
  arguments : ProductionTerminates (commaPass "argument" (nested.expr .lowest))
  params : ∀ named, ProductionTerminates (commaPass "parameter" (param named))
  fields : ProductionTerminates (memberPass (field nested))
  methods : ProductionTerminates (memberPass interfaceMember)
  enumVariants : ProductionTerminates (memberPass (expectName "enum variant"))
  sumVariants : ProductionTerminates (memberPass sumVariant)

theorem loopsTerminate (hnested : nested.Orderly) : LoopsTerminate nested := by
  have hlist {α : Type} {noun : String} {entry : Production α} (hentry : Orderly entry.run) :
      ProductionTerminates (commaPass noun entry) :=
    .of_gains (commaPass_orderly noun hentry) (commaPass_gains noun hentry)
  have hmembers {α : Type} {member : Production α} (hmember : ConsumesOrFails member) :
      ProductionTerminates (memberPass member) :=
    .of_gains (memberPass_orderly hmember.orderly) (memberPass_gains hmember)
  exact {
    items := .of_gains itemPass_orderly itemPass_gains
    stmts := fun stops => .of_gains (stmtPass_orderly hnested stops) (stmtPass_gains hnested stops)
    clauses := .of_gains (casePass_orderly hnested) (casePass_gains hnested)
    values := .of_gains (exprListPass_orderly hnested) (exprListPass_gains hnested)
    operators := fun least =>
      .of_gains (exprPass_orderly hnested least) (exprPass_gains hnested least)
    arguments := hlist (hnested.expr _)
    params := fun named => hlist (param_orderly named)
    fields := hmembers (field_consumesOrFails hnested)
    methods := hmembers interfaceMember_consumesOrFails
    enumVariants := hmembers (expectName_consumesOrFails _)
    sumVariants := hmembers sumVariant_consumesOrFails }

end Grammar

open Grammar

/-- Reading ends at the end of the file, with every loop left by a pass of its own, and
more levels than `maxNesting` would change nothing. -/
theorem parse_terminates (tokens : List Token) :
    (∃ stop : State, Gives file (initialState tokens) (parse tokens).file stop ∧
      stop.cursor.current = (Cursor.ofTokens tokens).eof ∧ stop.cursor.remaining = 0) ∧
    (∀ levels, LoopsTerminate (nested levels)) ∧
    ∀ extra, outermost.Agrees (.calling 0) (nested (maxNesting + extra)) := by
  refine ⟨⟨(file.run (initialState tokens)).2, rfl, ?_⟩, fun levels => ?_, fun extra => ?_⟩
  · obtain ⟨-, hend⟩ := file_meets (initialState tokens) _ rfl
    have hahead := Cursor.kind_eq_eof_iff.1 hend
    obtain ⟨run, hrun⟩ := (file_orderly (initialState tokens)).reads
    constructor
    · rw [Cursor.current, hahead]
      exact hrun.eof
    · rw [Cursor.remaining_eq, hahead]
      rfl
  · exact loopsTerminate (nested_orderly levels)
  · exact nested_agrees (Nat.zero_add maxNesting) extra

end OriSyntax
