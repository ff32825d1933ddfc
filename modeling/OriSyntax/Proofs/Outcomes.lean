import Mathlib.Logic.Relation
import OriSyntax.Proofs.Reading

/-!
Single runs of steps and productions.  Where a contract speaks of all states, these
rules follow one run from a state to the state behind it and say which value it gives.
A loop gives what its last pass hands on, once the passes before it are known.
-/

namespace OriSyntax.Grammar

variable {α β : Type} {start middle stop : State}

/-- The state with its cursor at another place. -/
def State.moveTo (state : State) (cursor : Cursor) : State := { state with cursor := cursor }

@[simp] theorem State.cursor_moveTo (state : State) (cursor : Cursor) :
    (state.moveTo cursor).cursor = cursor := rfl

@[simp] theorem State.nesting_moveTo (state : State) (cursor : Cursor) :
    (state.moveTo cursor).nesting = state.nesting := rfl

@[simp] theorem State.loopDepth_moveTo (state : State) (cursor : Cursor) :
    (state.moveTo cursor).loopDepth = state.loopDepth := rfl

@[simp] theorem State.moveTo_moveTo (state : State) (first second : Cursor) :
    (state.moveTo first).moveTo second = state.moveTo second := rfl

@[simp] theorem State.moveTo_cursor (state : State) : state.moveTo state.cursor = state := rfl

/-- The state one level deeper. -/
def State.deeper (state : State) : State := { state with nesting := state.nesting + 1 }

@[simp] theorem State.nesting_deeper (state : State) :
    state.deeper.nesting = state.nesting + 1 := rfl

@[simp] theorem State.loopDepth_deeper (state : State) :
    state.deeper.loopDepth = state.loopDepth := rfl

/-- From `start` the step gives `value` and leads to `stop`. -/
def Gives (step : Step α) (start : State) (value : α) (stop : State) : Prop :=
  step.run start = (value, stop)

/-- From `start` the production succeeds with `value` and leads to `stop`. -/
def Succeeds (production : Production α) (start : State) (value : α) (stop : State) : Prop :=
  Gives production.run start (.ok value) stop

namespace Gives

variable {step : Step α} {value : α}

protected theorem pure (value : α) (start : State) :
    Gives (pure value : Step α) start value start := rfl

protected theorem bind {next : α → Step β} {result : β}
    (hstep : Gives step start value middle) (hnext : Gives (next value) middle result stop) :
    Gives (step >>= next) start result stop := by
  change (next (step.run start).1).run (step.run start).2 = _
  rw [hstep]
  exact hnext

/-- Looking at the state gives what is seen and changes nothing. -/
theorem look {seen : State → α} {next : α → Step β} {result : β}
    (hseen : seen start = value) (hnext : Gives (next value) start result stop) :
    Gives ((do return seen (← get)) >>= next) start result stop := by
  rw [← hseen] at hnext
  exact hnext

section Branches

variable {condition : Prop} [Decidable condition] {other : Step α}

theorem of_pos (hcondition : condition) (hstep : Gives step start value stop) :
    Gives (if condition then step else other) start value stop := by
  rw [if_pos hcondition]
  exact hstep

theorem of_neg (hcondition : ¬ condition) (hother : Gives other start value stop) :
    Gives (if condition then step else other) start value stop := by
  rw [if_neg hcondition]
  exact hother

end Branches

end Gives

namespace Succeeds

variable {production : Production α} {value : α}

protected theorem pure (value : α) (start : State) :
    Succeeds (pure value : Production α) start value start := rfl

protected theorem bind {next : α → Production β} {result : β}
    (hproduction : Succeeds production start value middle)
    (hnext : Succeeds (next value) middle result stop) :
    Succeeds (production >>= next) start result stop := by
  rw [Succeeds, ExceptT.run_bind]
  exact Gives.bind hproduction hnext

/-- A step inside a production. -/
protected theorem lift {step : Step α} (hstep : Gives step start value stop) :
    Succeeds (liftM step : Production α) start value stop := by
  change ((.ok (step.run start).1 : Except BadNode α), (step.run start).2) = _
  rw [hstep]

/-- A last step, of which the value is made. -/
theorem map {made : α → β} (hproduction : Succeeds production start value stop) :
    Succeeds (do return made (← production)) start (made value) stop :=
  hproduction.bind (.pure _ _)

/-- Looking at the state gives what is seen and changes nothing. -/
theorem look {seen : State → α} {next : α → Production β} {result : β}
    (hseen : seen start = value) (hnext : Succeeds (next value) start result stop) :
    Succeeds (liftM (do return seen (← get) : Step α) >>= next) start result stop := by
  rw [← hseen] at hnext
  exact hnext

section Branches

variable {condition : Prop} [Decidable condition] {other : Production α}

theorem of_pos (hcondition : condition) (hproduction : Succeeds production start value stop) :
    Succeeds (if condition then production else other) start value stop := by
  rw [if_pos hcondition]
  exact hproduction

theorem of_neg (hcondition : ¬ condition) (hother : Succeeds other start value stop) :
    Succeeds (if condition then production else other) start value stop := by
  rw [if_neg hcondition]
  exact hother

end Branches

protected theorem onFailure {repair : BadNode → Step BadNode}
    (hproduction : Succeeds production start value stop) :
    Succeeds (onFailure production repair) start value stop :=
  Gives.bind hproduction (.pure _ _)

/-- A production between two changes of the state. -/
protected theorem between {enter leave : State → State}
    (hproduction : Succeeds production (enter start) value middle)
    (hleave : leave middle = stop) :
    Succeeds (between enter leave production) start value stop := by
  change ((production.run.run (enter start)).1, leave (production.run.run (enter start)).2) = _
  rw [hproduction, hleave]

/-- One level deeper there is room for the production. -/
protected theorem descend {cursor last : Cursor} (hroom : start.nesting < maxNesting)
    (hproduction : Succeeds production (start.deeper.moveTo cursor) value
      (start.deeper.moveTo last)) :
    Succeeds (descend production) (start.moveTo cursor) value (start.moveTo last) := by
  change Succeeds (if start.nesting ≥ maxNesting then failTooDeep
    else between State.deeper (fun state => { state with nesting := state.nesting - 1 })
      production) (start.moveTo cursor) value (start.moveTo last)
  apply Succeeds.of_neg (Nat.not_le.2 hroom)
  exact Succeeds.between hproduction rfl

end Succeeds

theorem Gives.recoverWith {rule : Skip.Rule} {first : Token} {ofBad : BadNode → α}
    {production : Production α} {value : α} (hproduction : Succeeds production start value stop) :
    Gives (recoverWith rule first ofBad production) start value stop :=
  Gives.bind hproduction (.pure _ _)

/-- A pass over what was gathered here leads to another pass there. -/
def Round (pass : β → Step (ForInStep β)) (here there : β × State) : Prop :=
  Gives (pass here.1) here.2 (.yield there.1) there.2

/-- A pass that may fail succeeds here and leads to another pass there. -/
def RoundOrFails (pass : β → Production (ForInStep β)) (here there : β × State) : Prop :=
  Succeeds (pass here.1) here.2 (.yield there.1) there.2

/-- A pass that leads to another one has read something. -/
theorem Round.remaining_lt {pass : β → Step (ForInStep β)} (hgains : Gains pass)
    {here there : β × State} (hround : Round pass here there) :
    there.2.cursor.remaining < here.2.cursor.remaining := by
  have hturn := hgains here.1 here.2.cursor.remaining here.2 (Nat.le_refl _)
  rw [hround] at hturn
  exact hturn

theorem RoundOrFails.remaining_lt {pass : β → Production (ForInStep β)}
    (hgains : GainsOrFails pass) {here there : β × State}
    (hround : RoundOrFails pass here there) :
    there.2.cursor.remaining < here.2.cursor.remaining := by
  have hturn := hgains here.1 here.2.cursor.remaining here.2 (Nat.le_refl _)
  rw [hround] at hturn
  exact hturn

/-- A loop gives what its last pass gives, whatever bound above the tokens left limits the
number of its passes. -/
theorem Gives.passes {pass : β → Step (ForInStep β)} (hgains : Gains pass)
    {first last result : β} {bound : Nat}
    (hrounds : Relation.ReflTransGen (Round pass) (first, start) (last, middle))
    (hdone : Gives (pass last) middle (.done result) stop)
    (hbound : start.cursor.remaining < bound) :
    Gives (passes pass bound first) start result stop := by
  -- The rounds are followed from the first one on; each leaves enough of the bound.
  generalize hhere : (first, start) = here at hrounds
  induction hrounds using Relation.ReflTransGen.head_induction_on
    generalizing first start bound with
  | refl =>
      obtain ⟨rfl, rfl⟩ := Prod.mk.inj hhere
      obtain ⟨bound, rfl⟩ := Nat.exists_eq_succ_of_ne_zero (Nat.ne_zero_of_lt hbound)
      exact Gives.bind hdone (.pure _ _)
  | @head here there hround _ ih =>
      obtain ⟨rfl, rfl⟩ := hhere
      obtain ⟨bound, rfl⟩ := Nat.exists_eq_succ_of_ne_zero (Nat.ne_zero_of_lt hbound)
      have hless := hround.remaining_lt hgains
      exact Gives.bind hround (ih (by simp only at hless; omega) rfl)

theorem Gives.repeatStep {pass : β → Step (ForInStep β)} (hgains : Gains pass)
    {first last result : β}
    (hrounds : Relation.ReflTransGen (Round pass) (first, start) (last, middle))
    (hdone : Gives (pass last) middle (.done result) stop) :
    Gives (repeatStep pass first) start result stop :=
  Gives.passes hgains hrounds hdone (Nat.lt_succ_self _)

/-- A loop that may fail does what its last pass does. -/
theorem Gives.run_passes {pass : β → Production (ForInStep β)} (hgains : GainsOrFails pass)
    {first last : β} {outcome : Except BadNode β} {bound : Nat}
    (hrounds : Relation.ReflTransGen (RoundOrFails pass) (first, start) (last, middle))
    (hlast : Gives (pass last).run middle (outcome.map .done) stop)
    (hbound : start.cursor.remaining < bound) :
    Gives (Grammar.passes pass bound first).run start outcome stop := by
  generalize hhere : (first, start) = here at hrounds
  induction hrounds using Relation.ReflTransGen.head_induction_on
    generalizing first start bound with
  | refl =>
      obtain ⟨rfl, rfl⟩ := Prod.mk.inj hhere
      obtain ⟨bound, rfl⟩ := Nat.exists_eq_succ_of_ne_zero (Nat.ne_zero_of_lt hbound)
      rw [Grammar.passes, ExceptT.run_bind]
      cases outcome <;> exact Gives.bind hlast (.pure _ _)
  | @head here there hround _ ih =>
      obtain ⟨rfl, rfl⟩ := hhere
      obtain ⟨bound, rfl⟩ := Nat.exists_eq_succ_of_ne_zero (Nat.ne_zero_of_lt hbound)
      have hless := hround.remaining_lt hgains
      rw [Grammar.passes, ExceptT.run_bind]
      exact Gives.bind hround (ih (by simp only at hless; omega) rfl)

theorem Succeeds.repeatProduction {pass : β → Production (ForInStep β)}
    (hgains : GainsOrFails pass) {first last result : β}
    (hrounds : Relation.ReflTransGen (RoundOrFails pass) (first, start) (last, middle))
    (hdone : Succeeds (pass last) middle (.done result) stop) :
    Succeeds (repeatProduction pass first) start result stop :=
  Gives.run_passes hgains hrounds hdone (Nat.lt_succ_self _)

end OriSyntax.Grammar
