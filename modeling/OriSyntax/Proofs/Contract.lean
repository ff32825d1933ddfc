import OriSyntax.Grammar.State

/-!
Contracts of steps and productions: what holds of the state before, and of the
outcome and the state behind.  A production has two ends, and a contract says
something about each.  The rules follow the way steps are put together, so that the
contract of a construct is read off the contracts of its parts.
-/

namespace OriSyntax.Grammar

variable {α β : Type} {pre : State → Prop}

/-- From every state in which `pre` holds, the step ends with an outcome and in a
state of which `post` holds. -/
def Meets (pre : State → Prop) (step : Step α) (post : α → State → Prop) : Prop :=
  ∀ state, pre state → post (step.run state).1 (step.run state).2

/-- What holds behind a production, whichever way it ended. -/
def Ends (succeeded : α → State → Prop) (failed : BadNode → State → Prop) :
    Except BadNode α → State → Prop
  | .ok value => succeeded value
  | .error bad => failed bad

/-- From every state in which `pre` holds, the production succeeds with a value for
which `succeeded` holds, or fails with a bad node for which `failed` holds. -/
def Yields (pre : State → Prop) (production : Production α)
    (succeeded : α → State → Prop) (failed : BadNode → State → Prop) : Prop :=
  Meets pre production.run (Ends succeeded failed)

namespace Meets

variable {step : Step α} {post : α → State → Prop}

theorem mono {pre' : State → Prop} {post' : α → State → Prop}
    (hstep : Meets pre step post) (hpre : ∀ state, pre' state → pre state)
    (hpost : ∀ value state, post value state → post' value state) :
    Meets pre' step post' :=
  fun state hstate => hpost _ _ (hstep state (hpre state hstate))

theorem weaken {post' : α → State → Prop} (hstep : Meets pre step post)
    (hpost : ∀ value state, post value state → post' value state) :
    Meets pre step post' :=
  hstep.mono (fun _ hstate => hstate) hpost

theorem strengthen {pre' : State → Prop} (hstep : Meets pre step post)
    (hpre : ∀ state, pre' state → pre state) : Meets pre' step post :=
  hstep.mono hpre fun _ _ hvalue => hvalue

theorem top : Meets pre step fun _ _ => True := fun _ _ => trivial

/-- A contract may be shown for one state at a time. -/
theorem of_each (hstep : ∀ start, pre start → Meets (· = start) step post) :
    Meets pre step post :=
  fun state hstate => hstep state hstate state rfl

/-- What does not depend on the state may be known beforehand. -/
theorem of_known {known : Prop} (hstep : known → Meets pre step post) :
    Meets (fun state => pre state ∧ known) step post :=
  fun state hstate => hstep hstate.2 state hstate.1

theorem and {post' : α → State → Prop} (hstep : Meets pre step post)
    (hstep' : Meets pre step post') :
    Meets pre step fun value state => post value state ∧ post' value state :=
  fun state hstate => ⟨hstep state hstate, hstep' state hstate⟩

protected theorem pure {value : α} (hpost : ∀ state, pre state → post value state) :
    Meets pre (pure value) post :=
  hpost

protected theorem bind {mid : α → State → Prop} {next : α → Step β}
    {post : β → State → Prop} (hstep : Meets pre step mid)
    (hnext : ∀ value, Meets (mid value) (next value) post) :
    Meets pre (step >>= next) post :=
  fun state hstate => hnext _ _ (hstep state hstate)

end Meets

namespace Yields

variable {production : Production α} {succeeded : α → State → Prop}
  {failed : BadNode → State → Prop}

theorem mono {pre' : State → Prop} {succeeded' : α → State → Prop}
    {failed' : BadNode → State → Prop} (hproduction : Yields pre production succeeded failed)
    (hpre : ∀ state, pre' state → pre state)
    (hsucceeded : ∀ value state, succeeded value state → succeeded' value state)
    (hfailed : ∀ bad state, failed bad state → failed' bad state) :
    Yields pre' production succeeded' failed' := by
  refine Meets.mono hproduction hpre fun outcome state hstate => ?_
  cases outcome with
  | ok value => exact hsucceeded value state hstate
  | error bad => exact hfailed bad state hstate

theorem weaken {succeeded' : α → State → Prop} {failed' : BadNode → State → Prop}
    (hproduction : Yields pre production succeeded failed)
    (hsucceeded : ∀ value state, succeeded value state → succeeded' value state)
    (hfailed : ∀ bad state, failed bad state → failed' bad state) :
    Yields pre production succeeded' failed' :=
  hproduction.mono (fun _ hstate => hstate) hsucceeded hfailed

theorem strengthen {pre' : State → Prop} (hproduction : Yields pre production succeeded failed)
    (hpre : ∀ state, pre' state → pre state) : Yields pre' production succeeded failed :=
  Meets.strengthen hproduction hpre

theorem of_each (hproduction : ∀ start, pre start →
    Yields (· = start) production succeeded failed) :
    Yields pre production succeeded failed :=
  Meets.of_each hproduction

theorem of_known {known : Prop} (hproduction : known → Yields pre production succeeded failed) :
    Yields (fun state => pre state ∧ known) production succeeded failed :=
  Meets.of_known hproduction

theorem and_succeeded {succeeded' : α → State → Prop} {failed' : BadNode → State → Prop}
    (hproduction : Yields pre production succeeded failed)
    (hproduction' : Yields pre production succeeded' failed') :
    Yields pre production (fun value state => succeeded value state ∧ succeeded' value state)
      failed := by
  refine (Meets.and hproduction hproduction').weaken fun outcome state hstate => ?_
  cases outcome with
  | ok value => exact hstate
  | error bad => exact hstate.1

protected theorem pure {value : α} (hsucceeded : ∀ state, pre state → succeeded value state) :
    Yields pre (pure value : Production α) succeeded failed :=
  hsucceeded

protected theorem throw {bad : BadNode} (hfailed : ∀ state, pre state → failed bad state) :
    Yields pre (throw bad : Production α) succeeded failed :=
  hfailed

protected theorem bind {mid : α → State → Prop} {next : α → Production β}
    {succeeded : β → State → Prop} (hproduction : Yields pre production mid failed)
    (hnext : ∀ value, Yields (mid value) (next value) succeeded failed) :
    Yields pre (production >>= next) succeeded failed := by
  rw [Yields, ExceptT.run_bind]
  refine Meets.bind hproduction fun outcome => ?_
  cases outcome with
  | ok value => exact hnext value
  | error bad => exact Meets.pure fun _ hstate => hstate

/-- A step inside a production cannot fail. -/
protected theorem lift {step : Step α} (hstep : Meets pre step succeeded) :
    Yields pre (liftM step : Production α) succeeded failed :=
  hstep

protected theorem onFailure {repair : BadNode → Step BadNode}
    {failed' : BadNode → State → Prop} (hproduction : Yields pre production succeeded failed)
    (hrepair : ∀ bad, Meets (failed bad) (repair bad) failed') :
    Yields pre (onFailure production repair) succeeded failed' := by
  refine Meets.bind hproduction fun outcome => ?_
  cases outcome with
  | ok value => exact Meets.pure fun _ hstate => hstate
  | error bad => exact Meets.bind (hrepair bad) fun _ => Meets.pure fun _ hstate => hstate

/-- The failure of an attempt is a value like any other. -/
protected theorem attempt {failed' : BadNode → State → Prop}
    (hproduction : Yields pre production succeeded failed) :
    Yields pre (attempt production) (Ends succeeded failed) failed' :=
  Yields.lift hproduction

protected theorem settle {outcome : Except BadNode α}
    (houtcome : ∀ state, pre state → Ends succeeded failed outcome state) :
    Yields pre (settle outcome) succeeded failed :=
  houtcome

/-- A production between two changes of the state. -/
protected theorem between {enter leave : State → State} {pre' : State → Prop}
    {succeeded' : α → State → Prop} {failed' : BadNode → State → Prop}
    (hproduction : Yields pre' production succeeded failed)
    (henter : ∀ state, pre state → pre' (enter state))
    (hsucceeded : ∀ value state, succeeded value state → succeeded' value (leave state))
    (hfailed : ∀ bad state, failed bad state → failed' bad (leave state)) :
    Yields pre (between enter leave production) succeeded' failed' := by
  intro state hstate
  have hinside := hproduction (enter state) (henter state hstate)
  change Ends _ _ (production.run.run (enter state)).1
    (leave (production.run.run (enter state)).2)
  generalize production.run.run (enter state) = result at hinside
  obtain ⟨outcome, stop⟩ := result
  cases outcome with
  | ok value => exact hsucceeded value stop hinside
  | error bad => exact hfailed bad stop hinside

end Yields

protected theorem Meets.recoverWith {rule : Skip.Rule} {first : Token}
    {ofBad : BadNode → α} {production : Production α} {post : α → State → Prop}
    {failed : BadNode → State → Prop} (hproduction : Yields pre production post failed)
    (hrecovers : ∀ bad, Meets (failed bad)
      (do skip rule; return ofBad (← cover first bad)) post) :
    Meets pre (recoverWith rule first ofBad production) post := by
  refine Meets.bind hproduction fun outcome => ?_
  cases outcome with
  | ok value => exact Meets.pure fun _ hstate => hstate
  | error bad => exact hrecovers bad

theorem get_meets :
    Meets pre get fun found state => pre state ∧ found = state :=
  fun _ hstate => ⟨hstate, rfl⟩

theorem current_meets :
    Meets pre current fun token state => pre state ∧ token = state.cursor.current :=
  fun _ hstate => ⟨hstate, rfl⟩

theorem currentKind_meets :
    Meets pre currentKind fun kind state => pre state ∧ kind = state.cursor.kind :=
  fun _ hstate => ⟨hstate, rfl⟩

theorem kindAt_meets (offset : Nat) :
    Meets pre (kindAt offset) fun kind state =>
      pre state ∧ kind = state.cursor.kindAt offset :=
  fun _ hstate => ⟨hstate, rfl⟩

theorem opensLine_meets :
    Meets pre opensLine fun answer state => pre state ∧ answer = state.cursor.opensLine :=
  fun _ hstate => ⟨hstate, rfl⟩

theorem headerContains_meets (kind : Kind) :
    Meets pre (headerContains kind) fun _ state => pre state :=
  fun _ hstate => hstate

theorem expectedHere_meets (code : ErrorCode) (what : String) :
    Meets pre (expectedHere code what) fun diagnostic state =>
      pre state ∧ diagnostic =
        if state.cursor.current.kind = .illegal then .illegal state.cursor.current
        else .expected code what state.cursor.current :=
  fun _ hstate => ⟨hstate, rfl⟩

/-- Whatever the state before, `holds` is true of the outcome of a step. -/
def Makes (holds : α → Prop) (step : Step α) : Prop :=
  Meets (fun _ => True) step fun value _ => holds value

/-- Whatever the state before, `holds` is true of the outcome of a production that
succeeds. -/
def MakesOrFails (holds : α → Prop) (production : Production α) : Prop :=
  Yields (fun _ => True) production (fun value _ => holds value) fun _ _ => True

/-- What a pass has gathered, whether another one follows or not. -/
def Gathered (holds : β → Prop) : ForInStep β → Prop
  | .yield found | .done found => holds found

section Outcomes

variable {holds : α → Prop} {makes : β → Prop}

namespace Makes

variable {step : Step α} {next : α → Step β}

protected theorem pure {value : α} (hvalue : holds value) : Makes holds (pure value) :=
  Meets.pure fun _ _ => hvalue

protected theorem bind (hstep : Makes holds step)
    (hnext : ∀ value, holds value → Makes makes (next value)) : Makes makes (step >>= next) :=
  fun state hstate => hnext _ (hstep state hstate) _ trivial

theorem weaken {holds' : α → Prop} (hstep : Makes holds step)
    (hholds : ∀ {value}, holds value → holds' value) : Makes holds' step :=
  Meets.weaken hstep fun _ _ => hholds

/-- The outcome of the first step need not matter. -/
theorem after (hnext : ∀ value, Makes makes (next value)) : Makes makes (step >>= next) :=
  .bind Meets.top fun value _ => hnext value

protected theorem ite {condition : Prop} [Decidable condition] {other : Step α}
    (hstep : Makes holds step) (hother : Makes holds other) :
    Makes holds (if condition then step else other) := by
  split
  · exact hstep
  · exact hother

theorem passes {pass : β → Step (ForInStep β)}
    (hpass : ∀ found, makes found → Makes (Gathered makes) (pass found)) (bound : Nat)
    {found : β} (hfound : makes found) : Makes makes (passes pass bound found) := by
  induction bound generalizing found with
  | zero => exact .pure hfound
  | succ bound ih =>
      apply Makes.bind (hpass found hfound)
      intro turn hturn
      cases turn with
      | yield found => exact ih hturn
      | done result => exact .pure hturn

theorem repeatStep {pass : β → Step (ForInStep β)}
    (hpass : ∀ found, makes found → Makes (Gathered makes) (pass found)) {found : β}
    (hfound : makes found) : Makes makes (repeatStep pass found) :=
  .after fun bound => passes hpass bound hfound

/-- A loop that gathers items, the last one first. -/
theorem repeatList {pass : List α → Step (ForInStep (List α))}
    (hpass : ∀ found, (∀ item ∈ found, holds item) →
      Makes (Gathered fun items => ∀ item ∈ items, holds item) (pass found)) :
    Makes (fun items => ∀ item ∈ items, holds item)
      (do return (← Grammar.repeatStep pass []).reverse) :=
  .bind (.repeatStep hpass fun _ hnil => nomatch hnil) fun _ hitems =>
    .pure fun item hitem => hitems item (List.mem_reverse.1 hitem)

end Makes

namespace MakesOrFails

variable {production : Production α} {next : α → Production β}

protected theorem pure {value : α} (hvalue : holds value) :
    MakesOrFails holds (pure value) :=
  Yields.pure fun _ _ => hvalue

protected theorem throw (bad : BadNode) : MakesOrFails holds (throw bad) :=
  Yields.throw fun _ _ => trivial

protected theorem lift {step : Step α} (hstep : Makes holds step) :
    MakesOrFails holds (liftM step : Production α) :=
  Yields.lift hstep

protected theorem bind (hproduction : MakesOrFails holds production)
    (hnext : ∀ value, holds value → MakesOrFails makes (next value)) :
    MakesOrFails makes (production >>= next) :=
  Yields.bind hproduction fun value state hvalue => hnext value hvalue state trivial

theorem weaken {holds' : α → Prop} (hproduction : MakesOrFails holds production)
    (hholds : ∀ {value}, holds value → holds' value) : MakesOrFails holds' production :=
  Yields.weaken hproduction (fun _ _ => hholds) fun _ _ hbad => hbad

theorem and {holds' : α → Prop} (hproduction : MakesOrFails holds production)
    (hproduction' : MakesOrFails holds' production) :
    MakesOrFails (fun value => holds value ∧ holds' value) production :=
  Yields.and_succeeded hproduction hproduction'

theorem any : MakesOrFails (fun _ => True) production :=
  Meets.top.weaken fun outcome _ _ => by cases outcome <;> trivial

/-- The outcome of the first production need not matter. -/
theorem after (hnext : ∀ value, MakesOrFails makes (next value)) :
    MakesOrFails makes (production >>= next) :=
  .bind any fun value _ => hnext value

protected theorem ite {condition : Prop} [Decidable condition] {other : Production α}
    (hproduction : MakesOrFails holds production) (hother : MakesOrFails holds other) :
    MakesOrFails holds (if condition then production else other) := by
  split
  · exact hproduction
  · exact hother

theorem fail (diagnostic : Diagnostic) (first last : Token) :
    MakesOrFails holds (fail diagnostic first last) :=
  .after fun _ => .throw _

theorem failHere (diagnostic : Diagnostic) : MakesOrFails holds (failHere diagnostic) :=
  .after fun _ => .throw _

protected theorem onFailure (hproduction : MakesOrFails holds production)
    (repair : BadNode → Step BadNode) : MakesOrFails holds (onFailure production repair) :=
  Yields.onFailure hproduction fun _ => .top

protected theorem between (hproduction : MakesOrFails holds production)
    (enter leave : State → State) : MakesOrFails holds (between enter leave production) :=
  Yields.between hproduction (fun _ _ => trivial) (fun _ _ hvalue => hvalue)
    fun _ _ hbad => hbad

theorem failTooDeep : MakesOrFails holds failTooDeep := .after fun _ => .failHere _

theorem descend (hproduction : MakesOrFails holds production) :
    MakesOrFails holds (descend production) :=
  .after fun _ => .ite .failTooDeep (hproduction.between _ _)

theorem unlessAt (hproduction : MakesOrFails holds production) (kind : Kind) :
    MakesOrFails (fun found => ∀ value ∈ found, holds value) (unlessAt kind production) := by
  refine .after fun _ => .ite (.pure fun _ hnone => nomatch hnone) ?_
  refine .bind hproduction fun value hvalue => .pure fun found hfound => ?_
  obtain rfl := Option.mem_some_iff.1 hfound
  exact hvalue

theorem repeatProduction {pass : β → Production (ForInStep β)}
    (hpass : ∀ found, makes found → MakesOrFails (Gathered makes) (pass found)) {found : β}
    (hfound : makes found) : MakesOrFails makes (repeatProduction pass found) := by
  suffices hpasses : ∀ bound found, makes found →
      MakesOrFails makes (passes pass bound found) from
    .after fun bound => hpasses bound found hfound
  intro bound
  induction bound with
  | zero => exact fun found hfound => .pure hfound
  | succ bound ih =>
      intro found hfound
      apply MakesOrFails.bind (hpass found hfound)
      intro turn hturn
      cases turn with
      | yield found => exact ih found hturn
      | done result => exact .pure hturn

theorem settle {outcome : Except BadNode α}
    (houtcome : ∀ value, outcome = .ok value → holds value) :
    MakesOrFails holds (settle outcome) := by
  apply Yields.settle
  intro _ _
  cases outcome with
  | ok value => exact houtcome value rfl
  | error bad => trivial

end MakesOrFails

theorem MakesOrFails.attempt {production : Production α}
    (hproduction : MakesOrFails holds production) :
    MakesOrFails (fun outcome => ∀ value, outcome = .ok value → holds value)
      (attempt production) := by
  refine .lift (Meets.weaken hproduction fun outcome _ houtcome value hvalue => ?_)
  rcases hvalue with rfl
  exact houtcome

end Outcomes

/-- In every state of which `here` is true, `holds` is true of the outcome of a step. -/
def MakesAt (here : State → Prop) (holds : α → Prop) (step : Step α) : Prop :=
  Meets here step fun value _ => holds value

/-- In every state of which `here` is true, `holds` is true of the outcome of a production
that succeeds. -/
def MakesOrFailsAt (here : State → Prop) (holds : α → Prop) (production : Production α) :
    Prop :=
  Yields here production (fun value _ => holds value) fun _ _ => True

/-- The next token is of the given kind. -/
def Facing (kind : Kind) (state : State) : Prop := state.cursor.kind = kind

section States

variable {here : State → Prop} {holds : α → Prop} {makes : β → Prop}

namespace MakesAt

variable {step : Step α}

theorem strengthen {here' : State → Prop} (hstep : MakesAt here holds step)
    (hhere : ∀ state, here' state → here state) : MakesAt here' holds step :=
  Meets.strengthen hstep hhere

theorem of_makes (hstep : Makes holds step) : MakesAt here holds step :=
  Meets.strengthen hstep fun _ _ => trivial

protected theorem bind {next : α → Step β} (hstep : MakesAt here holds step)
    (hnext : ∀ value, holds value → Makes makes (next value)) :
    MakesAt here makes (step >>= next) :=
  fun state hstate => hnext _ (hstep state hstate) _ trivial

/-- Looking at the state does not change it. -/
theorem look {seen : State → α} {next : α → Step β}
    (hnext : ∀ value, MakesAt (fun state => here state ∧ value = seen state) makes (next value)) :
    MakesAt here makes ((do return seen (← get)) >>= next) :=
  fun state hstate => hnext (seen state) state ⟨hstate, rfl⟩

protected theorem ite {condition : Prop} [Decidable condition] {other : Step α}
    (hstep : condition → MakesAt here holds step)
    (hother : ¬ condition → MakesAt here holds other) :
    MakesAt here holds (if condition then step else other) := by
  split
  · next hcondition => exact hstep hcondition
  · next hcondition => exact hother hcondition

end MakesAt

namespace MakesOrFailsAt

variable {production : Production α}

theorem strengthen {here' : State → Prop} (hproduction : MakesOrFailsAt here holds production)
    (hhere : ∀ state, here' state → here state) : MakesOrFailsAt here' holds production :=
  Yields.strengthen hproduction hhere

theorem of_makes (hproduction : MakesOrFails holds production) :
    MakesOrFailsAt here holds production :=
  Yields.strengthen hproduction fun _ _ => trivial

protected theorem bind {next : α → Production β}
    (hproduction : MakesOrFailsAt here holds production)
    (hnext : ∀ value, holds value → MakesOrFails makes (next value)) :
    MakesOrFailsAt here makes (production >>= next) :=
  Yields.bind hproduction fun value state hvalue => hnext value hvalue state trivial

theorem weaken {holds' : α → Prop} (hproduction : MakesOrFailsAt here holds production)
    (hholds : ∀ {value}, holds value → holds' value) : MakesOrFailsAt here holds' production :=
  Yields.weaken hproduction (fun _ _ => hholds) fun _ _ hbad => hbad

protected theorem lift {step : Step α} (hstep : MakesAt here holds step) :
    MakesOrFailsAt here holds (liftM step : Production α) :=
  Yields.lift hstep

/-- Looking at the state does not change it. -/
theorem look {seen : State → α} {next : α → Production β}
    (hnext : ∀ value,
      MakesOrFailsAt (fun state => here state ∧ value = seen state) makes (next value)) :
    MakesOrFailsAt here makes (liftM (do return seen (← get) : Step α) >>= next) :=
  fun state hstate => hnext (seen state) state ⟨hstate, rfl⟩

protected theorem ite {condition : Prop} [Decidable condition] {other : Production α}
    (hproduction : condition → MakesOrFailsAt here holds production)
    (hother : ¬ condition → MakesOrFailsAt here holds other) :
    MakesOrFailsAt here holds (if condition then production else other) := by
  split
  · next hcondition => exact hproduction hcondition
  · next hcondition => exact hother hcondition

/-- What is true of the state a level deeper has to be told. -/
theorem descend {inside : State → Prop} (hproduction : MakesOrFailsAt inside holds production)
    (hinside : ∀ state, here state → inside { state with nesting := state.nesting + 1 }) :
    MakesOrFailsAt here holds (descend production) := by
  refine Yields.bind (.lift get_meets) fun state => ?_
  split
  · exact MakesOrFailsAt.of_makes .failTooDeep
  · exact Yields.between hproduction (fun _ hstate => hinside _ hstate.1)
      (fun _ _ hvalue => hvalue) fun _ _ hbad => hbad

/-- Where the kind of the next token is known, looking at it tells nothing new. -/
theorem facing {kind : Kind} {next : Kind → Production β}
    (hnext : MakesOrFailsAt (Facing kind) makes (next kind)) :
    MakesOrFailsAt (Facing kind) makes (liftM currentKind >>= next) := by
  intro state hstate
  have hrest := hnext state hstate
  rw [← (hstate : state.cursor.kind = kind)] at hrest
  exact hrest

end MakesOrFailsAt

/-- What follows a production may go on from its failure. -/
theorem MakesAt.bind_run {production : Production α} {next : Except BadNode α → Step β}
    (hproduction : MakesOrFailsAt here holds production)
    (hok : ∀ value, holds value → Makes makes (next (.ok value)))
    (herror : ∀ bad, Makes makes (next (.error bad))) :
    MakesAt here makes (production.run >>= next) := by
  refine Meets.bind hproduction fun outcome state houtcome => ?_
  cases outcome with
  | ok value => exact hok value houtcome state trivial
  | error bad => exact herror bad state trivial

theorem MakesAt.recoverWith {production : Production α} {ofBad : BadNode → α}
    (hproduction : MakesOrFailsAt here holds production) (hbad : ∀ bad, holds (ofBad bad))
    (rule : Skip.Rule) (first : Token) :
    MakesAt here holds (recoverWith rule first ofBad production) :=
  Meets.recoverWith hproduction fun _ _ _ => hbad _

theorem Makes.recoverWith {production : Production α} {ofBad : BadNode → α}
    (hproduction : MakesOrFails holds production) (hbad : ∀ bad, holds (ofBad bad))
    (rule : Skip.Rule) (first : Token) :
    Makes holds (recoverWith rule first ofBad production) :=
  MakesAt.recoverWith hproduction hbad rule first

theorem Makes.bind_run {production : Production α} {next : Except BadNode α → Step β}
    (hproduction : MakesOrFails holds production)
    (hok : ∀ value, holds value → Makes makes (next (.ok value)))
    (herror : ∀ bad, Makes makes (next (.error bad))) :
    Makes makes (production.run >>= next) :=
  MakesAt.bind_run hproduction hok herror

theorem advance_makes {here : State → Prop} {holds : Token → Prop}
    (hholds : ∀ state, here state → holds state.cursor.current) :
    MakesAt here holds advance :=
  hholds

theorem expectAs_makes (code : ErrorCode) (kind : Kind) (what : String) :
    MakesOrFails (·.kind = kind) (expectAs code kind what) := by
  refine MakesOrFailsAt.look fun found => .ite (fun hfound => ?_) fun _ => .of_makes ?_
  · refine .lift (advance_makes fun state hstate => ?_)
    exact hstate.2.symm.trans hfound
  · exact .after fun _ => .after fun _ => .after fun _ => .throw _

end States

end OriSyntax.Grammar
