import OriSyntax.Proofs.Progress

/-!
Productions that read from one list of tokens.  Moving forward changes neither what was
read nor what is still to be read, put together; so what a production makes may depend on
the list, and the list is the same for whatever comes after it.
-/

namespace OriSyntax.Grammar

variable {α β : Type} {stream : List Token}

/-- The state reads from the list of tokens `stream`. -/
def ReadsFrom (stream : List Token) (state : State) : Prop := state.cursor.tokens = stream

theorem ReadsFrom.follows {start stop : State} (hstart : ReadsFrom stream start)
    (hfollows : start.Follows stop) : ReadsFrom stream stop := by
  obtain ⟨run, hrun⟩ := hfollows.reads
  exact hrun.tokens.trans hstart

/-- Reading from `stream`, the step moves forward, and `holds` is true of its outcome. -/
def MakesFrom (stream : List Token) (holds : α → Prop) (step : Step α) : Prop :=
  ∀ start, ReadsFrom stream start →
    start.Follows (step.run start).2 ∧ holds (step.run start).1

/-- What holds of an outcome unless it is a failure. -/
def OnSuccess (holds : α → Prop) (outcome : Except BadNode α) : Prop :=
  ∀ value, outcome = .ok value → holds value

/-- Reading from `stream`, the production moves forward, and `holds` is true of its outcome
if it succeeds. -/
def MakesOrFailsFrom (stream : List Token) (holds : α → Prop) (production : Production α) :
    Prop :=
  MakesFrom stream (OnSuccess holds) production.run

theorem onSuccess_ok {holds : α → Prop} {value : α} (hvalue : holds value) :
    OnSuccess holds (.ok value) := by
  intro other hother
  cases hother
  exact hvalue

theorem onSuccess_error {holds : α → Prop} (bad : BadNode) : OnSuccess holds (.error bad) :=
  fun _ herror => nomatch herror

section Rules

variable {holds : α → Prop} {makes : β → Prop}

namespace MakesFrom

variable {step other : Step α} {next : α → Step β}

theorem of_orderly (hstep : Orderly step) (hholds : ∀ value, holds value) :
    MakesFrom stream holds step :=
  fun start _ => ⟨hstep start, hholds _⟩

protected theorem pure {value : α} (hvalue : holds value) :
    MakesFrom stream holds (pure value) :=
  fun start _ => ⟨.refl start, hvalue⟩

protected theorem bind (hstep : MakesFrom stream holds step)
    (hnext : ∀ value, holds value → MakesFrom stream makes (next value)) :
    MakesFrom stream makes (step >>= next) := by
  intro start hstart
  obtain ⟨hfirst, hvalue⟩ := hstep start hstart
  obtain ⟨hrest, hresult⟩ := hnext _ hvalue _ (hstart.follows hfirst)
  exact ⟨hfirst.trans hrest, hresult⟩

/-- The outcome of the first step need not matter. -/
theorem past (horderly : Orderly step) (hnext : ∀ value, MakesFrom stream makes (next value)) :
    MakesFrom stream makes (step >>= next) :=
  .bind (of_orderly horderly fun _ => trivial) fun value (_ : True) => hnext value

protected theorem ite {condition : Prop} [Decidable condition]
    (hstep : MakesFrom stream holds step) (hother : MakesFrom stream holds other) :
    MakesFrom stream holds (if condition then step else other) := by
  split
  · exact hstep
  · exact hother

theorem repeatStep {pass : β → Step (ForInStep β)}
    (hpass : ∀ found, makes found → MakesFrom stream (Gathered makes) (pass found)) {found : β}
    (hfound : makes found) : MakesFrom stream makes (repeatStep pass found) := by
  suffices hpasses : ∀ bound found, makes found → MakesFrom stream makes (passes pass bound found)
    from past get_orderly fun bound => hpasses bound found hfound
  intro bound
  induction bound with
  | zero => exact fun found hfound => .pure hfound
  | succ bound ih =>
      intro found hfound
      apply MakesFrom.bind (hpass found hfound)
      intro turn hturn
      cases turn with
      | yield found => exact ih found hturn
      | done result => exact .pure hturn

/-- A loop that gathers items, the last one first. -/
theorem repeatList {pass : List α → Step (ForInStep (List α))}
    (hpass : ∀ found, (∀ item ∈ found, holds item) →
      MakesFrom stream (Gathered fun items => ∀ item ∈ items, holds item) (pass found)) :
    MakesFrom stream (fun items => ∀ item ∈ items, holds item)
      (do return (← Grammar.repeatStep pass []).reverse) :=
  .bind (.repeatStep hpass fun _ hnil => nomatch hnil) fun _ hitems =>
    .pure fun item hitem => hitems item (List.mem_reverse.1 hitem)

end MakesFrom

namespace MakesOrFailsFrom

variable {production other : Production α} {next : α → Production β}

theorem of_orderly (hproduction : Orderly production.run) (hholds : ∀ value, holds value) :
    MakesOrFailsFrom stream holds production :=
  MakesFrom.of_orderly hproduction fun _ value _ => hholds value

protected theorem pure {value : α} (hvalue : holds value) :
    MakesOrFailsFrom stream holds (pure value) :=
  MakesFrom.pure (onSuccess_ok hvalue)

protected theorem throw (bad : BadNode) : MakesOrFailsFrom stream holds (throw bad) :=
  MakesFrom.pure (onSuccess_error bad)

protected theorem lift {step : Step α} (hstep : MakesFrom stream holds step) :
    MakesOrFailsFrom stream holds (liftM step : Production α) :=
  fun start hstart => ⟨(hstep start hstart).1, onSuccess_ok (hstep start hstart).2⟩

protected theorem bind (hproduction : MakesOrFailsFrom stream holds production)
    (hnext : ∀ value, holds value → MakesOrFailsFrom stream makes (next value)) :
    MakesOrFailsFrom stream makes (production >>= next) := by
  rw [MakesOrFailsFrom, ExceptT.run_bind]
  apply MakesFrom.bind hproduction
  intro outcome houtcome
  cases outcome with
  | ok value => exact hnext value (houtcome value rfl)
  | error bad => exact .pure (onSuccess_error bad)

/-- The outcome of the first production need not matter. -/
theorem past (horderly : Orderly production.run)
    (hnext : ∀ value, MakesOrFailsFrom stream makes (next value)) :
    MakesOrFailsFrom stream makes (production >>= next) :=
  .bind (of_orderly horderly fun _ => trivial) fun value (_ : True) => hnext value

protected theorem ite {condition : Prop} [Decidable condition]
    (hproduction : MakesOrFailsFrom stream holds production)
    (hother : MakesOrFailsFrom stream holds other) :
    MakesOrFailsFrom stream holds (if condition then production else other) := by
  split
  · exact hproduction
  · exact hother

theorem fail (diagnostic : Diagnostic) (first last : Token) :
    MakesOrFailsFrom stream holds (fail diagnostic first last) :=
  past (report_orderly diagnostic first last) fun _ => .throw _

theorem failHere (diagnostic : Diagnostic) : MakesOrFailsFrom stream holds (failHere diagnostic) :=
  past (reportHere_orderly _) fun _ => .throw _

theorem failTooDeep : MakesOrFailsFrom stream holds failTooDeep :=
  past get_orderly fun _ => .failHere _

protected theorem onFailure {repair : BadNode → Step BadNode}
    (hrepair : ∀ bad, Orderly (repair bad))
    (hproduction : MakesOrFailsFrom stream holds production) :
    MakesOrFailsFrom stream holds (onFailure production repair) := by
  apply MakesFrom.bind hproduction
  intro outcome houtcome
  cases outcome with
  | ok value => exact .pure houtcome
  | error bad => exact .past (hrepair bad) fun _ => .pure (onSuccess_error _)

theorem covering (start : Token) (hproduction : MakesOrFailsFrom stream holds production) :
    MakesOrFailsFrom stream holds (covering start production) :=
  .onFailure (cover_orderly start) hproduction

theorem skipping (rule : Skip.Rule) (hproduction : MakesOrFailsFrom stream holds production) :
    MakesOrFailsFrom stream holds (skipping rule production) :=
  .onFailure (fun _ => .bind (skip_orderly rule) fun _ => .pure _) hproduction

theorem attempt (hproduction : MakesOrFailsFrom stream holds production) :
    MakesOrFailsFrom stream (OnSuccess holds) (attempt production) :=
  .lift hproduction

theorem settle {outcome : Except BadNode α} (houtcome : OnSuccess holds outcome) :
    MakesOrFailsFrom stream holds (settle outcome) :=
  MakesFrom.pure houtcome

theorem unlessAt (kind : Kind) (hproduction : MakesOrFailsFrom stream holds production) :
    MakesOrFailsFrom stream (fun found => ∀ value ∈ found, holds value)
      (unlessAt kind production) := by
  refine .past get_orderly fun _ => .ite (.pure fun _ hnone => nomatch hnone) ?_
  apply MakesOrFailsFrom.bind hproduction
  intro value hvalue
  apply MakesOrFailsFrom.pure
  intro found hfound
  exact Option.mem_some_iff.1 hfound ▸ hvalue

/-- Between two changes of the state that leave the tokens alone. -/
theorem between {enter leave : State → State}
    (hproduction : MakesOrFailsFrom stream holds production)
    (henter : ∀ state, (enter state).cursor = state.cursor)
    (hleave : ∀ start stop, (enter start).Follows stop → start.Follows (leave stop)) :
    MakesOrFailsFrom stream holds (between enter leave production) := by
  intro start hstart
  have hinside : ReadsFrom stream (enter start) := by
    rw [ReadsFrom, henter]
    exact hstart
  obtain ⟨hfollows, houtcome⟩ := hproduction (enter start) hinside
  exact ⟨hleave start _ hfollows, houtcome⟩

theorem descend (hproduction : MakesOrFailsFrom stream holds production) :
    MakesOrFailsFrom stream holds (descend production) := by
  refine .past State.Follows.refl fun _ => .ite .failTooDeep (.between hproduction ?_ ?_)
  · exact fun _ => rfl
  · intro start stop hstop
    exact ⟨hstop.reads, hstop.reports, by simp [hstop.nesting], hstop.loopDepth⟩

theorem repeatProduction {pass : β → Production (ForInStep β)}
    (hpass : ∀ found, makes found → MakesOrFailsFrom stream (Gathered makes) (pass found))
    {found : β} (hfound : makes found) :
    MakesOrFailsFrom stream makes (repeatProduction pass found) := by
  suffices hpasses : ∀ bound found, makes found →
      MakesOrFailsFrom stream makes (passes pass bound found) from
    past get_orderly fun bound => hpasses bound found hfound
  intro bound
  induction bound with
  | zero => exact fun found hfound => .pure hfound
  | succ bound ih =>
      intro found hfound
      apply MakesOrFailsFrom.bind (hpass found hfound)
      intro turn hturn
      cases turn with
      | yield found => exact ih found hturn
      | done result => exact .pure hturn

end MakesOrFailsFrom

/-- What follows a production may go on from its failure. -/
theorem MakesFrom.bind_run {production : Production α} {next : Except BadNode α → Step β}
    (hproduction : MakesOrFailsFrom stream holds production)
    (hok : ∀ value, holds value → MakesFrom stream makes (next (.ok value)))
    (herror : ∀ bad, MakesFrom stream makes (next (.error bad))) :
    MakesFrom stream makes (production.run >>= next) := by
  apply MakesFrom.bind hproduction
  intro outcome houtcome
  cases outcome with
  | ok value => exact hok value (houtcome value rfl)
  | error bad => exact herror bad

theorem MakesFrom.recoverWith {production : Production α} {ofBad : BadNode → α}
    (rule : Skip.Rule) (first : Token) (hbad : ∀ bad, holds (ofBad bad))
    (hproduction : MakesOrFailsFrom stream holds production) :
    MakesFrom stream holds (recoverWith rule first ofBad production) :=
  .bind_run hproduction (fun _ hvalue => .pure hvalue) fun _ =>
    .past (skip_orderly rule) fun _ => .past (cover_orderly _ _) fun _ => .pure (hbad _)

end Rules

section Lists

variable {holds : α → Prop} {entry : Production α} (hentry : MakesOrFailsFrom stream holds entry)
include hentry

theorem commaPass_makesFrom (noun : String) {found : List α}
    (hfound : ∀ item ∈ found, holds item) :
    MakesOrFailsFrom stream (Gathered fun items => ∀ item ∈ items, holds item)
      (commaPass noun entry found) := by
  have hfails (message : String) :
      MakesOrFailsFrom stream (Gathered fun items : List α => ∀ item ∈ items, holds item)
        (failList message) := .past get_orderly fun _ => .failHere _
  refine .past get_orderly fun _ => .ite (.pure hfound) (.ite ?_ ?_)
  · exact .past get_orderly fun _ => .failHere _
  apply MakesOrFailsFrom.bind hentry
  intro item hitem
  have hitems := List.forall_mem_cons.2 ⟨hitem, hfound⟩
  refine .past get_orderly fun _ => .ite ?_ (.ite (.pure hitems) (hfails _))
  exact .past advance_orderly fun _ => .past get_orderly fun _ => .ite (hfails _) (.pure hitems)

theorem restOfList_makesFrom (noun : String) (opening : Token) :
    MakesOrFailsFrom stream (fun list => ∀ item ∈ list.items, holds item)
      (restOfList noun opening entry) := by
  have hlist : MakesOrFailsFrom stream (fun items => ∀ item ∈ items, holds item)
      (commaList noun entry) := by
    refine .past get_orderly fun _ => .ite (.past get_orderly fun _ => .failHere _) ?_
    apply MakesOrFailsFrom.bind (.repeatProduction
      (fun _ => commaPass_makesFrom hentry noun) (List.forall_mem_nil _))
    exact fun items hitems => .pure fun item hitem => hitems item (List.mem_reverse.1 hitem)
  exact .bind (hlist.skipping _) fun items hitems => .past advance_orderly fun _ => .pure hitems

theorem members_makesFrom :
    MakesOrFailsFrom stream (fun body => ∀ item ∈ body.items, holds item) (members entry) := by
  have hpass (found : List α) (hfound : ∀ item ∈ found, holds item) :
      MakesOrFailsFrom stream (Gathered fun items => ∀ item ∈ items, holds item)
        (memberPass entry found) := by
    refine .past get_orderly fun _ => .ite (.pure hfound) (.ite ?_ (.ite ?_ ?_))
    · exact .past get_orderly fun _ => .failHere _
    · exact .past advance_orderly fun _ => .pure hfound
    · have hmember : MakesOrFailsFrom stream holds (do
          let item ← entry
          memberEnd
          return item) :=
        .bind hentry fun item hitem => .past memberEnd_orderly fun _ => .pure hitem
      exact .bind (hmember.skipping _) fun item hitem =>
        .pure (List.forall_mem_cons.2 ⟨hitem, hfound⟩)
  apply MakesOrFailsFrom.past (expect_orderly _ _)
  intro opening
  apply MakesOrFailsFrom.bind (.repeatProduction hpass (List.forall_mem_nil _))
  exact fun items hitems => .past advance_orderly fun _ =>
    .pure fun item hitem => hitems item (List.mem_reverse.1 hitem)

theorem typeBody_makesFrom (typeKeyword name : Token) :
    MakesOrFailsFrom stream (fun decl => ∀ item ∈ decl.body.items, holds item)
      (typeBody typeKeyword name entry) :=
  .past advance_orderly fun _ => .bind (members_makesFrom hentry) fun _ hbody => .pure hbody

end Lists

end OriSyntax.Grammar
