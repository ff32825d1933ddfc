import OriSyntax.Proofs.Agreement
import OriSyntax.Proofs.StmtAccounts

/-!
Steps that do not stay silent.  A production that fails has reported something, and where a
token is missing that a construct needs, reading the construct ends with a report, whatever
else is read of it.
-/

namespace OriSyntax.Grammar

variable {α β : Type} {nested : Nested} {here : State → Prop}

/-- From every state in which `here` is true, the step adds to the reports. -/
def Reports (here : State → Prop) (step : Step α) : Prop :=
  ∀ start, here start → start.diagnostics.size < (step.run start).2.diagnostics.size

/-- Whoever runs the production from `start` on and sees it fail finds a new report. -/
def FailsAloud (production : Production α) : Prop :=
  ∀ start : State, Yields start.Reaches production (fun _ => start.Reaches)
    fun _ stop => start.diagnostics.size < stop.diagnostics.size

theorem State.Reaches.size_le {start stop : State} (hreaches : start.Reaches stop) :
    start.diagnostics.size ≤ stop.diagnostics.size := by
  simpa using hreaches.reports.length_le

theorem State.Tells.size_lt {start stop : State} {message : String}
    (htells : start.Tells message stop) : start.diagnostics.size < stop.diagnostics.size := by
  obtain ⟨reported, hstop, hmessage⟩ := htells
  have hlength := congrArg List.length hstop
  rw [List.length_append, Array.length_toList, Array.length_toList] at hlength
  have hreported : 0 < reported.length := by
    simpa using List.length_pos_of_mem hmessage
  omega

theorem AccountsOrFails.failsAloud {production : Production α} {pieces : α → List Piece}
    (hproduction : AccountsOrFails anywhere production pieces) : FailsAloud production := by
  intro start
  apply Yields.of_each
  intro middle hmiddle
  have haccounts : Yields (Settled middle []) production
      (fun value => Settled middle (pieces value)) (Failed middle) := hproduction.yields
  refine haccounts.mono ?_ (fun value stop hstop => ?_) fun bad stop hstop => ?_
  · rintro state rfl
    exact .refl _
  · exact hmiddle.trans hstop.accounted.reaches
  · exact Nat.lt_of_le_of_lt hmiddle.size_le hstop.tells.size_lt

namespace FailsAloud

variable {production : Production α}

protected theorem pure (value : α) : FailsAloud (pure value) :=
  fun _ => .pure fun _ hstate => hstate

protected theorem lift {step : Step α} (hstep : Orderly step) :
    FailsAloud (liftM step : Production α) :=
  fun _ => .lift (hstep.keeps fun _ _ hfollows hstate => hstate.trans hfollows.reaches)

protected theorem bind {next : α → Production β} (hproduction : FailsAloud production)
    (hnext : ∀ value, FailsAloud (next value)) : FailsAloud (production >>= next) :=
  fun start => .bind (hproduction start) fun value => hnext value start

protected theorem ite {condition : Prop} [Decidable condition] {other : Production α}
    (hproduction : FailsAloud production) (hother : FailsAloud other) :
    FailsAloud (if condition then production else other) := by
  split
  · exact hproduction
  · exact hother

theorem failHere (diagnostic : Diagnostic) :
    FailsAloud (failHere diagnostic : Production α) := by
  intro start state hstate
  have hpush : state.diagnostics.size < (state.diagnostics.push diagnostic).size := by simp
  exact Nat.lt_of_le_of_lt hstate.size_le hpush

protected theorem skipping (rule : Skip.Rule) (hproduction : FailsAloud production) :
    FailsAloud (skipping rule production) :=
  fun start => .onFailure (hproduction start) fun _ _ hstate => hstate

protected theorem covering (first : Token) (hproduction : FailsAloud production) :
    FailsAloud (covering first production) :=
  fun start => .onFailure (hproduction start) fun _ _ hstate => hstate

protected theorem unlessAt (kind : Kind) (hproduction : FailsAloud production) :
    FailsAloud (unlessAt kind production) :=
  .bind (.lift get_orderly) fun _ => .ite (.pure _) (.bind hproduction fun _ => .pure _)

protected theorem repeatProduction {pass : β → Production (ForInStep β)}
    (hgains : GainsOrFails pass) (hpass : ∀ found, FailsAloud (pass found)) (found : β) :
    FailsAloud (repeatProduction pass found) := by
  intro start
  have hturns (found : β) : Yields start.Reaches (pass found)
      (Turns (fun _ => start.Reaches) fun _ => start.Reaches)
      fun _ stop => start.diagnostics.size < stop.diagnostics.size := by
    refine (hpass found start).weaken (fun turn state hstate => ?_) fun _ _ hsize => hsize
    cases turn <;> exact hstate
  exact .repeatProduction hgains hturns found

end FailsAloud

theorem memberPass_failsAloud {member : Production α} (hmember : FailsAloud member)
    (found : List α) : FailsAloud (memberPass member found) := by
  refine .bind (.lift get_orderly) fun _ => .ite (.pure _) (.ite ?_ (.ite ?_ ?_))
  · exact .bind (.lift get_orderly) fun _ => .failHere _
  · exact .bind (.lift advance_orderly) fun _ => .pure _
  · refine .bind (.skipping _ (.bind hmember fun _ => ?_)) fun _ => .pure _
    exact .bind memberEnd_accounts.failsAloud fun _ => .pure _

theorem expectAs_failsAloud (code : ErrorCode) {kind : Kind} (what : String)
    (hkind : kind.isStored ∨ kind.isSeparator) : FailsAloud (expectAs code kind what) := by
  rcases hkind with hkind | hkind
  · exact (expectAs_accounts code what hkind).failsAloud
  · exact (expectAs_accounts_separator code what hkind).failsAloud

namespace Reports

variable {step : Step α}

theorem strengthen {there : State → Prop} (hstep : Reports here step)
    (hthere : ∀ state, there state → here state) : Reports there step :=
  fun start hstart => hstep start (hthere start hstart)

protected theorem bind {next : α → Step β} (hstep : Reports here step)
    (hnext : ∀ value, Orderly (next value)) : Reports here (step >>= next) :=
  fun start hstart =>
    Nat.lt_of_lt_of_le (hstep start hstart) (hnext _ _).reaches.size_le

theorem run_bind {production : Production α} {next : α → Production β}
    (hproduction : Reports here production.run) (hnext : ∀ value, Orderly (next value).run) :
    Reports here (production >>= next).run := by
  rw [ExceptT.run_bind]
  apply Reports.bind hproduction
  intro outcome
  cases outcome with
  | ok value => exact hnext value
  | error bad => exact .pure _

/-- Looking at the state does not change it. -/
theorem look {seen : State → α} {next : α → Step β}
    (hnext : ∀ value, Reports (fun state => here state ∧ value = seen state) (next value)) :
    Reports here ((do return seen (← get)) >>= next) :=
  fun start hstart => hnext (seen start) start ⟨hstart, rfl⟩

theorem run_look {seen : State → α} {next : α → Production β}
    (hnext : ∀ value, Reports (fun state => here state ∧ value = seen state) (next value).run) :
    Reports here (liftM (do return seen (← get) : Step α) >>= next).run :=
  fun start hstart => hnext (seen start) start ⟨hstart, rfl⟩

theorem run_ite {condition : Prop} [Decidable condition] {first second : Production α}
    (hfirst : condition → Reports here first.run)
    (hsecond : ¬ condition → Reports here second.run) :
    Reports here (if condition then first else second).run := by
  split
  · next hcondition => exact hfirst hcondition
  · next hcondition => exact hsecond hcondition

/-- If the production fails, it has reported why; if not, what follows reports. -/
theorem run_after {context : Context} {production : Production α} {next : α → Production β}
    (horderly : Orderly production.run) (haloud : FailsAloud production)
    (hnext : ∀ value, Reports context.holds (next value).run) :
    Reports context.holds (production >>= next).run := by
  intro start hstart
  have hends := haloud start start (.refl start)
  have hfollows := horderly start
  rw [ExceptT.run_bind, StateT.run_bind]
  revert hends hfollows
  generalize production.run.run start = result
  obtain ⟨outcome, middle⟩ := result
  intro hends hfollows
  cases outcome with
  | ok value =>
      exact Nat.lt_of_le_of_lt hends.size_le
        (hnext value middle (context.lasts hfollows hstart))
  | error bad => exact hends

theorem report (diagnostic : Diagnostic) (first last : Token) :
    Reports here (report diagnostic first last) := by
  intro start _
  change _ < (start.diagnostics.push diagnostic).size
  simp

theorem reportHere (diagnostic : Diagnostic) : Reports here (reportHere diagnostic) :=
  look fun _ => report _ _ _

theorem failHere (diagnostic : Diagnostic) :
    Reports here (failHere diagnostic : Production α).run :=
  run_bind (reportHere diagnostic) fun _ => .run_throw _

theorem failExpected (code : ErrorCode) (what : String) :
    Reports here (do Grammar.failHere (← expectedHere code what) : Production α).run :=
  run_look fun _ => failHere _

theorem onFailure {production : Production α} {repair : BadNode → Step BadNode}
    (hproduction : Reports here production.run) (hrepair : ∀ bad, Orderly (repair bad)) :
    Reports here (onFailure production repair).run := by
  apply Reports.bind hproduction
  intro outcome
  cases outcome with
  | ok value => exact .pure _
  | error bad => exact (hrepair bad).bind fun _ => .pure _

end Reports

/-- Where another token stands than the expected one, this is reported. -/
theorem expectAs_reports (code : ErrorCode) {kind : Kind} (what : String)
    (hhere : ∀ state, here state → state.cursor.kind ≠ kind) :
    Reports here (expectAs code kind what).run := by
  refine .run_look fun found => .run_ite (fun hfound => ?_) fun _ => .run_look fun _ => ?_
  · intro state hstate
    obtain ⟨hstate, rfl⟩ := hstate
    exact absurd hfound (hhere state hstate)
  · exact .run_bind (.reportHere _) fun _ =>
      .run_bind (.run_lift skipUnexpected_orderly) fun _ => .run_throw _

/-- There is no opening brace ahead. -/
def Context.braceless : Context where
  holds state := ∀ token ∈ state.cursor.ahead, token.kind ≠ .lbrace
  lasts hfollows hstate token htoken := by
    obtain ⟨run, hrun⟩ := hfollows.reads
    apply hstate token
    rw [hrun.ahead]
    exact List.mem_append_right run htoken

theorem Context.kind_of_braceless {state : State} (hstate : Context.braceless.holds state) :
    state.cursor.kind ≠ .lbrace := by
  cases hahead : state.cursor.ahead with
  | nil => simp [Cursor.kind_of_ahead_eq_nil hahead]
  | cons token rest =>
      rw [Cursor.kind_of_ahead_eq_cons hahead]
      exact hstate token (by simp [hahead])

section Headers

variable (hnested : nested.Accounts)
include hnested

theorem block_reports (hhere : ∀ state, here state → state.cursor.kind ≠ .lbrace) :
    Reports here (block nested).run := by
  refine .run_bind (expectAs_reports _ _ hhere) fun _ => ?_
  exact .run_bind (.run_lift (stmtList_orderly hnested.orderly _)) fun _ =>
    .run_bind (covering_orderly _ (expect_orderly _ _)) fun _ => .run_pure _

theorem loopBody_reports_of_braceless : Reports Context.braceless.holds (loopBody nested).run :=
  fun start hstart => block_reports hnested
    (fun _ hstate => Context.kind_of_braceless hstate)
    { start with loopDepth := start.loopDepth + 1 } hstart

theorem rangeLoop_reports (keyword : Token) :
    Reports Context.braceless.holds (rangeLoop nested keyword).run := by
  apply Reports.run_after (rangeTargets_orderly hnested.orderly keyword)
    (rangeTargets_accounts hnested keyword).failsAloud
  intro targets
  apply Reports.run_after (expect_orderly _ _) (expectAs_failsAloud _ _ (.inl rfl))
  intro _
  apply Reports.run_after (.run_lift (hnested.orderly.expr _)) (.lift (hnested.orderly.expr _))
  intro subject
  exact .run_bind (loopBody_reports_of_braceless hnested) fun _ => .run_pure _

theorem threeClauseLoop_reports (keyword : Token) :
    Reports Context.braceless.holds (threeClauseLoop nested keyword).run := by
  have hclause (clause : ForClause) (kind : Kind) :
      Orderly (unlessAt kind (forClause nested clause)).run ∧
        FailsAloud (unlessAt kind (forClause nested clause)) :=
    ⟨unlessAt_orderly _ (forClause_orderly hnested.orderly clause),
      (forClause_accounts hnested clause).failsAloud.unlessAt kind⟩
  apply Reports.run_after (hclause .init _).1 (hclause .init _).2
  intro first
  apply Reports.run_after (expect_orderly _ _) (expectAs_failsAloud _ _ (.inr rfl))
  intro _
  apply Reports.run_after (unlessAt_orderly _ (.run_lift (hnested.orderly.expr _)))
    (.unlessAt _ (.lift (hnested.orderly.expr _)))
  intro condition
  apply Reports.run_after (expect_orderly _ _) (expectAs_failsAloud _ _ (.inr rfl))
  intro _
  apply Reports.run_after (hclause .post _).1 (hclause .post _).2
  intro after
  exact .run_bind (loopBody_reports_of_braceless hnested) fun _ => .run_pure _

/-- A loop without a body is reported. -/
theorem restOfLoop_reports (keyword : Token) :
    Reports Context.braceless.holds (restOfLoop nested keyword).run := by
  refine .run_look fun _ => .run_ite (fun _ => ?_) fun _ => .run_look fun _ =>
    .run_ite (fun _ => ?_) fun _ => .run_look fun _ => .run_ite (fun _ => ?_) fun _ => ?_
  · have hbody := loopBody_reports_of_braceless hnested
    exact .run_bind (hbody.strengthen fun _ hstate => hstate.1) fun _ => .run_pure _
  · exact (rangeLoop_reports hnested keyword).strengthen fun _ hstate => hstate.1.1
  · exact (threeClauseLoop_reports hnested keyword).strengthen fun _ hstate => hstate.1.1.1
  · have hcondition : Reports Context.braceless.holds (do
        let condition ← nested.expr .lowest
        return Stmt.forLoop keyword none (some condition) none (← loopBody nested) :
          Production Stmt).run := by
      apply Reports.run_after (.run_lift (hnested.orderly.expr _)) (.lift (hnested.orderly.expr _))
      intro condition
      exact .run_bind (loopBody_reports_of_braceless hnested) fun _ => .run_pure _
    exact hcondition.strengthen fun _ hstate => hstate.1.1.1

/-- A switch without a body is reported. -/
theorem restOfSwitch_reports (keyword : Token) :
    Reports Context.braceless.holds (restOfSwitch nested keyword).run := by
  apply Reports.run_after (switchInit_orderly hnested.orderly)
    (switchInit_accounts hnested).failsAloud
  intro first
  apply Reports.run_after (unlessAt_orderly _ (.run_lift (hnested.orderly.expr _)))
    (.unlessAt _ (.lift (hnested.orderly.expr _)))
  intro tag
  refine .run_bind (expectAs_reports _ _ fun _ hstate => Context.kind_of_braceless hstate)
    fun opening => ?_
  exact .run_bind (.run_lift (caseList_orderly hnested.orderly)) fun _ =>
    .run_bind (covering_orderly _ (expect_orderly _ _)) fun _ => .run_pure _

end Headers

end OriSyntax.Grammar
