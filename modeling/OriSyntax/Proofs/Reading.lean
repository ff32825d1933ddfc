import OriSyntax.Proofs.Contract

/-!
What reading does to a cursor and to the state of the grammar.  A step never goes
back: it reads some tokens, adds some diagnostics behind those that are there, and
leaves the context as it was.  A loop whose passes read something ends because a
pass says so, never because the bound on its passes is reached.
-/

namespace OriSyntax

namespace Cursor

/-- Reading the tokens `run` leads from `start` to `stop`. -/
structure Reads (start : Cursor) (run : List Token) (stop : Cursor) : Prop where
  ahead : start.ahead = run ++ stop.ahead
  behind : stop.behind = run.reverse ++ start.behind
  eof : stop.eof = start.eof

namespace Reads

variable {start middle stop : Cursor} {run rest : List Token}

theorem refl (start : Cursor) : start.Reads [] start := ⟨rfl, rfl, rfl⟩

theorem trans (hfirst : start.Reads run middle) (hsecond : middle.Reads rest stop) :
    start.Reads (run ++ rest) stop where
  ahead := by rw [hfirst.ahead, hsecond.ahead, List.append_assoc]
  behind := by
    rw [hsecond.behind, hfirst.behind, List.reverse_append, List.append_assoc]
  eof := hsecond.eof.trans hfirst.eof

theorem eq_of_nil (hreads : start.Reads [] stop) : stop = start :=
  eq_of_lists hreads.behind hreads.ahead.symm hreads.eof

theorem remaining (hreads : start.Reads run stop) :
    start.remaining = run.length + stop.remaining := by
  rw [start.remaining_eq, stop.remaining_eq, hreads.ahead, List.length_append]

theorem position (hreads : start.Reads run stop) :
    stop.position = run.length + start.position := by
  rw [start.position_eq, stop.position_eq, hreads.behind, List.length_append,
    List.length_reverse]

theorem eq_of_position (hreads : start.Reads run stop)
    (hposition : stop.position = start.position) : stop = start := by
  have hmoved := hreads.position
  have hnil : run = [] := List.eq_nil_of_length_eq_zero (by omega)
  subst hnil
  exact hreads.eq_of_nil

theorem unique (hreads : start.Reads run stop) (hother : start.Reads rest stop) :
    run = rest :=
  List.append_cancel_right (hreads.ahead.symm.trans hother.ahead)

/-- Whoever is back at the start has not moved. -/
theorem eq_of_round (hreads : start.Reads run middle) (hback : middle.Reads rest start) :
    middle = start := by
  have hround := (hreads.trans hback).unique (refl start)
  rw [(List.append_eq_nil_iff.1 hround).1] at hreads
  exact hreads.eq_of_nil

/-- There is nothing to be read behind the end of the file. -/
theorem kind_ne_eof (hreads : start.Reads run stop) (hstop : stop.kind ≠ .eof) :
    start.kind ≠ .eof := by
  intro hstart
  have hahead := hreads.ahead
  rw [kind_eq_eof_iff.1 hstart] at hahead
  exact hstop (kind_eq_eof_iff.2 (List.append_eq_nil_iff.1 hahead.symm).2)

theorem tokens (hreads : start.Reads run stop) : stop.tokens = start.tokens := by
  simp [Cursor.tokens, hreads.ahead, hreads.behind, hreads.eof]

end Reads

theorem ahead_eq_cons {cursor : Cursor} (hkind : cursor.kind ≠ .eof) :
    cursor.ahead = cursor.current :: cursor.next.ahead := by
  have hahead : cursor.ahead ≠ [] := mt kind_eq_eof_iff.2 hkind
  obtain ⟨token, rest, hcons⟩ := List.exists_cons_of_ne_nil hahead
  simp [ahead_next, current, hcons]

theorem behind_next {cursor : Cursor} (hkind : cursor.kind ≠ .eof) :
    cursor.next.behind = cursor.current :: cursor.behind := by
  have hahead := ahead_eq_cons hkind
  unfold next
  split
  · simp_all
  · next hcons => simp [current, hcons]

theorem eof_next (cursor : Cursor) : cursor.next.eof = cursor.eof := by
  unfold next
  split <;> rfl

theorem reads_next {cursor : Cursor} (hkind : cursor.kind ≠ .eof) :
    cursor.Reads [cursor.current] cursor.next where
  ahead := ahead_eq_cons hkind
  behind := behind_next hkind
  eof := eof_next cursor

/-- Behind the next token stands the one of which the look-ahead tells the kind. -/
theorem kind_next {cursor : Cursor} (hkind : cursor.kind ≠ .eof) :
    cursor.next.kind = cursor.kindAt 1 := by
  have hahead := ahead_eq_cons hkind
  cases hnext : cursor.next.ahead with
  | nil =>
      rw [kind_of_ahead_eq_nil hnext]
      simp [kindAt, hahead, hnext]
  | cons token rest =>
      rw [kind_of_ahead_eq_cons hnext]
      simp [kindAt, hahead, hnext]

theorem next_ne {cursor : Cursor} (hkind : cursor.kind ≠ .eof) :
    cursor.next ≠ cursor := by
  intro hnext
  have hbehind := congrArg (fun cursor => cursor.behind.length) hnext
  simp [behind_next hkind] at hbehind

/-- At the end of the file `next` reads nothing. -/
theorem exists_reads_next (cursor : Cursor) : ∃ run, cursor.Reads run cursor.next := by
  by_cases hkind : cursor.kind = .eof
  · rw [next_of_ahead_eq_nil (kind_eq_eof_iff.1 hkind)]
    exact ⟨[], Reads.refl cursor⟩
  · exact ⟨_, reads_next hkind⟩

theorem exists_reads_skipAlong (rule : Skip.Rule) (tokens : List Token) (depth : Nat)
    (cursor : Cursor) : ∃ run, cursor.Reads run (skipAlong rule tokens depth cursor) := by
  induction tokens generalizing depth cursor with
  | nil => exact ⟨[], Reads.refl cursor⟩
  | cons token rest ih =>
      obtain ⟨first, hfirst⟩ := exists_reads_next cursor
      rw [skipAlong]
      split
      · exact ⟨[], Reads.refl cursor⟩
      · exact ⟨first, hfirst⟩
      · next depth _ =>
          obtain ⟨others, hothers⟩ := ih depth cursor.next
          exact ⟨first ++ others, hfirst.trans hothers⟩

theorem exists_reads_skip (rule : Skip.Rule) (cursor : Cursor) :
    ∃ run, cursor.Reads run (cursor.skip rule) :=
  exists_reads_skipAlong rule cursor.ahead 0 cursor

end Cursor

namespace Grammar

variable {α β : Type}

/-- `stop` comes after `start`: tokens were read, diagnostics were added, and the
context is the same again. -/
structure State.Follows (start stop : State) : Prop where
  reads : ∃ run, start.cursor.Reads run stop.cursor
  reports : start.diagnostics.toList <+: stop.diagnostics.toList
  nesting : stop.nesting = start.nesting
  loopDepth : stop.loopDepth = start.loopDepth

namespace State.Follows

variable {start middle stop : State}

theorem refl (start : State) : start.Follows start :=
  ⟨⟨[], .refl _⟩, List.prefix_rfl, rfl, rfl⟩

theorem trans (hfirst : start.Follows middle) (hsecond : middle.Follows stop) :
    start.Follows stop := by
  obtain ⟨run, hrun⟩ := hfirst.reads
  obtain ⟨rest, hrest⟩ := hsecond.reads
  exact ⟨⟨run ++ rest, hrun.trans hrest⟩, hfirst.reports.trans hsecond.reports,
    hsecond.nesting.trans hfirst.nesting, hsecond.loopDepth.trans hfirst.loopDepth⟩

theorem remaining_le (hfollows : start.Follows stop) :
    stop.cursor.remaining ≤ start.cursor.remaining := by
  obtain ⟨run, hrun⟩ := hfollows.reads
  have hremaining := hrun.remaining
  omega

/-- If nothing was read, the cursor is where it was. -/
theorem cursor_eq (hfollows : start.Follows stop)
    (hremaining : start.cursor.remaining ≤ stop.cursor.remaining) :
    stop.cursor = start.cursor := by
  obtain ⟨run, hrun⟩ := hfollows.reads
  have hlength := hrun.remaining
  have hnil : run = [] := List.eq_nil_of_length_eq_zero (by omega)
  subst hnil
  exact hrun.eq_of_nil

end State.Follows

/-- A step that only moves forward. -/
def Orderly (step : Step α) : Prop :=
  ∀ start : State, start.Follows (step.run start).2

namespace Orderly

variable {step : Step α}

/-- Whatever stays true while the state moves forward is kept by the step. -/
theorem keeps (hstep : Orderly step) {stays : State → Prop}
    (hstays : ∀ start stop, start.Follows stop → stays start → stays stop) :
    Meets stays step fun _ => stays :=
  fun state hstate => hstays state _ (hstep state) hstate

protected theorem pure (value : α) : Orderly (pure value : Step α) :=
  State.Follows.refl

protected theorem bind {next : α → Step β} (hstep : Orderly step)
    (hnext : ∀ value, Orderly (next value)) : Orderly (step >>= next) :=
  fun start => (hstep start).trans (hnext _ _)

protected theorem ite {condition : Prop} [Decidable condition] {other : Step α}
    (hstep : Orderly step) (hother : Orderly other) :
    Orderly (if condition then step else other) := by
  split
  · exact hstep
  · exact hother

theorem run_ite {condition : Prop} [Decidable condition]
    {first second : Production α} (hfirst : Orderly first.run)
    (hsecond : Orderly second.run) :
    Orderly (if condition then first else second).run := by
  split
  · exact hfirst
  · exact hsecond

theorem run_pure (value : α) : Orderly (pure value : Production α).run :=
  State.Follows.refl

theorem run_throw (bad : BadNode) : Orderly (throw bad : Production α).run :=
  State.Follows.refl

theorem run_lift (hstep : Orderly step) : Orderly (liftM step : Production α).run :=
  hstep

theorem run_bind {production : Production α} {next : α → Production β}
    (hproduction : Orderly production.run) (hnext : ∀ value, Orderly (next value).run) :
    Orderly (production >>= next).run := by
  rw [ExceptT.run_bind]
  apply Orderly.bind hproduction
  intro outcome
  cases outcome with
  | ok value => exact hnext value
  | error bad => exact Orderly.pure _

theorem meets_follows (hstep : Orderly step) (start : State) :
    Meets (· = start) step fun _ => start.Follows := by
  intro state hstate
  rcases hstate with rfl
  exact hstep _

theorem run_keeps {production : Production α} (hproduction : Orderly production.run)
    {stays : State → Prop}
    (hstays : ∀ start stop, start.Follows stop → stays start → stays stop) :
    Yields stays production (fun _ => stays) fun _ => stays := by
  refine Meets.weaken (hproduction.keeps hstays) fun outcome state hstate => ?_
  cases outcome <;> exact hstate

/-- Behind a production the state comes after the one before it. -/
theorem run_follows {production : Production α} (hproduction : Orderly production.run)
    (start : State) :
    Yields (· = start) production (fun _ => start.Follows) fun _ => start.Follows := by
  refine Meets.weaken (hproduction.meets_follows start) fun outcome state hstate => ?_
  cases outcome <;> exact hstate

end Orderly

/-- Looking at the state changes nothing. -/
theorem get_orderly {look : State → α} : Orderly (do return look (← get) : Step α) :=
  State.Follows.refl

theorem cover_orderly (first : Token) (bad : BadNode) : Orderly (cover first bad) :=
  State.Follows.refl

theorem moveCursor_orderly {move : Cursor → Cursor}
    (hmove : ∀ cursor : Cursor, ∃ run, cursor.Reads run (move cursor)) :
    Orderly (moveCursor move) :=
  fun start => ⟨hmove start.cursor, List.prefix_rfl, rfl, rfl⟩

theorem moveNext_orderly : Orderly (moveCursor Cursor.next) :=
  moveCursor_orderly Cursor.exists_reads_next

theorem skip_orderly (rule : Skip.Rule) : Orderly (skip rule) :=
  moveCursor_orderly (Cursor.exists_reads_skip rule)

theorem advance_orderly : Orderly advance :=
  .bind get_orderly fun _ => .bind moveNext_orderly fun _ => .pure _

theorem accept?_orderly (kind : Kind) : Orderly (accept? kind) :=
  .bind get_orderly fun _ => .ite (.bind advance_orderly fun _ => .pure _) (.pure _)

theorem stepOverUnless_orderly (needed : Kind → Bool) :
    Orderly (stepOverUnless needed) :=
  .bind get_orderly fun _ => .ite (.pure _) moveNext_orderly

theorem skipUnexpected_orderly : Orderly skipUnexpected := stepOverUnless_orderly _

theorem report_orderly (diagnostic : Diagnostic) (first last : Token) :
    Orderly (report diagnostic first last) := by
  intro start
  refine ⟨⟨[], .refl _⟩, ⟨[diagnostic], ?_⟩, rfl, rfl⟩
  exact (Array.toList_push ..).symm

theorem reportHere_orderly (diagnostic : Diagnostic) :
    Orderly (reportHere diagnostic) :=
  .bind get_orderly fun _ => report_orderly _ _ _

theorem fail_orderly (diagnostic : Diagnostic) (first last : Token) :
    Orderly (fail diagnostic first last : Production α).run :=
  .run_bind (report_orderly diagnostic first last) fun _ => .run_throw _

theorem failHere_orderly (diagnostic : Diagnostic) :
    Orderly (failHere diagnostic : Production α).run :=
  .run_bind (reportHere_orderly _) fun _ => .run_throw _

theorem failExpected_orderly (code : ErrorCode) (what : String) :
    Orderly (do failHere (← expectedHere code what) : Production α).run :=
  .run_bind get_orderly fun _ => failHere_orderly _

theorem failTooDeep_orderly : Orderly (failTooDeep : Production α).run :=
  .run_bind get_orderly fun _ => failHere_orderly _

theorem expectAs_orderly (code : ErrorCode) (kind : Kind) (what : String) :
    Orderly (expectAs code kind what).run := by
  refine .run_bind get_orderly fun _ => .run_ite advance_orderly ?_
  refine .run_bind get_orderly fun _ => .run_bind (reportHere_orderly _) fun _ => ?_
  exact .run_bind skipUnexpected_orderly fun _ => .run_throw _

theorem expect_orderly (kind : Kind) (what : String) :
    Orderly (expect kind what).run :=
  expectAs_orderly _ kind what

theorem expectName_orderly (what : String) : Orderly (expectName what).run :=
  expectAs_orderly _ .ident what

section Recovering

variable {production : Production α}

theorem onFailure_orderly {repair : BadNode → Step BadNode}
    (hproduction : Orderly production.run) (hrepair : ∀ bad, Orderly (repair bad)) :
    Orderly (onFailure production repair).run := by
  apply hproduction.bind
  intro outcome
  cases outcome with
  | ok value => exact .pure _
  | error bad => exact (hrepair bad).bind fun _ => .pure _

theorem covering_orderly (first : Token) (hproduction : Orderly production.run) :
    Orderly (covering first production).run :=
  onFailure_orderly hproduction (cover_orderly first)

theorem skipping_orderly (rule : Skip.Rule) (hproduction : Orderly production.run) :
    Orderly (skipping rule production).run :=
  onFailure_orderly hproduction fun _ => .bind (skip_orderly rule) fun _ => .pure _

theorem attempt_orderly (hproduction : Orderly production.run) :
    Orderly (attempt production).run :=
  .run_lift hproduction

theorem settle_orderly (outcome : Except BadNode α) : Orderly (settle outcome).run :=
  State.Follows.refl

theorem recoverWith_orderly (rule : Skip.Rule) (first : Token) (ofBad : BadNode → α)
    (hproduction : Orderly production.run) :
    Orderly (recoverWith rule first ofBad production) := by
  apply hproduction.bind
  intro outcome
  cases outcome with
  | ok value => exact .pure _
  | error bad =>
      exact .bind (skip_orderly rule) fun _ => .bind (cover_orderly _ _) fun _ => .pure _

theorem unlessAt_orderly (kind : Kind) (hproduction : Orderly production.run) :
    Orderly (unlessAt kind production).run := by
  refine .run_bind get_orderly fun _ => .run_ite (.run_pure _) ?_
  exact .run_bind hproduction fun _ => .run_pure _

/-- What happens between two changes of the context is orderly if the second change
takes the first one back. -/
theorem between_orderly {enter leave : State → State}
    (hproduction : Orderly production.run)
    (hleave : ∀ start stop, (enter start).Follows stop → start.Follows (leave stop)) :
    Orderly (between enter leave production).run :=
  fun start => hleave start _ (hproduction (enter start))

theorem descend_orderly (hproduction : Orderly production.run) :
    Orderly (descend production).run := by
  refine .run_bind State.Follows.refl fun _ => .run_ite failTooDeep_orderly ?_
  apply between_orderly hproduction
  intro start stop hstop
  exact ⟨hstop.reads, hstop.reports, by simp [hstop.nesting], hstop.loopDepth⟩

end Recovering

/-- A step that moves forward, and that reads at least one token unless it stands at
the end of the file. -/
structure Consumes (step : Step α) : Prop where
  orderly : Orderly step
  reads : ∀ bound, Meets
    (fun state => state.cursor.remaining ≤ bound ∧ state.cursor.kind ≠ .eof) step
    fun _ state => state.cursor.remaining < bound

/-- A production that moves forward, and that reads at least one token if it
succeeds. -/
structure ConsumesOrFails (production : Production α) : Prop where
  orderly : Orderly production.run
  reads : ∀ bound, Yields (fun state => state.cursor.remaining ≤ bound) production
    (fun _ state => state.cursor.remaining < bound) fun _ _ => True

theorem Orderly.remaining_lt {step : Step α} (hstep : Orderly step) (bound : Nat) :
    Meets (fun state => state.cursor.remaining < bound) step
      fun _ state => state.cursor.remaining < bound :=
  hstep.keeps fun _ _ hfollows hstart => Nat.lt_of_le_of_lt hfollows.remaining_le hstart

namespace Consumes

variable {step : Step α}

protected theorem bind {next : α → Step β} (hstep : Consumes step)
    (hnext : ∀ value, Orderly (next value)) : Consumes (step >>= next) where
  orderly := hstep.orderly.bind hnext
  reads bound := .bind (hstep.reads bound) fun value => (hnext value).remaining_lt bound

/-- A step that moves no cursor may come first. -/
theorem after {next : α → Step β} (hstep : Orderly step)
    (hstays : ∀ state, (step.run state).2.cursor = state.cursor)
    (hnext : ∀ value, Consumes (next value)) : Consumes (step >>= next) where
  orderly := hstep.bind fun value => (hnext value).orderly
  reads bound := by
    intro state hstate
    apply (hnext (step.run state).1).reads bound (step.run state).2
    simpa only [hstays state] using hstate

theorem after_get {look : State → α} {next : α → Step β}
    (hnext : ∀ value, Consumes (next value)) :
    Consumes ((do return look (← get)) >>= next) :=
  after get_orderly (fun _ => rfl) hnext

protected theorem ite {condition : Prop} [Decidable condition] {other : Step α}
    (hstep : Consumes step) (hother : Consumes other) :
    Consumes (if condition then step else other) := by
  split
  · exact hstep
  · exact hother

theorem run_lift (hstep : Consumes step) : Consumes (liftM step : Production α).run :=
  ⟨hstep.orderly, hstep.reads⟩

theorem run_bind {production : Production α} {next : α → Production β}
    (hproduction : Consumes production.run) (hnext : ∀ value, Orderly (next value).run) :
    Consumes (production >>= next).run := by
  rw [ExceptT.run_bind]
  apply hproduction.bind
  intro outcome
  cases outcome with
  | ok value => exact hnext value
  | error bad => exact .pure _

/-- A step inside a production that moves no cursor may come first. -/
theorem run_after {next : α → Production β} (hstep : Orderly step)
    (hstays : ∀ state, (step.run state).2.cursor = state.cursor)
    (hnext : ∀ value, Consumes (next value).run) :
    Consumes ((liftM step : Production α) >>= next).run := by
  refine ⟨.run_bind (.run_lift hstep) fun value => (hnext value).orderly, ?_⟩
  exact (after hstep hstays hnext).reads

end Consumes

theorem moveNext_consumes : Consumes (moveCursor Cursor.next) where
  orderly := moveNext_orderly
  reads bound := by
    intro state hstate
    have hremaining := (Cursor.reads_next hstate.2).remaining
    have hbound := hstate.1
    change state.cursor.next.remaining < bound
    simp only [List.length_singleton] at hremaining
    omega

theorem advance_consumes : Consumes advance :=
  .after_get fun _ => moveNext_consumes.bind fun _ => .pure _

theorem recoverWith_consumes (rule : Skip.Rule) (first : Token) (ofBad : BadNode → α)
    {production : Production α} (hproduction : Consumes production.run) :
    Consumes (recoverWith rule first ofBad production) := by
  apply hproduction.bind
  intro outcome
  cases outcome with
  | ok value => exact .pure _
  | error bad =>
      exact .bind (skip_orderly rule) fun _ => .bind (cover_orderly _ _) fun _ => .pure _

namespace ConsumesOrFails

protected theorem bind {production : Production α} {next : α → Production β}
    (hproduction : ConsumesOrFails production) (hnext : ∀ value, Orderly (next value).run) :
    ConsumesOrFails (production >>= next) where
  orderly := .run_bind hproduction.orderly hnext
  reads bound := .bind (hproduction.reads bound) fun value =>
    ((hnext value).run_keeps fun _ _ hfollows hstart =>
      Nat.lt_of_le_of_lt hfollows.remaining_le hstart).weaken
        (fun _ _ hstate => hstate) fun _ _ _ => trivial

end ConsumesOrFails

theorem expectAs_consumesOrFails (code : ErrorCode) {kind : Kind} (what : String)
    (hkind : kind ≠ .eof) : ConsumesOrFails (expectAs code kind what) where
  orderly := expectAs_orderly code kind what
  reads bound := by
    apply Yields.bind (.lift currentKind_meets)
    intro found
    split
    · refine .lift ((advance_consumes.reads bound).strengthen ?_)
      intro state hstate
      rcases hstate with ⟨hremaining, rfl⟩
      simp_all
    · exact .bind (.lift .top) fun _ => .bind (.lift .top) fun _ =>
        .bind (.lift .top) fun _ => .throw fun _ _ => trivial

theorem expectName_consumesOrFails (what : String) : ConsumesOrFails (expectName what) :=
  expectAs_consumesOrFails _ what (by decide)

/-- What holds behind a pass of a loop: `going` if another pass follows, and `ended`
if it was the last one. -/
def Turns (going ended : β → State → Prop) : ForInStep β → State → Prop
  | .yield gathered => going gathered
  | .done result => ended result

/-- A pass that reads a token whenever another pass follows. -/
def Gains (pass : β → Step (ForInStep β)) : Prop :=
  ∀ gathered bound, Meets (fun state => state.cursor.remaining ≤ bound) (pass gathered)
    (Turns (fun _ state => state.cursor.remaining < bound) fun _ _ => True)

/-- A pass that reads a token whenever it succeeds and another pass follows. -/
def GainsOrFails (pass : β → Production (ForInStep β)) : Prop :=
  ∀ gathered bound, Yields (fun state => state.cursor.remaining ≤ bound) (pass gathered)
    (Turns (fun _ state => state.cursor.remaining < bound) fun _ _ => True)
    fun _ _ => True

/-- The outcome of a pass that read a token. -/
theorem Turns.of_lt {bound : Nat} {step : ForInStep β} {state : State}
    (hstate : state.cursor.remaining < bound) :
    Turns (fun _ state => state.cursor.remaining < bound) (fun _ _ => True) step state := by
  cases step with
  | yield gathered => exact hstate
  | done result => trivial

section Loops

variable {going ended : β → State → Prop}

theorem Meets.passes {pass : β → Step (ForInStep β)} (hgains : Gains pass)
    (hpass : ∀ gathered, Meets (going gathered) (pass gathered) (Turns going ended))
    (bound : Nat) (gathered : β) :
    Meets (fun state => going gathered state ∧ state.cursor.remaining < bound)
      (passes pass bound gathered) ended := by
  induction bound generalizing gathered with
  | zero => exact fun state hstate => absurd hstate.2 (Nat.not_lt_zero _)
  | succ bound ih =>
      have hturn : Meets (fun state => going gathered state ∧ state.cursor.remaining ≤ bound)
          (pass gathered) fun step state => Turns going ended step state ∧
            Turns (fun _ state => state.cursor.remaining < bound) (fun _ _ => True) step state :=
        .and ((hpass gathered).strengthen fun _ hstate => hstate.1)
          ((hgains gathered bound).strengthen fun _ hstate => hstate.2)
      refine .bind (hturn.strengthen fun _ hstate => ⟨hstate.1, Nat.le_of_lt_succ hstate.2⟩)
        fun step => ?_
      cases step with
      | yield gathered => exact ih gathered
      | done result => exact .pure fun _ hstate => hstate.1

/-- A loop ends because a pass was the last one. -/
theorem Meets.repeatStep {pass : β → Step (ForInStep β)} (hgains : Gains pass)
    (hpass : ∀ gathered, Meets (going gathered) (pass gathered) (Turns going ended))
    (gathered : β) : Meets (going gathered) (repeatStep pass gathered) ended :=
  fun state hstate =>
    Meets.passes hgains hpass (state.cursor.remaining + 1) gathered state
      ⟨hstate, Nat.lt_succ_self _⟩

theorem Yields.passes {pass : β → Production (ForInStep β)} {failed : BadNode → State → Prop}
    (hgains : GainsOrFails pass)
    (hpass : ∀ gathered, Yields (going gathered) (pass gathered) (Turns going ended) failed)
    (bound : Nat) (gathered : β) :
    Yields (fun state => going gathered state ∧ state.cursor.remaining < bound)
      (passes pass bound gathered) ended failed := by
  induction bound generalizing gathered with
  | zero => exact fun state hstate => absurd hstate.2 (Nat.not_lt_zero _)
  | succ bound ih =>
      have hturn : Yields (fun state => going gathered state ∧ state.cursor.remaining ≤ bound)
          (pass gathered) (fun step state => Turns going ended step state ∧
            Turns (fun _ state => state.cursor.remaining < bound) (fun _ _ => True) step state)
          failed :=
        .and_succeeded ((hpass gathered).strengthen fun _ hstate => hstate.1)
          ((hgains gathered bound).strengthen fun _ hstate => hstate.2)
      apply Yields.bind (hturn.strengthen fun _ hstate => ⟨hstate.1, Nat.le_of_lt_succ hstate.2⟩)
      intro step
      cases step with
      | yield gathered => exact ih gathered
      | done result => exact .pure fun _ hstate => hstate.1

/-- A loop ends because a pass was the last one or failed. -/
theorem Yields.repeatProduction {pass : β → Production (ForInStep β)}
    {failed : BadNode → State → Prop} (hgains : GainsOrFails pass)
    (hpass : ∀ gathered, Yields (going gathered) (pass gathered) (Turns going ended) failed)
    (gathered : β) : Yields (going gathered) (repeatProduction pass gathered) ended failed :=
  fun state hstate =>
    Yields.passes hgains hpass (state.cursor.remaining + 1) gathered state
      ⟨hstate, Nat.lt_succ_self _⟩

theorem repeatStep_orderly {pass : β → Step (ForInStep β)}
    (hpass : ∀ gathered, Orderly (pass gathered)) (gathered : β) :
    Orderly (repeatStep pass gathered) := by
  suffices hpasses : ∀ bound gathered, Orderly (passes pass bound gathered) from
    .bind get_orderly fun bound => hpasses bound gathered
  intro bound
  induction bound with
  | zero => exact fun _ => .pure _
  | succ bound ih =>
      refine fun gathered => (hpass gathered).bind fun step => ?_
      cases step with
      | yield gathered => exact ih gathered
      | done result => exact .pure _

theorem repeatProduction_orderly {pass : β → Production (ForInStep β)}
    (hpass : ∀ gathered, Orderly (pass gathered).run) (gathered : β) :
    Orderly (repeatProduction pass gathered).run := by
  suffices hpasses : ∀ bound gathered, Orderly (passes pass bound gathered).run from
    .run_bind get_orderly fun bound => hpasses bound gathered
  intro bound
  induction bound with
  | zero => exact fun _ => .run_pure _
  | succ bound ih =>
      refine fun gathered => .run_bind (hpass gathered) fun step => ?_
      cases step with
      | yield gathered => exact ih gathered
      | done result => exact .run_pure _

end Loops

end Grammar

end OriSyntax
