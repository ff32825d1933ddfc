import OriSyntax.Proofs.Coupling

/-!
Steps that do the same in two coupled runs.  The rules follow the way steps are put together:
that the runs of a construct mirror each other is read off its parts.  What is known of the
values that were made so far is carried along as a proposition, since the runs are compared
only as long as the first one stays clean, and that is told at its end.
-/

namespace OriSyntax.Grammar

variable {α β : Type} {c : Coupling} {tight : Bool} {known : Prop}

/-- Where it is `known` and both runs begin in states that `pre` allows, they end in related
states with outcomes that `rel` allows, provided that the first run ends clean. -/
structure MirrorsFrom (c : Coupling) (tight : Bool) (known : Prop) (pre : State → State → Prop)
    (step step' : Step α) (rel : α → α → Prop) : Prop where
  orderly : Orderly step
  ends : known → ∀ start start', pre start start' → c.Clean tight (step.run start).2 →
    rel (step.run start).1 (step'.run start').1 ∧
      c.Relates (step.run start).2 (step'.run start').2

/-- Related states, of which `here` is true. -/
def Coupling.At (c : Coupling) (here : State → Prop) (state state' : State) : Prop :=
  c.Relates state state' ∧ here state

/-- The steps do the same from related states on of which `here` is true. -/
abbrev MirrorsAt (c : Coupling) (tight : Bool) (known : Prop) (here : State → Prop)
    (step step' : Step α) (rel : α → α → Prop) : Prop :=
  MirrorsFrom c tight known (c.At here) step step' rel

/-- The steps do the same from related states on. -/
abbrev Mirrors (c : Coupling) (tight : Bool) (known : Prop) (step step' : Step α)
    (rel : α → α → Prop) : Prop :=
  MirrorsAt c tight known (fun _ => True) step step' rel

/-- Both productions succeed or both fail. -/
inductive Outcome (c : Coupling) (rel : α → α → Prop) :
    Except BadNode α → Except BadNode α → Prop where
  | ok {value value' : α} (hvalue : rel value value') : Outcome c rel (.ok value) (.ok value')
  | error {bad bad' : BadNode} (hbad : c.like.bad bad bad') :
      Outcome c rel (.error bad) (.error bad')

theorem Outcome.mono {rel rel' : α → α → Prop} {outcome outcome' : Except BadNode α}
    (houtcome : Outcome c rel outcome outcome')
    (hrel : ∀ value value', rel value value' → rel' value value') :
    Outcome c rel' outcome outcome' := by
  cases houtcome with
  | ok hvalue => exact .ok (hrel _ _ hvalue)
  | error hbad => exact .error hbad

abbrev MirrorsOrFailsAt (c : Coupling) (tight : Bool) (known : Prop) (here : State → Prop)
    (production production' : Production α) (rel : α → α → Prop) : Prop :=
  MirrorsAt c tight known here production.run production'.run (Outcome c rel)

abbrev MirrorsOrFails (c : Coupling) (tight : Bool) (known : Prop)
    (production production' : Production α) (rel : α → α → Prop) : Prop :=
  MirrorsOrFailsAt c tight known (fun _ => True) production production' rel

/-- There is a token ahead. -/
def Inside (state : State) : Prop := state.cursor.kind ≠ .eof

namespace MirrorsFrom

variable {pre : State → State → Prop} {here : State → Prop}

section Steps

variable {step step' : Step α} {rel mid : α → α → Prop} {next next' : α → Step β}
  {relNext : β → β → Prop}

theorem mono {known' : Prop} {pre' : State → State → Prop} {rel' : α → α → Prop}
    (hstep : MirrorsFrom c tight known pre step step' rel)
    (hpre : known' → ∀ state state', pre' state state' → known ∧ pre state state')
    (hrel : known' → ∀ value value', rel value value' → rel' value value') :
    MirrorsFrom c tight known' pre' step step' rel' := by
  refine ⟨hstep.orderly, fun hknown start start' hstart hclean => ?_⟩
  obtain ⟨hknown', hpre⟩ := hpre hknown start start' hstart
  obtain ⟨hvalue, hstop⟩ := hstep.ends hknown' start start' hpre hclean
  exact ⟨hrel hknown _ _ hvalue, hstop⟩

theorem weaken {rel' : α → α → Prop} (hstep : MirrorsFrom c tight known pre step step' rel)
    (hrel : known → ∀ value value', rel value value' → rel' value value') :
    MirrorsFrom c tight known pre step step' rel' :=
  hstep.mono (fun hknown _ _ hpre => ⟨hknown, hpre⟩) hrel

/-- What is mirrored whatever is known is mirrored here. -/
theorem anyhow (hstep : Mirrors c tight True step step' rel) :
    MirrorsAt c tight known here step step' rel :=
  hstep.mono (fun _ _ _ hpre => ⟨trivial, hpre.1, trivial⟩) fun _ _ _ hvalue => hvalue

/-- What is known may be more than is needed. -/
theorem knowing {known' : Prop} (hstep : MirrorsFrom c tight known pre step step' rel)
    (hknown : known' → known) : MirrorsFrom c tight known' pre step step' rel :=
  hstep.mono (fun hknown' _ _ hpre => ⟨hknown hknown', hpre⟩) fun _ _ _ hvalue => hvalue

theorem strengthen {there : State → Prop} (hstep : MirrorsAt c tight known here step step' rel)
    (hthere : ∀ state, there state → here state) :
    MirrorsAt c tight known there step step' rel :=
  hstep.mono (fun hknown _ _ hpre => ⟨hknown, hpre.1, hthere _ hpre.2⟩)
    fun _ _ _ hvalue => hvalue

/-- What is true anywhere is true here. -/
theorem at_here (hstep : Mirrors c tight known step step' rel) :
    MirrorsAt c tight known here step step' rel :=
  hstep.strengthen fun _ _ => trivial

theorem of_not_known (horderly : Orderly step) (hknown : ¬ known) :
    MirrorsFrom c tight known pre step step' rel :=
  ⟨horderly, fun h => absurd h hknown⟩

protected theorem pure {value value' : α} (hvalue : known → rel value value') :
    MirrorsAt c tight known here (pure value) (pure value') rel :=
  ⟨.pure value, fun hknown _ _ hstart _ => ⟨hvalue hknown, hstart.1⟩⟩

/-- One step after the other, with what both runs are known to leave behind. -/
theorem bind_both (there there' : α → State → Prop)
    (hstep : MirrorsFrom c tight known pre step step' mid)
    (hthere : ∀ state state', pre state state' → there (step.run state).1 (step.run state).2)
    (hthere' : ∀ state state', pre state state' →
      there' (step'.run state').1 (step'.run state').2)
    (hnext : ∀ value value', MirrorsFrom c tight (known ∧ mid value value')
      (fun state state' => c.Relates state state' ∧ there value state ∧ there' value' state')
      (next value) (next' value') relNext) :
    MirrorsFrom c tight known pre (step >>= next) (step' >>= next') relNext := by
  refine ⟨hstep.orderly.bind fun value => (hnext value value).orderly, ?_⟩
  intro hknown start start' hstart hclean
  rw [StateT.run_bind] at hclean ⊢
  rw [StateT.run_bind]
  have hmiddle := hclean.before ((hnext _ (step.run start).1).orderly _)
  obtain ⟨hvalue, hrelates⟩ := hstep.ends hknown start start' hstart hmiddle
  exact (hnext _ _).ends ⟨hknown, hvalue⟩ _ _
    ⟨hrelates, hthere start start' hstart, hthere' start start' hstart⟩ hclean

protected theorem bind (hstep : MirrorsFrom c tight known pre step step' mid)
    (hnext : ∀ value value',
      Mirrors c tight (known ∧ mid value value') (next value) (next' value') relNext) :
    MirrorsFrom c tight known pre (step >>= next) (step' >>= next') relNext :=
  bind_both (fun _ _ => True) (fun _ _ => True) hstep
    (fun _ _ _ => trivial) (fun _ _ _ => trivial) fun value value' =>
      (hnext value value').mono (fun hknown _ _ hpre => ⟨hknown, hpre.1, trivial⟩)
        fun _ _ _ hvalue => hvalue

/-- The first step may tell where it ends. -/
theorem bind_meets (there : α → State → Prop)
    (hstep : MirrorsAt c tight known here step step' mid) (hthere : Meets here step there)
    (hnext : ∀ value value', MirrorsAt c tight (known ∧ mid value value') (there value)
      (next value) (next' value') relNext) :
    MirrorsAt c tight known here (step >>= next) (step' >>= next') relNext :=
  bind_both there (fun _ _ => True) hstep (fun _ _ hstart => hthere _ hstart.2)
    (fun _ _ _ => trivial) fun value value' =>
      (hnext value value').mono (fun hknown _ _ hpre => ⟨hknown, hpre.1, hpre.2.1⟩)
        fun _ _ _ hvalue => hvalue

theorem ite {condition condition' : Prop} [Decidable condition] [Decidable condition']
    {other other' : Step α} (hiff : known → (condition ↔ condition'))
    (hstep : condition → MirrorsFrom c tight known pre step step' rel)
    (hother : ¬ condition → MirrorsFrom c tight known pre other other' rel) :
    MirrorsFrom c tight known pre (if condition then step else other)
      (if condition' then step' else other') rel := by
  split
  · next hcondition =>
      refine ⟨(hstep hcondition).orderly, fun hknown => ?_⟩
      rw [if_pos ((hiff hknown).1 hcondition)]
      exact (hstep hcondition).ends hknown
  · next hcondition =>
      refine ⟨(hother hcondition).orderly, fun hknown => ?_⟩
      rw [if_neg (mt (hiff hknown).2 hcondition)]
      exact (hother hcondition).ends hknown

/-- Places may be told apart. -/
theorem by_place (there : State → Prop)
    (hstep : MirrorsAt c tight known (fun state => here state ∧ there state) step step' rel)
    (hother : MirrorsAt c tight known (fun state => here state ∧ ¬ there state) step step' rel) :
    MirrorsAt c tight known here step step' rel := by
  refine ⟨hstep.orderly, fun hknown start start' hstart hclean => ?_⟩
  by_cases hthere : there start
  · exact hstep.ends hknown start start' ⟨hstart.1, hstart.2, hthere⟩ hclean
  · exact hother.ends hknown start start' ⟨hstart.1, hstart.2, hthere⟩ hclean

/-- Looking at the states does not change them. -/
theorem look_from (seen seen' : State → α) (mid : α → α → Prop)
    (hseen : known → ∀ state state', pre state state' → mid (seen state) (seen' state'))
    (hnext : ∀ value value', MirrorsFrom c tight (known ∧ mid value value')
      (fun state state' => pre state state' ∧ value = seen state) (next value) (next' value')
      relNext) :
    MirrorsFrom c tight known pre ((do return seen (← get)) >>= next)
      ((do return seen' (← get)) >>= next') relNext := by
  refine ⟨get_orderly.bind fun value => (hnext value value).orderly, ?_⟩
  intro hknown start start' hstart
  exact (hnext _ _).ends ⟨hknown, hseen hknown start start' hstart⟩ start start' ⟨hstart, rfl⟩

theorem look (seen seen' : State → α) (mid : α → α → Prop)
    (hseen : known → ∀ state state', c.At here state state' → mid (seen state) (seen' state'))
    (hnext : ∀ value value', MirrorsAt c tight (known ∧ mid value value')
      (fun state => here state ∧ value = seen state) (next value) (next' value') relNext) :
    MirrorsAt c tight known here ((do return seen (← get)) >>= next)
      ((do return seen' (← get)) >>= next') relNext :=
  look_from seen seen' mid hseen fun value value' => (hnext value value').mono
    (fun hknown _ _ hstart => ⟨hknown, hstart.1.1, hstart.1.2, hstart.2⟩) fun _ _ _ hvalue => hvalue

/-- A value matters only through what is known to be the same in both runs. -/
theorem of_same {γ : Type} (same : α → γ) {pre : α → α → State → State → Prop}
    (hsame : ∀ value value', same value' = same value → MirrorsFrom c tight
      (known ∧ mid value value') (pre value value') (next value) (next' value') relNext)
    (hmid : ∀ value value', mid value value' → same value' = same value) (value value' : α) :
    MirrorsFrom c tight (known ∧ mid value value') (pre value value') (next value) (next' value')
      relNext := by
  by_cases hvalue : same value' = same value
  · exact hsame value value' hvalue
  · exact .of_not_known (hsame value value rfl).orderly fun hknown => hvalue (hmid _ _ hknown.2)

/-- Where the first run certainly reports something, there is nothing to compare, unless both
runs end together. -/
theorem of_reports (hapart : known → ∀ state, here state → ¬ c.Together)
    (horderly : Orderly step) (hreports : Reports here step) :
    MirrorsAt c tight known here step step' rel := by
  refine ⟨horderly, fun hknown start start' hstart hclean => ?_⟩
  have hsize := (hclean (hapart hknown start hstart.2)).1
  have hmore := hreports start hstart.2
  have htold := hstart.1.told_le
  omega

/-- Nor is there anything to compare where the first run comes to its end in a tight place. -/
theorem of_runs_out (hapart : known → ∀ state, here state → ¬ c.Together ∧ tight)
    (horderly : Orderly step) (hend : Meets here step fun _ state => state.cursor.ahead = []) :
    MirrorsAt c tight known here step step' rel := by
  refine ⟨horderly, fun hknown start start' hstart hclean => ?_⟩
  obtain ⟨hapart, htight⟩ := hapart hknown start hstart.2
  exact absurd (hend start hstart.2) ((hclean hapart).2 htight)

/-- If what follows reports at the end of the file, the first step is compared only where it
ends before. -/
theorem bind_closing (hstep : MirrorsFrom c true known pre step step' mid)
    (hpre : ∀ state state', pre state state' → c.Near state state')
    (hcloses : ∀ value, Reports (Facing .eof) (next value))
    (hnext : ∀ value value',
      Mirrors c tight (known ∧ mid value value') (next value) (next' value') relNext) :
    MirrorsFrom c tight known pre (step >>= next) (step' >>= next') relNext := by
  refine ⟨hstep.orderly.bind fun value => (hnext value value).orderly, ?_⟩
  intro hknown start start' hstart hclean
  rw [StateT.run_bind] at hclean ⊢
  rw [StateT.run_bind]
  have hmiddle : c.Clean true (step.run start).2 := by
    intro hapart
    have hfollows := (hnext (step.run start).1 (step.run start).1).orderly (step.run start).2
    refine ⟨(hclean.before hfollows hapart).1, fun _ hnil => ?_⟩
    have hmore := hcloses (step.run start).1 _ (Cursor.kind_eq_eof_iff.2 hnil)
    have hsize : ((next (step.run start).1).run (step.run start).2).2.diagnostics.size ≤
      c.told.length := (hclean hapart).1
    have hbefore := (hstep.orderly start).reaches.size_le
    have htold := (hpre start start' hstart).told_le
    omega
  obtain ⟨hvalue, hrelates⟩ := hstep.ends hknown start start' hstart hmiddle
  exact (hnext _ _).ends ⟨hknown, hvalue⟩ _ _ ⟨hrelates, trivial⟩ hclean

end Steps

section Productions

variable {production production' : Production α} {step step' : Step α} {rel mid : α → α → Prop}
  {next next' : α → Production β} {relNext : β → β → Prop}

theorem run_pure {value value' : α} (hvalue : known → rel value value') :
    MirrorsAt c tight known here (pure value : Production α).run (pure value' : Production α).run
      (Outcome c rel) :=
  MirrorsFrom.pure fun hknown => .ok (hvalue hknown)

theorem run_throw {bad bad' : BadNode} (hbad : known → c.like.bad bad bad') :
    MirrorsAt c tight known here (throw bad : Production α).run (throw bad' : Production α).run
      (Outcome c rel) :=
  MirrorsFrom.pure fun hknown => .error (hbad hknown)

/-- What goes on from an outcome goes on from a success or from a failure. -/
theorem of_outcome (pre : Except BadNode α → Except BadNode α → State → State → Prop)
    {next next' : Except BadNode α → Step β}
    (hok : ∀ value value', MirrorsFrom c tight (known ∧ mid value value')
      (pre (.ok value) (.ok value')) (next (.ok value)) (next' (.ok value')) relNext)
    (herror : ∀ bad bad', MirrorsFrom c tight (known ∧ c.like.bad bad bad')
      (pre (.error bad) (.error bad')) (next (.error bad)) (next' (.error bad')) relNext)
    (outcome outcome' : Except BadNode α) :
    MirrorsFrom c tight (known ∧ Outcome c mid outcome outcome') (pre outcome outcome')
      (next outcome) (next' outcome') relNext := by
  cases outcome with
  | ok value =>
      cases outcome' with
      | ok value' =>
          refine (hok value value').knowing fun hknown => ⟨hknown.1, ?_⟩
          cases hknown.2 with
          | ok hvalue => exact hvalue
      | error bad' => exact .of_not_known (hok value value).orderly fun hknown => nomatch hknown.2
  | error bad =>
      cases outcome' with
      | ok value' => exact .of_not_known (herror bad bad).orderly fun hknown => nomatch hknown.2
      | error bad' =>
          refine (herror bad bad').knowing fun hknown => ⟨hknown.1, ?_⟩
          cases hknown.2 with
          | error hbad => exact hbad

/-- What follows a production may go on from its failure. -/
theorem bind_run {next next' : Except BadNode α → Step β}
    (hproduction : MirrorsFrom c tight known pre production.run production'.run (Outcome c mid))
    (hok : ∀ value value', Mirrors c tight (known ∧ mid value value') (next (.ok value))
      (next' (.ok value')) relNext)
    (herror : ∀ bad bad', Mirrors c tight (known ∧ c.like.bad bad bad') (next (.error bad))
      (next' (.error bad')) relNext) :
    MirrorsFrom c tight known pre (production.run >>= next) (production'.run >>= next')
      relNext :=
  .bind hproduction (of_outcome (fun _ _ => c.At fun _ => True) hok herror)

theorem run_bind
    (hproduction : MirrorsFrom c tight known pre production.run production'.run (Outcome c mid))
    (hnext : ∀ value value', MirrorsOrFails c tight (known ∧ mid value value') (next value)
      (next' value') relNext) :
    MirrorsFrom c tight known pre (production >>= next).run (production' >>= next').run
      (Outcome c relNext) := by
  rw [ExceptT.run_bind, ExceptT.run_bind]
  exact bind_run hproduction hnext fun bad bad' => .pure fun hknown => .error hknown.2

/-- The first production may tell where it ends. -/
theorem run_bind_yields {there : α → State → Prop}
    (hproduction : MirrorsOrFailsAt c tight known here production production' mid)
    (hthere : Yields here production there fun _ _ => True)
    (hnext : ∀ value value', MirrorsOrFailsAt c tight (known ∧ mid value value') (there value)
      (next value) (next' value') relNext) :
    MirrorsOrFailsAt c tight known here (production >>= next) (production' >>= next')
      relNext := by
  rw [MirrorsOrFailsAt, ExceptT.run_bind, ExceptT.run_bind]
  refine .bind_meets (Ends there fun _ _ => True) hproduction hthere ?_
  exact .of_outcome (fun outcome _ => c.At (Ends there (fun _ _ => True) outcome)) hnext
    fun bad bad' => .pure fun hknown => .error hknown.2

/-- A step inside a production. -/
theorem run_lift (hstep : MirrorsFrom c tight known pre step step' rel) :
    MirrorsFrom c tight known pre (liftM step : Production α).run
      (liftM step' : Production α).run (Outcome c rel) where
  orderly := .run_lift hstep.orderly
  ends hknown start start' hstart hclean := by
    obtain ⟨hvalue, hstop⟩ := hstep.ends hknown start start' hstart hclean
    exact ⟨.ok hvalue, hstop⟩

/-- A production that begins with a step is compared like a step. -/
theorem run_step (hstep : MirrorsFrom c tight known pre (step >>= fun value => (next value).run)
      (step' >>= fun value => (next' value).run) (Outcome c relNext)) :
    MirrorsFrom c tight known pre ((liftM step : Production α) >>= next).run
      ((liftM step' : Production α) >>= next').run (Outcome c relNext) :=
  ⟨hstep.orderly, hstep.ends⟩

theorem run_ite {condition condition' : Prop} [Decidable condition] [Decidable condition']
    {other other' : Production α} (hiff : known → (condition ↔ condition'))
    (hproduction : condition →
      MirrorsFrom c tight known pre production.run production'.run (Outcome c rel))
    (hother : ¬ condition →
      MirrorsFrom c tight known pre other.run other'.run (Outcome c rel)) :
    MirrorsFrom c tight known pre (if condition then production else other).run
      (if condition' then production' else other').run (Outcome c rel) := by
  have hite := ite hiff hproduction hother
  refine ⟨?_, ?_⟩
  · rw [apply_ite ExceptT.run]
    exact hite.orderly
  · rw [apply_ite ExceptT.run, apply_ite ExceptT.run]
    exact hite.ends

/-- If a production tells when it fails, and if it ends inside the file when it succeeds, it
is compared only where it ends inside. -/
theorem run_bind_inside {there : α → State → Prop}
    (hproduction : MirrorsOrFailsAt c true known here production production' mid)
    (haloud : FailsAloud production)
    (hthere : Yields here production there fun _ _ => True)
    (hinside : ∀ value state, there value state → Inside state)
    (hnext : ∀ value value', MirrorsOrFailsAt c tight (known ∧ mid value value') (there value)
      (next value) (next' value') relNext) :
    MirrorsOrFailsAt c tight known here (production >>= next) (production' >>= next')
      relNext := by
  refine ⟨.run_bind hproduction.orderly fun value => (hnext value value).orderly, ?_⟩
  intro hknown start start' hstart hclean
  have hends := haloud start start (.refl start)
  have hstops := hthere start hstart.2
  have hfollows := hproduction.orderly start
  have hmirrors := hproduction.ends hknown start start' hstart
  rw [ExceptT.run_bind, StateT.run_bind] at hclean ⊢
  rw [ExceptT.run_bind, StateT.run_bind]
  revert hends hstops hfollows hmirrors hclean
  generalize production.run.run start = result
  generalize production'.run.run start' = result'
  obtain ⟨outcome, stop⟩ := result
  obtain ⟨outcome', stop'⟩ := result'
  intro hclean hends hstops hfollows hmirrors
  cases outcome with
  | ok value =>
      have hstop : c.Clean true stop := by
        intro hapart
        refine ⟨(hclean.before ((hnext value value).orderly stop) hapart).1, fun _ hnil => ?_⟩
        exact hinside value stop hstops (Cursor.kind_eq_eof_iff.2 hnil)
      obtain ⟨hvalue, hrelates⟩ := hmirrors hstop
      cases hvalue with
      | ok hvalue => exact (hnext _ _).ends ⟨hknown, hvalue⟩ stop stop' ⟨hrelates, hstops⟩ hclean
  | error bad =>
      have hstop : c.Clean true stop := by
        intro hapart
        have hsize : stop.diagnostics.size ≤ c.told.length := (hclean hapart).1
        have htold := hstart.1.told_le
        have hmore : start.diagnostics.size < stop.diagnostics.size := hends
        omega
      obtain ⟨hvalue, hrelates⟩ := hmirrors hstop
      cases hvalue with
      | error hbad => exact ⟨.error hbad, hrelates⟩

end Productions

end MirrorsFrom

end OriSyntax.Grammar
