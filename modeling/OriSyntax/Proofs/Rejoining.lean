import OriSyntax.Proofs.Boundaries
import OriSyntax.Proofs.Failing

/-!
Runs that meet again.  Two runs with the same tokens ahead do the same from there on, whatever
each has read and reported before.  Only what looks back at the token read last may differ,
and it no longer does once both have read a token.
-/

namespace OriSyntax.Grammar

variable {α β : Type} {state state' stop stop' : State}

/-- The same tokens are ahead, in the same context. -/
structure State.SameAhead (state state' : State) : Prop where
  begun : state.cursor.behind ≠ []
  ahead : state'.cursor.ahead = state.cursor.ahead
  eof : state'.cursor.eof = state.cursor.eof
  nesting : state'.nesting = state.nesting
  loopDepth : state'.loopDepth = state.loopDepth

/-- Moreover, the token read last is the same. -/
structure State.Alongside (state state' : State) : Prop extends state.SameAhead state' where
  last : state'.cursor.behind.head? = state.cursor.behind.head?

/-- The same was reported from one pair of states to the other. -/
def SameReports (state state' stop stop' : State) : Prop :=
  ∃ added, stop.diagnostics.toList = state.diagnostics.toList ++ added ∧
    stop'.diagnostics.toList = state'.diagnostics.toList ++ added

theorem SameReports.refl (state state' : State) : SameReports state state' state state' :=
  ⟨[], (List.append_nil _).symm, (List.append_nil _).symm⟩

theorem SameReports.trans {middle middle' : State}
    (hfirst : SameReports state state' middle middle')
    (hsecond : SameReports middle middle' stop stop') : SameReports state state' stop stop' := by
  obtain ⟨first, hfirst, hfirst'⟩ := hfirst
  obtain ⟨second, hsecond, hsecond'⟩ := hsecond
  exact ⟨first ++ second, by rw [hsecond, hfirst, List.append_assoc],
    by rw [hsecond', hfirst', List.append_assoc]⟩

namespace State

theorem SameAhead.current (hsame : state.SameAhead state') :
    state'.cursor.current = state.cursor.current := by
  rw [Cursor.current, Cursor.current, hsame.ahead, hsame.eof]

theorem SameAhead.kind (hsame : state.SameAhead state') :
    state'.cursor.kind = state.cursor.kind :=
  congrArg Token.kind hsame.current

/-- Behind a token that both runs read there is nothing else to look back at. -/
theorem SameAhead.next (hsame : state.SameAhead state') (hinside : Inside state) :
    (state.moveTo state.cursor.next).Alongside (state'.moveTo state'.cursor.next) := by
  have hinside' : state'.cursor.kind ≠ .eof := hsame.kind ▸ hinside
  exact {
    begun := by simp [Cursor.behind_next hinside]
    ahead := by simp [Cursor.ahead_next, hsame.ahead]
    eof := by simp [Cursor.eof_next, hsame.eof]
    nesting := hsame.nesting
    loopDepth := hsame.loopDepth
    last := by simp [Cursor.behind_next hinside, Cursor.behind_next hinside', hsame.current] }

theorem Alongside.previous (hsame : state.Alongside state') :
    state'.cursor.previous = state.cursor.previous := by
  rw [Cursor.previous, Cursor.previous, hsame.last, hsame.current]

end State

/-- What two runs have in common that share these tokens and end at one place, whatever each
has read and reported before. -/
def Coupling.rejoin (tokens : List Token) (eof : Token) (past past' : List Token)
    (told told' : List Diagnostic) (htokens : tokens ≠ []) : Coupling :=
  { Coupling.ofShared tokens (.together eof eof) past past' htokens (by simp [Ending.closing])
      (by simp [Ending.follow]) with
    told := told
    told' := told' }

section Rejoin

variable {tokens past past' : List Token} {eof : Token} {told told' : List Diagnostic}
  {htokens : tokens ≠ []}

theorem Coupling.rejoin_together :
    (Coupling.rejoin tokens eof past past' told told' htokens).Together := rfl

theorem Coupling.rejoin_exact :
    (Coupling.rejoin tokens eof past past' told told' htokens).like.Exact :=
  @Coupling.like_exact_ofShared tokens (.together eof eof) past past' htokens
    (by simp [Ending.closing]) (by simp [Ending.follow])

end Rejoin

/-- What both runs share may begin with tokens that both have read, or with the next one. -/
theorem State.SameAhead.exists_coupling (hsame : state.SameAhead state')
    {read past past' : List Token} (hbehind : state.cursor.behind = read ++ past)
    (hbehind' : state'.cursor.behind = read ++ past')
    (hsome : read.reverse ++ state.cursor.ahead ≠ []) :
    ∃ c : Coupling, c.like.Exact ∧ c.Together ∧ c.told = state.diagnostics.toList ∧
      c.told' = state'.diagnostics.toList ∧ c.Near state state' ∧
      (read ≠ [] → c.Relates state state') := by
  have hplaced : (Coupling.rejoin (read.reverse ++ state.cursor.ahead) state.cursor.eof past past'
      state.diagnostics.toList state'.diagnostics.toList hsome).Placed
      (read.map fun token => (token, token))
      (state.cursor.ahead.map fun token => (token, token)) state.cursor state'.cursor := by
    refine ⟨?_, ?_, ?_, ?_, ?_, ?_⟩
    · simp [Coupling.rejoin, Coupling.ofShared]
    · simpa [Function.comp_def, Coupling.rejoin, Coupling.ofShared] using hbehind
    · simpa [Function.comp_def, Coupling.rejoin, Coupling.ofShared] using hbehind'
    · simp [Function.comp_def]
    · simp [Function.comp_def, hsame.ahead, Coupling.rejoin, Coupling.ofShared, Ending.follow]
    · simp [Coupling.rejoin, Coupling.ofShared, Ending.closing, hsame.eof]
  have hnear : (Coupling.rejoin (read.reverse ++ state.cursor.ahead) state.cursor.eof past past'
      state.diagnostics.toList state'.diagnostics.toList hsome).Near state state' :=
    ⟨⟨_, _, hplaced⟩, hsame.nesting, hsame.loopDepth,
      [], [], (List.append_nil _).symm, (List.append_nil _).symm, .nil⟩
  refine ⟨_, Coupling.rejoin_exact, Coupling.rejoin_together, rfl, rfl, hnear, fun hread =>
    ⟨hnear, _, _, .inl ?_, hplaced⟩⟩
  simpa using hread

section Exact

variable {c : Coupling} (hexact : c.like.Exact)
include hexact

/-- Runs that end together in related states have the same tokens ahead, and the token read
last in common. -/
theorem Coupling.Relates.alongside (htogether : c.Together) (hrelates : c.Relates state state')
    (hbegun : state.cursor.behind ≠ []) : state.Alongside state' := by
  obtain ⟨read, left, hstarted, hplaced⟩ := hrelates.started
  obtain ⟨eof, eof', hending⟩ := htogether.exists_ending
  have heof := hplaced.eof (eof, eof') (by simp [hending, Ending.closing])
  refine ⟨⟨hbegun, ?_, ?_, hrelates.nesting, hrelates.loopDepth⟩, ?_⟩
  · rw [hplaced.ahead, hplaced.ahead', show c.ending.follow = [] from htogether, List.append_nil]
    refine List.map_congr_left fun pair hpair => ?_
    exact hexact.token (hplaced.word_of_mem hpair).tied
  · have htied : c.tied eof eof' := List.mem_append_right _ (by simp [hending, Ending.closing])
    rw [heof.1, heof.2]
    exact hexact.token htied
  · rw [hplaced.behind] at hbegun
    rw [hplaced.behind, hplaced.behind']
    cases read with
    | nil => exact absurd (hstarted.resolve_left (· rfl)).1 hbegun
    | cons pair read =>
        have hword : c.word pair.1 pair.2 := by
          rw [Coupling.word, hplaced.pairs, List.reverse_cons, List.append_assoc]
          exact List.mem_append_right _ List.mem_cons_self
        simp [hexact.token hword.tied]

theorem Coupling.Near.sameReports {start start' : State} (hnear : c.Near state state')
    (htold : c.told = start.diagnostics.toList) (htold' : c.told' = start'.diagnostics.toList) :
    SameReports start start' state state' := by
  obtain ⟨added, added', hadded, hadded', hall⟩ := hnear.reports
  obtain rfl : added' = added := eq_of_forall₂ (Diagnostic.Alike.eq hexact) hall
  exact ⟨added', htold ▸ hadded, htold' ▸ hadded'⟩

end Exact

/-- From states that `pre` allows on, two steps lead to states that `post` allows, with values
that `rel` allows, and report the same. -/
def Accords (pre : State → State → Prop) (step step' : Step α) (rel : α → α → Prop)
    (post : State → State → Prop) : Prop :=
  ∀ start start', pre start start' → rel (step.run start).1 (step'.run start').1 ∧
    post (step.run start).2 (step'.run start').2 ∧
    SameReports start start' (step.run start).2 (step'.run start').2

/-- The end of a list.  If nothing was read on the way to it, both runs may look back at
different tokens. -/
def Ended (stops : Kind → Bool) (state state' : State) : Prop :=
  state.Alongside state' ∨ state.SameAhead state' ∧ Inside state ∧ stops state.cursor.kind

/-- Both succeed with values that are related, or both fail with one bad node. -/
inductive Coincides (rel : α → α → Prop) : Except BadNode α → Except BadNode α → Prop where
  | ok {value value' : α} (hvalue : rel value value') : Coincides rel (.ok value) (.ok value')
  | error (bad : BadNode) : Coincides rel (.error bad) (.error bad)

/-- Productions that accord: both succeed, or both fail. -/
abbrev AccordsOrFail (pre : State → State → Prop) (production production' : Production α)
    (rel : α → α → Prop) (post : State → State → Prop) : Prop :=
  Accords pre production.run production'.run (Coincides rel) post

namespace Accords

variable {pre middle post : State → State → Prop} {step step' : Step α} {rel mid : α → α → Prop}
  {next next' : α → Step β} {relNext : β → β → Prop}

theorem mono {pre' post' : State → State → Prop} {rel' : α → α → Prop}
    (hstep : Accords pre step step' rel post)
    (hpre : ∀ state state', pre' state state' → pre state state')
    (hrel : ∀ value value', rel value value' → rel' value value')
    (hpost : ∀ state state', post state state' → post' state state') :
    Accords pre' step step' rel' post' := by
  intro start start' hstart
  obtain ⟨hvalue, hstop, hreports⟩ := hstep start start' (hpre start start' hstart)
  exact ⟨hrel _ _ hvalue, hpost _ _ hstop, hreports⟩

theorem strengthen {pre' : State → State → Prop} (hstep : Accords pre step step' rel post)
    (hpre : ∀ state state', pre' state state' → pre state state') :
    Accords pre' step step' rel post :=
  hstep.mono hpre (fun _ _ hvalue => hvalue) fun _ _ hstop => hstop

theorem weaken {rel' : α → α → Prop} (hstep : Accords pre step step' rel post)
    (hrel : ∀ value value', rel value value' → rel' value value') :
    Accords pre step step' rel' post :=
  hstep.mono (fun _ _ hstart => hstart) hrel fun _ _ hstop => hstop

protected theorem pure {value value' : α} (hvalue : rel value value') :
    Accords pre (pure value) (pure value') rel pre :=
  fun _ _ hstart => ⟨hvalue, hstart, .refl _ _⟩

protected theorem bind (hstep : Accords pre step step' mid middle)
    (hnext : ∀ value value', mid value value' →
      Accords middle (next value) (next' value') relNext post) :
    Accords pre (step >>= next) (step' >>= next') relNext post := by
  intro start start' hstart
  obtain ⟨hvalue, hmiddle, hreports⟩ := hstep start start' hstart
  obtain ⟨hresult, hstop, hadded⟩ := hnext _ _ hvalue _ _ hmiddle
  exact ⟨hresult, hstop, hreports.trans hadded⟩

/-- Both runs see the same. -/
theorem look {seen seen' : State → α} (hseen : ∀ state state', pre state state' →
      seen' state' = seen state)
    (hnext : ∀ value, Accords (fun state state' => pre state state' ∧ value = seen state)
      (next value) (next' value) relNext post) :
    Accords pre ((do return seen (← get)) >>= next) ((do return seen' (← get)) >>= next') relNext
      post := by
  intro start start' hstart
  have hrun : ((do return seen' (← get)) >>= next').run start' =
      (next' (seen' start')).run start' := rfl
  rw [hrun, hseen start start' hstart]
  exact hnext (seen start) start start' ⟨hstart, rfl⟩

theorem ite {condition : Prop} [Decidable condition] {other other' : Step α}
    (hstep : condition → Accords pre step step' rel post)
    (hother : ¬ condition → Accords pre other other' rel post) :
    Accords pre (if condition then step else other) (if condition then step' else other') rel
      post := by
  split
  · next hcondition => exact hstep hcondition
  · next hcondition => exact hother hcondition

/-- What is mirrored in all coupled runs accords. -/
theorem of_mirrors {like : Coupling → α → α → Prop} {here : State → Prop}
    (hmirrors : ∀ c : Coupling, c.Together → MirrorsAt c false True here step step (like c))
    (heq : ∀ c : Coupling, c.like.Exact → ∀ value value', like c value value' → rel value value') :
    Accords (fun state state' => state.Alongside state' ∧ here state) step step rel
      State.Alongside := by
  rintro start start' ⟨hstart, hhere⟩
  obtain ⟨token, past, hbehind⟩ := List.exists_cons_of_ne_nil hstart.begun
  obtain ⟨past', hbehind'⟩ : ∃ past', start'.cursor.behind = token :: past' := by
    have hlast := hstart.last
    rw [hbehind, List.head?_cons] at hlast
    exact List.head?_eq_some_iff.1 hlast
  obtain ⟨c, hexact, htogether, htold, htold', -, hrelates⟩ := hstart.toSameAhead.exists_coupling
    (show _ = [token] ++ past from hbehind) hbehind' (by simp)
  have hends := (hmirrors c htogether).ends trivial start start'
    ⟨hrelates (by simp), hhere⟩ fun hapart => absurd htogether hapart
  have hbegun : (step.run start).2.cursor.behind ≠ [] := by
    obtain ⟨run, hrun⟩ := ((hmirrors c htogether).orderly start).reads
    simp [hrun.behind, hbehind]
  exact ⟨heq c hexact _ _ hends.1, hends.2.alongside hexact htogether hbegun,
    hends.2.toNear.sameReports hexact htold htold'⟩

/-- It does so even where both runs look back at different tokens, if it is mirrored there. -/
theorem of_mirrorsFrom {like : Coupling → α → α → Prop} {pre : State → Prop}
    (hmirrors : ∀ c : Coupling, c.Together → MirrorsFrom c false True
      (fun state state' => c.Near state state' ∧ Inside state ∧ pre state) step step (like c))
    (heq : ∀ c : Coupling, c.like.Exact → ∀ value value', like c value value' → rel value value') :
    Accords (fun state state' => state.SameAhead state' ∧ Inside state ∧ pre state) step step rel
      State.Alongside := by
  rintro start start' ⟨hstart, hinside, hpre⟩
  obtain ⟨c, hexact, htogether, htold, htold', hnear, -⟩ := hstart.exists_coupling
    (List.nil_append _).symm (List.nil_append _).symm
    (by simpa using mt Cursor.kind_eq_eof_iff.2 hinside)
  have hends := (hmirrors c htogether).ends trivial start start' ⟨hnear, hinside, hpre⟩
    fun hapart => absurd htogether hapart
  have hbegun : (step.run start).2.cursor.behind ≠ [] := by
    obtain ⟨run, hrun⟩ := ((hmirrors c htogether).orderly start).reads
    simp [hrun.behind, hstart.begun]
  exact ⟨heq c hexact _ _ hends.1, hends.2.alongside hexact htogether hbegun,
    hends.2.toNear.sameReports hexact htold htold'⟩

section Productions

variable {production production' : Production α} {nextP nextP' : α → Production β}

/-- What goes on from an outcome goes on from a success or from a failure. -/
theorem bind_run {next next' : Except BadNode α → Step β}
    (hproduction : AccordsOrFail pre production production' mid middle)
    (hok : ∀ value value', mid value value' →
      Accords middle (next (.ok value)) (next' (.ok value')) relNext post)
    (herror : ∀ bad, Accords middle (next (.error bad)) (next' (.error bad)) relNext post) :
    Accords pre (production.run >>= next) (production'.run >>= next') relNext post := by
  refine .bind hproduction fun outcome outcome' houtcome => ?_
  cases houtcome with
  | ok hvalue => exact hok _ _ hvalue
  | error bad => exact herror bad

theorem run_bind (hproduction : AccordsOrFail pre production production' mid middle)
    (hpost : ∀ state state', middle state state' → post state state')
    (hnext : ∀ value value', mid value value' →
      AccordsOrFail middle (nextP value) (nextP' value') relNext post) :
    AccordsOrFail pre (production >>= nextP) (production' >>= nextP') relNext post := by
  unfold AccordsOrFail
  rw [ExceptT.run_bind, ExceptT.run_bind]
  refine bind_run hproduction hnext fun bad => ?_
  exact (Accords.pure (.error bad)).mono (fun _ _ hstart => hstart) (fun _ _ hvalue => hvalue) hpost

theorem run_pure {value value' : α} (hvalue : rel value value') :
    AccordsOrFail pre (pure value) (pure value') rel pre :=
  .pure (.ok hvalue)

/-- A production that begins with a step. -/
theorem run_step (hstep : Accords pre step step' mid middle)
    (hnext : ∀ value value', mid value value' →
      AccordsOrFail middle (nextP value) (nextP' value') relNext post) :
    AccordsOrFail pre ((liftM step : Production α) >>= nextP)
      ((liftM step' : Production α) >>= nextP') relNext post :=
  Accords.bind hstep hnext

theorem run_lift (hstep : Accords pre step step' rel post) :
    AccordsOrFail pre (liftM step : Production α) (liftM step' : Production α) rel post := by
  intro start start' hstart
  obtain ⟨hvalue, hstop, hreports⟩ := hstep start start' hstart
  exact ⟨.ok hvalue, hstop, hreports⟩

end Productions

section Recovering

variable {production production' : Production α}

/-- A bad node is stretched in the same way from a token that both runs have read before. -/
theorem cover_accords (first : Token) (bad : BadNode) :
    Accords State.Alongside (cover first bad) (cover first bad) Eq State.Alongside := by
  intro start start' hstart
  refine ⟨?_, hstart, .refl _ _⟩
  change BadNode.mk _ (laterToken (laterToken _ start.cursor.previous) _) _ =
    BadNode.mk _ (laterToken (laterToken _ start'.cursor.previous) _) _
  rw [hstart.previous]

theorem covering (first : Token)
    (hproduction : AccordsOrFail pre production production' rel State.Alongside) :
    AccordsOrFail pre (covering first production) (covering first production') rel
      State.Alongside := by
  refine bind_run hproduction (fun _ _ hvalue => .pure (.ok hvalue)) fun bad => ?_
  refine .bind (cover_accords first bad) fun node _ hnode => ?_
  subst hnode
  exact .pure (.error node)

theorem skip_accords (rule : Skip.Rule) :
    Accords State.Alongside (skip rule) (skip rule) Eq State.Alongside :=
  (of_mirrors (fun _ htogether => skip_mirrors (fun _ => htogether) rule)
    fun _ _ _ _ _ => rfl).strengthen fun _ _ hstart => ⟨hstart, trivial⟩

theorem skipping (rule : Skip.Rule)
    (hproduction : AccordsOrFail pre production production' rel State.Alongside) :
    AccordsOrFail pre (skipping rule production) (skipping rule production') rel
      State.Alongside := by
  refine bind_run hproduction (fun _ _ hvalue => .pure (.ok hvalue)) fun bad => ?_
  have hskip : Accords State.Alongside (do skip rule; return bad) (do skip rule; return bad) Eq
      State.Alongside := .bind (skip_accords rule) fun _ _ _ => .pure rfl
  refine .bind hskip fun node _ hnode => ?_
  subst hnode
  exact .pure (.error node)

theorem recoverWith (rule : Skip.Rule) (first : Token) {ofBad : BadNode → α}
    (hproduction : AccordsOrFail pre production production' rel State.Alongside)
    (hofBad : ∀ bad, rel (ofBad bad) (ofBad bad)) :
    Accords pre (recoverWith rule first ofBad production) (recoverWith rule first ofBad production')
      rel State.Alongside := by
  refine bind_run hproduction (fun _ _ hvalue => .pure hvalue) fun bad => ?_
  refine .bind (skip_accords rule) fun _ _ _ =>
    .bind (cover_accords first bad) fun node _ hnode => ?_
  subst hnode
  exact .pure (hofBad node)

end Recovering

section Loops

variable {pass : α → Step (ForInStep α)} (hgains : Gains pass) {found found' : α}
include hgains

/-- What goes on behind the first pass goes on with fewer tokens left. -/
theorem repeatStep_from {bound : Nat}
    (hpre : ∀ state state', pre state state' → state.cursor.remaining ≤ bound)
    (hfirst : Accords pre (pass found) (pass found') (Turn rel) State.Alongside)
    (hrest : ∀ next next', rel next next' → Accords
      (fun state state' => state.Alongside state' ∧ state.cursor.remaining < bound)
      (repeatStep pass next) (repeatStep pass next') rel State.Alongside) :
    Accords pre (repeatStep pass found) (repeatStep pass found') rel State.Alongside := by
  intro start start' hstart
  obtain ⟨hturn, hstop, hreports⟩ := hfirst start start' hstart
  cases hrun : (pass found).run start with
  | mk turn middle =>
      cases hrun' : (pass found').run start' with
      | mk turn' middle' =>
          rw [hrun, hrun'] at hturn hstop hreports
          cases hturn with
          | done hresult =>
              have hdone : Gives (pass found) start _ middle := hrun
              have hdone' : Gives (pass found') start' _ middle' := hrun'
              rw [hdone.repeatStep hgains .refl, hdone'.repeatStep hgains .refl]
              exact ⟨hresult, hstop, hreports⟩
          | @yield next next' hnext =>
              have hround : Round pass (found, start) (next, middle) := hrun
              have hround' : Round pass (found', start') (next', middle') := hrun'
              rw [repeatStep_run_of_round hgains hround, repeatStep_run_of_round hgains hround']
              have hless := Nat.lt_of_lt_of_le (hround.remaining_lt hgains) (hpre _ _ hstart)
              obtain ⟨hvalue, hend, hadded⟩ := hrest next next' hnext middle middle' ⟨hstop, hless⟩
              exact ⟨hvalue, hend, hreports.trans hadded⟩

variable (hpass : ∀ found found', rel found found' →
  Accords State.Alongside (pass found) (pass found') (Turn rel) State.Alongside)
include hpass

/-- Passes that accord are made as often in both runs. -/
theorem repeatStep (hfound : rel found found') :
    Accords State.Alongside (repeatStep pass found) (repeatStep pass found') rel
      State.Alongside := by
  have hbounded (bound : Nat) : ∀ found found', rel found found' → Accords
      (fun state state' => state.Alongside state' ∧ state.cursor.remaining < bound)
      (Grammar.repeatStep pass found) (Grammar.repeatStep pass found') rel State.Alongside := by
    induction bound with
    | zero => exact fun _ _ _ _ _ hstart => absurd hstart.2 (Nat.not_lt_zero _)
    | succ bound ih =>
        exact fun found found' hfound => repeatStep_from hgains
          (fun _ _ hstart => Nat.le_of_lt_succ hstart.2)
          ((hpass found found' hfound).strengthen fun _ _ hstart => hstart.1) ih
  exact fun start start' hstart => hbounded (start.cursor.remaining + 1) found found' hfound start
    start' ⟨hstart, Nat.lt_succ_self _⟩

/-- A loop that does not stop at once may begin where both runs look back at different
tokens. -/
theorem repeatStep_ended {stops : Kind → Bool}
    (hpre : ∀ state state', pre state state' →
      state.Alongside state' ∨ state.SameAhead state' ∧ Inside state)
    (hdone : ∀ state, stops state.cursor.kind →
      ∀ found, Gives (pass found) state (.done found) state)
    (hfirst : Accords (fun state state' => pre state state' ∧ stops state.cursor.kind = false)
      (pass found) (pass found') (Turn rel) State.Alongside)
    (hfound : rel found found') :
    Accords pre (Grammar.repeatStep pass found) (Grammar.repeatStep pass found') rel
      (Ended stops) := by
  intro start start' hstart
  rcases hpre start start' hstart with halongside | ⟨hsame, hinside⟩
  · obtain ⟨hvalue, hstop, hreports⟩ := repeatStep hgains hpass hfound start start' halongside
    exact ⟨hvalue, .inl hstop, hreports⟩
  cases hstops : stops start.cursor.kind with
  | true =>
      rw [(hdone start hstops found).repeatStep hgains .refl,
        (hdone start' (hsame.kind ▸ hstops) found').repeatStep hgains .refl]
      exact ⟨hfound, .inr ⟨hsame, hinside, hstops⟩, .refl _ _⟩
  | false =>
      have hbound : ∀ state state', state = start ∧ state' = start' →
          state.cursor.remaining ≤ start.cursor.remaining := by
        rintro state state' ⟨rfl, rfl⟩
        exact Nat.le_refl _
      have hloop : Accords (fun state state' => state = start ∧ state' = start')
          (Grammar.repeatStep pass found) (Grammar.repeatStep pass found') rel State.Alongside := by
        refine repeatStep_from hgains hbound (hfirst.strengthen ?_) fun next next' hnext =>
          (repeatStep hgains hpass hnext).strengthen fun _ _ hstate => hstate.1
        rintro state state' ⟨rfl, rfl⟩
        exact ⟨hstart, hstops⟩
      obtain ⟨hvalue, hstop, hreports⟩ := hloop start start' ⟨rfl, rfl⟩
      exact ⟨hvalue, .inl hstop, hreports⟩

end Loops

end Accords

open Accords

theorem Coincides.of_outcome {c : Coupling} (hexact : c.like.Exact) {rel : α → α → Prop}
    {outcome outcome' : Except BadNode α} (houtcome : Outcome c rel outcome outcome')
    (heq : ∀ value value', rel value value' → value' = value) :
    Coincides Eq outcome outcome' := by
  cases houtcome with
  | ok hvalue => exact .ok (heq _ _ hvalue).symm
  | error hbad =>
      obtain rfl := hexact.bad hbad
      exact .error _

theorem advance_accords {pre : State → State → Prop}
    (hpre : ∀ state state', pre state state' → state.SameAhead state' ∧ Inside state) :
    Accords pre advance advance Eq State.Alongside := by
  intro start start' hstart
  obtain ⟨hsame, hinside⟩ := hpre start start' hstart
  exact ⟨hsame.current.symm, hsame.next hinside, .refl _ _⟩

/-- What is left of a list of statements, of which some were found, the last one first. -/
def restOfStmts (nested : Nested) (stops : Kind → Bool) (found : List Stmt) :
    Step (List Stmt) := do
  return (← repeatStep (stmtPass nested stops) found).reverse

/-- A list goes on from behind a pass that is not the last one. -/
theorem restOfStmts_run_of_round {levels : Nat} {stops : Kind → Bool} {found next : List Stmt}
    {start stop : State}
    (hround : Round (stmtPass (Grammar.nested levels) stops) (found, start) (next, stop)) :
    (restOfStmts (Grammar.nested levels) stops found).run start =
      (restOfStmts (Grammar.nested levels) stops next).run stop := by
  rw [restOfStmts, restOfStmts, StateT.run_bind, StateT.run_bind,
    repeatStep_run_of_round (stmtPass_gains (nested_orderly levels) stops) hround]

/-- What is left of a block, of which a list of statements is left. -/
def restOfBlock (opening : Token) (list : Step (List Stmt)) : Production Block := do
  let stmts ← list
  return ⟨opening, stmts, ← covering opening (expect .rbrace "'\x7d'")⟩

theorem block_eq (nested : Nested) : block nested = (do
    let opening ← expect .lbrace "'\x7b'"
    restOfBlock opening (restOfStmts nested (· = .rbrace) [])) := rfl

theorem block_run {nested : Nested} {here : State} (hkind : here.cursor.kind = .lbrace) :
    (block nested).run.run here =
      (restOfBlock here.cursor.current (restOfStmts nested (· = .rbrace) [])).run.run
        (here.moveTo here.cursor.next) := by
  have hopening : Succeeds (expect .lbrace "'\x7b'") here here.cursor.current
      (here.moveTo here.cursor.next) := .look hkind (.of_pos rfl rfl)
  rw [block_eq, hopening.run_bind]

theorem restOfBlock_orderly (opening : Token) {list : Step (List Stmt)} (hlist : Orderly list) :
    Orderly (restOfBlock opening list).run :=
  .run_bind (.run_lift hlist) fun _ =>
    .run_bind (covering_orderly _ (expect_orderly _ _)) fun _ => .run_pure _

/-- Behind the opening brace of a function. -/
def State.inBody (state : State) : State :=
  { state.moveTo state.cursor.next with loopDepth := 0 }

theorem funcBody_run {start : State} (hkind : start.cursor.kind = .lbrace) :
    funcBody.run.run start =
      let (outcome, stop) := (restOfBlock start.cursor.current
        (restOfStmts outermost (· = .rbrace) [])).run.run start.inBody
      (outcome, { stop with loopDepth := start.loopDepth }) := by
  have hblock : (block outermost).run.run { start with loopDepth := 0 } = _ := block_run hkind
  change (let (outcome, stop) := (block outermost).run.run { start with loopDepth := 0 }
    (outcome, { stop with loopDepth := start.loopDepth })) = _
  rw [hblock]
  rfl

section Lists

variable {levels : Nat} {stops : Kind → Bool} {pre : State → State → Prop}
  {rel : List Stmt → List Stmt → Prop} {found found' : List Stmt}

theorem steppingStmt_accords (levels : Nat) :
    Accords (fun state state' => state.Alongside state' ∧ Inside state)
      (steppingStmt (Grammar.nested levels)) (steppingStmt (Grammar.nested levels)) Eq
      State.Alongside :=
  of_mirrors (fun _ htogether => steppingStmt_mirrors (nested_mirrors levels) fun _ =>
    .inl htogether) fun _ hexact _ _ halike => (halike.eq hexact).symm

/-- A pass over a list does the same in both runs, if the statement that comes first is read
in the same way. -/
theorem stmtPass_accords
    (hpre : ∀ state state', pre state state' → state.SameAhead state')
    (hdone : ∀ state state', pre state state' →
      state.cursor.kind = .eof ∨ stops state.cursor.kind → state.Alongside state')
    (hstmt : Accords (fun state state' => pre state state' ∧ Inside state ∧
        stops state.cursor.kind = false ∧ state.cursor.kind ≠ .semicolon)
      (steppingStmt (Grammar.nested levels)) (steppingStmt (Grammar.nested levels)) Eq
      State.Alongside)
    (hcons : ∀ stmt, rel (stmt :: found) (stmt :: found')) (hfound : rel found found') :
    Accords pre (stmtPass (Grammar.nested levels) stops found)
      (stmtPass (Grammar.nested levels) stops found') (Turn rel) State.Alongside := by
  refine .look (fun state state' hstart => (hpre state state' hstart).kind) fun kind =>
    .ite (fun hends => ?_) fun hgoes => .ite (fun hkind => ?_) fun hkind => ?_
  · refine (Accords.pure (.done hfound)).mono (fun _ _ hstart => hstart) (fun _ _ hvalue => hvalue)
      fun state state' hstart => hdone state state' hstart.1 ?_
    rw [← hstart.2]
    simpa using hends
  · refine .bind (advance_accords fun state state' hstart => ⟨hpre _ _ hstart.1, ?_⟩)
      fun _ _ _ => .pure (.yield hfound)
    rw [Inside, ← hstart.2, hkind]
    decide
  · refine .bind (hstmt.strengthen fun state state' hstart => ?_) fun stmt _ hvalue => ?_
    · obtain ⟨hstart, rfl⟩ := hstart
      simp only [Bool.or_eq_true, decide_eq_true_eq, not_or] at hgoes
      exact ⟨hstart, hgoes.1, by simpa using hgoes.2, hkind⟩
    · subst hvalue
      exact .pure (.yield (hcons stmt))

theorem stmtPass_accords_alongside
    (hcons : ∀ stmt found found', rel found found' → rel (stmt :: found) (stmt :: found'))
    (hfound : rel found found') :
    Accords State.Alongside (stmtPass (Grammar.nested levels) stops found)
      (stmtPass (Grammar.nested levels) stops found') (Turn rel) State.Alongside :=
  stmtPass_accords (fun _ _ hstart => hstart.toSameAhead) (fun _ _ hstart _ => hstart)
    ((steppingStmt_accords levels).strengthen fun _ _ hstart => ⟨hstart.1, hstart.2.1⟩)
    (fun stmt => hcons stmt _ _ hfound) hfound

/-- A list of statements of which the one that comes first is read in the same way. -/
theorem restOfStmts_accords
    (hpre : ∀ state state', pre state state' → state.SameAhead state' ∧ Inside state)
    (hstmt : Accords (fun state state' => pre state state' ∧
        stops state.cursor.kind = false ∧ state.cursor.kind ≠ .semicolon)
      (steppingStmt (Grammar.nested levels)) (steppingStmt (Grammar.nested levels)) Eq
      State.Alongside)
    (hcons : ∀ stmt found found', rel found found' → rel (stmt :: found) (stmt :: found'))
    (hfound : rel found found') :
    Accords pre (restOfStmts (Grammar.nested levels) stops found)
      (restOfStmts (Grammar.nested levels) stops found')
      (fun stmts stmts' => rel stmts.reverse stmts'.reverse) (Ended stops) := by
  refine .bind (repeatStep_ended (stmtPass_gains (nested_orderly levels) stops)
    (fun _ _ hfound => stmtPass_accords_alongside hcons hfound)
    (fun _ _ hstart => .inr (hpre _ _ hstart)) ?_ ?_ hfound)
    fun _ _ hvalue => .pure (by simpa using hvalue)
  · exact fun state hstops found => .look rfl (.of_pos (by simp [hstops]) (.pure _ _))
  · refine stmtPass_accords (fun _ _ hstart => (hpre _ _ hstart.1).1) ?_ (hstmt.strengthen ?_)
      (fun stmt => hcons stmt _ _ hfound) hfound
    · rintro state state' ⟨hstart, hgoes⟩ (hkind | hstops)
      · exact absurd hkind (hpre state state' hstart).2
      · exact absurd hstops (by simp [hgoes])
    · exact fun _ _ hstart => ⟨hstart.1.1, hstart.2.2⟩

/-- A list of statements behind a token that both runs have read. -/
theorem restOfStmts_accords_alongside
    (hcons : ∀ stmt found found', rel found found' → rel (stmt :: found) (stmt :: found'))
    (hfound : rel found found') :
    Accords State.Alongside (restOfStmts (Grammar.nested levels) stops found)
      (restOfStmts (Grammar.nested levels) stops found')
      (fun stmts stmts' => rel stmts.reverse stmts'.reverse) State.Alongside :=
  .bind (Accords.repeatStep (stmtPass_gains (nested_orderly levels) stops)
    (fun _ _ hfound => stmtPass_accords_alongside hcons hfound) hfound)
    fun _ _ hvalue => .pure (by simpa using hvalue)

/-- Blocks of which the lists are related. -/
def BlocksRelated (rel : List Stmt → List Stmt → Prop) (body body' : Block) : Prop :=
  rel body.items body'.items ∧ body'.opening = body.opening ∧ body'.closing = body.closing

/-- The brace that closes a block is read wherever its list ends. -/
theorem expectClosing_accords :
    AccordsOrFail (Ended (· = .rbrace)) (expect .rbrace "'\x7d'") (expect .rbrace "'\x7d'") Eq
      State.Alongside := by
  have hword (c : Coupling) (hexact : c.like.Exact) (outcome outcome' : Except BadNode Token)
      (houtcome : Outcome c c.word outcome outcome') : Coincides Eq outcome outcome' :=
    .of_outcome hexact houtcome fun _ _ hword => hexact.token hword.tied
  have hexpect : AccordsOrFail (fun state state' => state.Alongside state' ∧ True)
      (expect .rbrace "'\x7d'") (expect .rbrace "'\x7d'") Eq State.Alongside :=
    of_mirrors (fun _ _ => expectAs_mirrors _ _ rfl) hword
  rintro start start' (halongside | ⟨hsame, hinside, hkind⟩)
  · exact hexpect start start' ⟨halongside, trivial⟩
  · exact of_mirrorsFrom (fun _ _ => expectAs_mirrorsFrom _ _ fun _ _ hstart => hstart) hword start
      start' ⟨hsame, hinside, of_decide_eq_true hkind⟩

theorem restOfBlock_accords {list list' : Step (List Stmt)} (opening : Token)
    (hlist : Accords pre list list' rel (Ended (· = .rbrace))) :
    AccordsOrFail pre (restOfBlock opening list) (restOfBlock opening list') (BlocksRelated rel)
      State.Alongside := by
  refine .run_step hlist fun stmts stmts' hstmts => ?_
  refine .run_bind (.covering opening expectClosing_accords) (fun _ _ hstop => hstop)
    fun closing _ hclosing => ?_
  subst hclosing
  exact .run_pure ⟨hstmts, rfl, rfl⟩

end Lists

end OriSyntax.Grammar
