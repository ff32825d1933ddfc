import OriSyntax.Proofs.Mirroring

/-!
The steps of which productions are made, in two coupled runs: reading, reporting, recovering
and repeating.
-/

namespace OriSyntax

/-- A kind that neither ends a file nor opens a declaration. -/
def Kind.isInner (kind : Kind) : Bool := kind ≠ .eof && !KindSet.declStart.contains kind

theorem Kind.ne_eof_of_isInner {kind : Kind} (hkind : kind.isInner) : kind ≠ .eof := by
  rintro rfl
  simp [isInner] at hkind

theorem Kind.ne_of_isInner {kind opening : Kind} (hkind : kind.isInner)
    (hopens : KindSet.declStart.contains opening) : opening ≠ kind := by
  rintro rfl
  simp [isInner, hopens] at hkind

/-- The kinds that open a declaration. -/
theorem KindSet.contains_declStart {kind : Kind} (hkind : declStart.contains kind) :
    kind = .packageKw ∨ kind = .importKw ∨ kind = .funcKw ∨ kind = .constKw ∨ kind = .varKw ∨
      kind = .typeKw := by
  simpa [declStart, contains_ofList] using hkind

namespace Diagnostic.Alike

variable {like : Likeness} {got got' : Token}

theorem illegal (hlike : like.Faithful) (hgot : like.token got got') :
    Diagnostic.Alike like (.illegal got) (.illegal got') where
  code := by simp [Diagnostic.illegal, hlike.value hgot]
  severity := rfl
  message := by simp [Diagnostic.illegal, hlike.value hgot]
  got := hgot
  notes := rfl

theorem expected (code : ErrorCode) (what : String) (hgot : like.token got got') :
    Diagnostic.Alike like (.expected code what got) (.expected code what got') :=
  ⟨rfl, rfl, rfl, hgot, rfl⟩

end Diagnostic.Alike

namespace Grammar

variable {α β : Type} {c : Coupling} {tight : Bool} {known : Prop}
  {pre : State → State → Prop} {here : State → Prop}

/-- Neither the end of the file nor a declaration is of an inner kind. -/
theorem Coupling.Kinds.eq_iff {kind kind' inner : Kind} (hkinds : c.Kinds kind kind')
    (hinner : inner.isInner) : kind = inner ↔ kind' = inner := by
  rcases hkinds with rfl | ⟨-, rfl, hopens⟩
  · rfl
  · exact iff_of_false (Kind.ne_eof_of_isInner hinner).symm (Kind.ne_of_isInner hinner hopens)

namespace MirrorsFrom

section Kinds

variable {next next' : Kind → Step α} {rel : α → α → Prop}

/-- Where the first run alone is at its end, the second one stands at a declaration. -/
theorem kind (hsame : ∀ kind, MirrorsAt c tight known (Facing kind) (next kind) (next' kind) rel)
    (hend : known → ¬ c.Together → ∀ kind', KindSet.declStart.contains kind' →
      MirrorsAt c tight known (Facing .eof) (next .eof) (next' kind') rel) :
    MirrorsAt c tight known here (currentKind >>= next) (currentKind >>= next') rel := by
  refine ⟨get_orderly.bind fun kind => (hsame kind).orderly, ?_⟩
  intro hknown start start' hstart hclean
  change c.Clean tight ((next start.cursor.kind).run start).2 at hclean
  change rel ((next start.cursor.kind).run start).1 ((next' start'.cursor.kind).run start').1 ∧
    c.Relates ((next start.cursor.kind).run start).2 ((next' start'.cursor.kind).run start').2
  rcases hstart.1.kinds with hkind | ⟨hapart, hkind, hkind'⟩
  · rw [hkind]
    exact (hsame _).ends hknown start start' ⟨hstart.1, rfl⟩ hclean
  · rw [hkind] at hclean ⊢
    exact (hend hknown hapart _ hkind').ends hknown start start' ⟨hstart.1, hkind⟩ hclean

/-- At the end of the file the step reports something. -/
theorem kind_or_reports
    (hsame : ∀ kind, MirrorsAt c tight known (Facing kind) (next kind) (next' kind) rel)
    (hreports : Reports (Facing .eof) (next .eof)) :
    MirrorsAt c tight known here (currentKind >>= next) (currentKind >>= next') rel :=
  .kind hsame fun _ hapart _ _ =>
    .of_reports (fun _ _ _ => hapart) (hsame .eof).orderly hreports

/-- Where the runs do not part, they see the same kind. -/
theorem kind_confined (hconfined : known → c.Confined tight)
    (hsame : ∀ kind, MirrorsAt c tight known (Facing kind) (next kind) (next' kind) rel) :
    MirrorsAt c tight known here (currentKind >>= next) (currentKind >>= next') rel := by
  apply MirrorsFrom.kind hsame
  intro hknown hapart kind' _
  refine ⟨(hsame .eof).orderly, fun _ start start' hstart hclean => ?_⟩
  have htight := (hconfined hknown).resolve_left hapart
  have hstart' := (hclean.before ((hsame .eof).orderly start) hapart).2 htight
  exact absurd (Cursor.kind_eq_eof_iff.1 hstart.2) hstart'

/-- A declaration and the end of the file are all the same here. -/
theorem kind_blind
    (hsame : ∀ kind, MirrorsAt c tight known (Facing kind) (next kind) (next' kind) rel)
    (hblind : ∀ kind', KindSet.declStart.contains kind' → next' kind' = next' .eof) :
    MirrorsAt c tight known here (currentKind >>= next) (currentKind >>= next') rel := by
  apply MirrorsFrom.kind hsame
  intro _ _ kind' hkind'
  rw [hblind kind' hkind']
  exact hsame .eof

/-- Whether a kind is next that is found inside declarations only. -/
theorem ifKind {kind : Kind} (hkind : kind.isInner) {step step' other other' : Step α}
    (hstep : MirrorsAt c tight known (Facing kind) step step' rel)
    (hother : Mirrors c tight known other other' rel) :
    MirrorsAt c tight known here (currentKind >>= fun found => if found = kind then step else other)
      (currentKind >>= fun found => if found = kind then step' else other') rel := by
  refine .kind_blind (fun found => .ite (fun _ => .rfl) ?_ fun _ => hother.at_here) ?_
  · rintro rfl
    exact hstep
  · intro kind' hkind'
    rw [if_neg (Kind.ne_eof_of_isInner hkind).symm, if_neg (Kind.ne_of_isInner hkind hkind')]

theorem run_ifKind {kind : Kind} (hkind : kind.isInner)
    {production production' other other' : Production α}
    (hproduction : MirrorsOrFailsAt c tight known (Facing kind) production production' rel)
    (hother : MirrorsOrFails c tight known other other' rel) :
    MirrorsOrFailsAt c tight known here
      (liftM currentKind >>= fun found => if found = kind then production else other)
      (liftM currentKind >>= fun found => if found = kind then production' else other') rel := by
  apply MirrorsFrom.run_step
  simp only [apply_ite ExceptT.run]
  exact .ifKind hkind hproduction hother

end Kinds

end MirrorsFrom

open MirrorsFrom

/-- The next tokens correspond, unless only the first run is at its end. -/
theorem current_mirrors : MirrorsAt c tight known here current current
    fun token token' => c.Together → c.tied token token' :=
  ⟨get_orderly, fun _ _ _ hstart _ => ⟨hstart.1.current_tied, hstart.1⟩⟩

theorem current_mirrors_inside (hhere : ∀ state, here state → Inside state) :
    MirrorsAt c tight known here current current c.word :=
  ⟨get_orderly, fun _ _ _ hstart _ => ⟨hstart.1.current_word (hhere _ hstart.2), hstart.1⟩⟩

theorem opensLine_mirrors (hconfined : known → c.Confined tight) :
    MirrorsAt c tight known here opensLine opensLine Eq := by
  refine ⟨get_orderly, fun hknown start start' hstart hclean => ⟨?_, hstart.1⟩⟩
  apply (hstart.1.opensLine_eq _).symm
  intro hkind
  by_contra hapart
  have htight := (hconfined hknown).resolve_left hapart
  exact (hclean hapart).2 htight (Cursor.kind_eq_eof_iff.1 hkind)

/-- Some things end before tokens of some kinds and at the end of a line. -/
theorem endsHere_mirrors {ends : Kind → Bool} (hconfined : known → c.Confined tight) :
    MirrorsAt c tight known here (do let kind ← currentKind; return ends kind || (← opensLine))
      (do let kind ← currentKind; return ends kind || (← opensLine)) Eq := by
  refine .kind_confined hconfined fun kind => ?_
  exact .bind (opensLine_mirrors hconfined) fun line line' => .pure fun hknown => by
    rw [hknown.2]

/-- Where there is a token ahead, it opens a line in both runs or in none. -/
theorem opensLine_mirrors_inside (hhere : ∀ state, here state → Inside state) :
    MirrorsAt c tight known here opensLine opensLine Eq := by
  refine ⟨get_orderly, fun _ start start' hstart _ => ⟨?_, hstart.1⟩⟩
  exact (hstart.1.opensLine_eq fun hkind => absurd hkind (hhere _ hstart.2)).symm

/-- The first token may be read where the runs look back at different ones. -/
theorem advance_mirrorsFrom (hpre : ∀ state state', pre state state' →
      c.Near state state' ∧ Inside state) :
    MirrorsFrom c tight known pre advance advance c.word := by
  refine ⟨advance_orderly, fun _ start start' hstart _ => ?_⟩
  obtain ⟨hnear, hinside⟩ := hpre start start' hstart
  exact ⟨hnear.current_word hinside, hnear.next hinside⟩

theorem advance_mirrors (hhere : ∀ state, here state → Inside state) :
    MirrorsAt c tight known here advance advance c.word :=
  advance_mirrorsFrom fun _ _ hstart => ⟨hstart.1.toNear, hhere _ hstart.2⟩

theorem inside_of_facing {kind : Kind} (hkind : kind ≠ .eof) (state : State)
    (hstate : Facing kind state) : Inside state := by
  rw [Inside, hstate]
  exact hkind

theorem Inside.remaining_pos {state : State} (hinside : Inside state) :
    0 < state.cursor.remaining := by
  rw [Cursor.remaining_eq, List.length_pos_iff, ne_eq, ← Cursor.kind_eq_eof_iff]
  exact hinside

/-- Reading a token of a kind that is known. -/
theorem advance_mirrors_facing {kind : Kind} (hkind : kind ≠ .eof) :
    MirrorsAt c tight known (Facing kind) advance advance c.word :=
  advance_mirrors (inside_of_facing hkind)

theorem moveNext_mirrors (hconfined : known → c.Confined tight) :
    MirrorsAt c tight known here (moveCursor Cursor.next) (moveCursor Cursor.next)
      fun _ _ => True := by
  refine ⟨moveNext_orderly, fun hknown start start' hstart hclean => ⟨trivial, ?_⟩⟩
  apply hstart.1.next
  intro hkind
  by_contra hapart
  have htight := (hconfined hknown).resolve_left hapart
  have hahead := (hclean.before (moveNext_orderly start) hapart).2 htight
  exact hahead (Cursor.kind_eq_eof_iff.1 hkind)

theorem accept?_bind {kind : Kind} (hkind : kind.isInner) {next next' : Option Token → Step α}
    {rel : α → α → Prop}
    (hsome : ∀ token token',
      Mirrors c tight (known ∧ c.word token token') (next (some token)) (next' (some token')) rel)
    (hnone : Mirrors c tight known (next none) (next' none) rel) :
    MirrorsAt c tight known here (accept? kind >>= next) (accept? kind >>= next') rel := by
  have heof := Kind.ne_eof_of_isInner hkind
  have hstep : MirrorsAt c tight known here
      (currentKind >>= fun found =>
        if found = kind then advance >>= fun token => next (some token) else next none)
      (currentKind >>= fun found =>
        if found = kind then advance >>= fun token => next' (some token) else next' none) rel :=
    .ifKind hkind (.bind (advance_mirrors_facing heof) hsome) hnone
  have haccept (next : Option Token → Step α) : (accept? kind >>= next) =
      currentKind >>= fun found =>
        if found = kind then advance >>= fun token => next (some token) else next none := by
    rw [accept?, bind_assoc]
    congr 1
    funext found
    split <;> simp
  rw [haccept, haccept]
  exact hstep

section Reporting

variable {diagnostic diagnostic' : Diagnostic} {first first' last last' : Token}
  {rel : α → α → Prop}

/-- The bad node that goes with a diagnostic begins where it is told to. -/
theorem report_mirrors_first (halike : known → c.Together →
      Diagnostic.Alike c.like diagnostic diagnostic' ∧ c.tied first first' ∧ c.tied last last') :
    MirrorsAt c tight known here (report diagnostic first last) (report diagnostic' first' last')
      fun bad bad' => c.like.bad bad bad' ∧ bad.first = first ∧ bad'.first = first' := by
  by_cases htogether : c.Together
  · refine ⟨report_orderly _ _ _, fun hknown start start' hstart _ => ?_⟩
    obtain ⟨hdiagnostic, hfirst, hlast⟩ := halike hknown htogether
    have hbad : c.like.bad ⟨first, last, diagnostic.message⟩
        ⟨first', last', diagnostic'.message⟩ :=
      ⟨htogether, hfirst, hlast, hdiagnostic.message⟩
    exact ⟨⟨hbad, rfl, rfl⟩, hstart.1.report hdiagnostic⟩
  · exact .of_reports (fun _ _ _ => htogether) (report_orderly _ _ _) (.report _ _ _)

theorem report_mirrors (halike : known → c.Together →
      Diagnostic.Alike c.like diagnostic diagnostic' ∧ c.tied first first' ∧ c.tied last last') :
    MirrorsAt c tight known here (report diagnostic first last) (report diagnostic' first' last')
      c.like.bad :=
  (report_mirrors_first halike).weaken fun _ _ _ hbad => hbad.1

theorem reportHere_mirrors
    (halike : known → c.Together → Diagnostic.Alike c.like diagnostic diagnostic') :
    MirrorsAt c tight known here (reportHere diagnostic) (reportHere diagnostic') c.like.bad := by
  apply MirrorsFrom.bind current_mirrors
  intro token token'
  apply report_mirrors
  rintro ⟨hknown, hcurrent⟩ htogether
  exact ⟨halike hknown htogether, hcurrent htogether, hcurrent htogether⟩

theorem fail_mirrors (halike : known → c.Together →
      Diagnostic.Alike c.like diagnostic diagnostic' ∧ c.tied first first' ∧ c.tied last last') :
    MirrorsOrFailsAt c tight known here (fail diagnostic first last : Production α)
      (fail diagnostic' first' last') rel :=
  .run_bind (.run_lift (report_mirrors halike)) fun _ _ => .run_throw fun hknown => hknown.2

theorem failHere_mirrors
    (halike : known → c.Together → Diagnostic.Alike c.like diagnostic diagnostic') :
    MirrorsOrFailsAt c tight known here (failHere diagnostic : Production α)
      (failHere diagnostic') rel :=
  .run_bind (.run_lift (reportHere_mirrors halike)) fun _ _ => .run_throw fun hknown => hknown.2

theorem expectedHere_mirrors (code : ErrorCode) (what : String) :
    MirrorsAt c tight known here (expectedHere code what) (expectedHere code what)
      fun diagnostic diagnostic' =>
        c.Together → Diagnostic.Alike c.like diagnostic diagnostic' := by
  apply MirrorsFrom.bind current_mirrors
  intro token token'
  apply MirrorsFrom.pure
  rintro ⟨-, hcurrent⟩ htogether
  have htied := hcurrent htogether
  rw [htied.kind]
  split
  · exact .illegal c.like_faithful htied
  · exact .expected code what htied

theorem failExpected_mirrors (code : ErrorCode) (what : String) :
    MirrorsOrFailsAt c tight known here
      (do failHere (← expectedHere code what) : Production α)
      (do failHere (← expectedHere code what)) rel :=
  .run_bind (.run_lift (expectedHere_mirrors code what)) fun _ _ =>
    failHere_mirrors fun hknown => hknown.2

theorem failList_mirrors (message : String) :
    MirrorsOrFailsAt c tight known here (failList message : Production α) (failList message)
      rel :=
  .run_bind (.run_lift current_mirrors) fun _ _ =>
    failHere_mirrors fun hknown htogether => ⟨rfl, rfl, rfl, hknown.2 htogether, rfl⟩

theorem failTooDeep_mirrors :
    MirrorsOrFailsAt c tight known here (failTooDeep : Production α) failTooDeep rel :=
  .run_bind (.run_lift current_mirrors) fun _ _ =>
    failHere_mirrors fun hknown htogether => ⟨rfl, rfl, rfl, hknown.2 htogether, rfl⟩

end Reporting

/-- What is stepped over after a report is the same on both sides. -/
theorem stepOverUnless_mirrors (htogether : known → c.Together) (needed : Kind → Bool) :
    MirrorsAt c tight known here (stepOverUnless needed) (stepOverUnless needed)
      fun _ _ => True := by
  apply MirrorsFrom.kind_confined (fun hknown => .inl (htogether hknown))
  intro kind
  exact .ite (fun _ => .rfl) (fun _ => .pure fun _ => trivial)
    fun _ => moveNext_mirrors fun hknown => .inl (htogether hknown)

theorem expectAs_mirrors (code : ErrorCode) {kind : Kind} (what : String) (hkind : kind.isInner) :
    MirrorsOrFailsAt c tight known here (expectAs code kind what) (expectAs code kind what)
      c.word := by
  have heof := Kind.ne_eof_of_isInner hkind
  refine .run_ifKind hkind (.run_lift (advance_mirrors_facing heof)) ?_
  refine .run_bind (.run_lift (expectedHere_mirrors code what)) fun _ _ => ?_
  refine .run_bind (.run_lift (reportHere_mirrors fun hknown => hknown.2)) fun _ _ => ?_
  refine .run_bind (.run_lift (stepOverUnless_mirrors (fun hknown => hknown.2.1) _)) fun _ _ => ?_
  exact .run_throw fun hknown => hknown.1.2

/-- A token that is there may be read where the runs look back at different ones. -/
theorem expectAs_mirrorsFrom (code : ErrorCode) {kind : Kind} (what : String)
    (hpre : ∀ state state', pre state state' →
      c.Near state state' ∧ Inside state ∧ state.cursor.kind = kind) :
    MirrorsFrom c tight known pre (expectAs code kind what).run (expectAs code kind what).run
      (Outcome c c.word) := by
  refine ⟨expectAs_orderly code kind what, fun hknown start start' hstart hclean => ?_⟩
  obtain ⟨hnear, hinside, hkind⟩ := hpre start start' hstart
  have hkind' : start'.cursor.kind = kind :=
    (hnear.kinds.resolve_right fun hend => hinside hend.2.1).trans hkind
  have hreads {state : State} (hstate : state.cursor.kind = kind) :
      Succeeds (expectAs code kind what) state state.cursor.current
        (state.moveTo state.cursor.next) := .look hstate (.of_pos rfl rfl)
  rw [show _ = _ from hreads hkind, show _ = _ from hreads hkind']
  exact ⟨.ok (hnear.current_word hinside), hnear.next hinside⟩

theorem expectName_mirrors (what : String) :
    MirrorsOrFailsAt c tight known here (expectName what) (expectName what) c.word :=
  expectAs_mirrors _ what rfl

theorem skip_mirrors (htogether : known → c.Together) (rule : Skip.Rule) :
    MirrorsAt c tight known here (skip rule) (skip rule) fun _ _ => True :=
  ⟨skip_orderly rule, fun hknown _ _ hstart _ =>
    ⟨trivial, hstart.1.skip (htogether hknown) rule⟩⟩

section Recovering

variable {first first' : Token} {bad bad' : BadNode} {production production' : Production α}
  {rel : α → α → Prop}

/-- A stretched bad node begins where it is told to. -/
theorem cover_mirrors_first (hbad : known → c.like.bad bad bad')
    (hfirst : known → c.word first first') :
    MirrorsAt c tight known here (cover first bad) (cover first' bad') fun node node' =>
      c.like.bad node node' ∧ node.first = first ∧ node'.first = first' := by
  refine ⟨cover_orderly first bad, fun hknown start start' hstart _ => ⟨⟨?_, rfl, rfl⟩, hstart.1⟩⟩
  obtain ⟨htogether, -, hlast, hreason⟩ := hbad hknown
  have hcovered := Coupling.tied_laterToken hlast hstart.1.previous
  exact ⟨htogether, (hfirst hknown).tied, Coupling.tied_laterToken hcovered (hfirst hknown),
    hreason⟩

theorem cover_mirrors (hbad : known → c.like.bad bad bad') (hfirst : known → c.word first first') :
    MirrorsAt c tight known here (cover first bad) (cover first' bad') c.like.bad :=
  (cover_mirrors_first hbad hfirst).weaken fun _ _ _ hnode => hnode.1

/-- The first token may even be the end of the file if the bad node ends there. -/
theorem cover_mirrors_here (hbad : known → c.like.bad bad bad')
    (hfirst : known → c.Together → c.tied first first')
    (hlast : known → bad.last = first ∧ bad'.last = first') :
    MirrorsAt c tight known here (cover first bad) (cover first' bad') c.like.bad := by
  have habsorbs (token other : Token) :
      laterToken (laterToken token other) token = laterToken token other := by
    by_cases hlater : token.position < other.position
    · rw [laterToken, laterToken, if_pos hlater]
      exact if_neg (Position.not_lt.2 (Position.le_of_lt hlater))
    · rw [laterToken, laterToken, if_neg hlater, ite_self]
  refine ⟨cover_orderly first bad, fun hknown start start' hstart _ => ⟨?_, hstart.1⟩⟩
  obtain ⟨htogether, -, htied, hreason⟩ := hbad hknown
  obtain ⟨rfl, rfl⟩ := hlast hknown
  refine ⟨htogether, htied, ?_, hreason⟩
  change c.tied (laterToken (laterToken _ _) _) (laterToken (laterToken _ _) _)
  rw [habsorbs, habsorbs]
  exact Coupling.tied_laterToken htied hstart.1.previous

theorem onFailure_mirrors {repair repair' : BadNode → Step BadNode}
    (hproduction : MirrorsFrom c tight known pre production.run production'.run (Outcome c rel))
    (hrepair : ∀ bad bad', Mirrors c tight (known ∧ c.like.bad bad bad') (repair bad)
      (repair' bad') c.like.bad) :
    MirrorsFrom c tight known pre (onFailure production repair).run
      (onFailure production' repair').run (Outcome c rel) := by
  refine .bind_run hproduction (fun _ _ => .pure fun hknown => .ok hknown.2) fun bad bad' => ?_
  exact .bind (hrepair bad bad') fun _ _ => .pure fun hknown => .error hknown.2

theorem covering_mirrors
    (hproduction : MirrorsFrom c tight known pre production.run production'.run (Outcome c rel))
    (hfirst : known → c.word first first') :
    MirrorsFrom c tight known pre (covering first production).run
      (covering first' production').run (Outcome c rel) :=
  onFailure_mirrors hproduction fun _ _ =>
    cover_mirrors (fun hknown => hknown.2) fun hknown => hfirst hknown.1

theorem skipping_mirrors (rule : Skip.Rule)
    (hproduction : MirrorsFrom c tight known pre production.run production'.run (Outcome c rel)) :
    MirrorsFrom c tight known pre (skipping rule production).run
      (skipping rule production').run (Outcome c rel) :=
  onFailure_mirrors hproduction fun _ _ =>
    .bind (skip_mirrors (fun hknown => hknown.2.1) rule) fun _ _ =>
      .pure fun hknown => hknown.1.2

theorem recoverWith_mirrors (rule : Skip.Rule) {ofBad : BadNode → α}
    (hproduction : MirrorsFrom c tight known pre production.run production'.run (Outcome c rel))
    (hfirst : known → c.word first first')
    (hofBad : ∀ bad bad', c.like.bad bad bad' → rel (ofBad bad) (ofBad bad')) :
    MirrorsFrom c tight known pre (recoverWith rule first ofBad production)
      (recoverWith rule first' ofBad production') rel := by
  refine .bind_run hproduction (fun _ _ => .pure fun hknown => hknown.2) fun bad bad' => ?_
  refine .bind (skip_mirrors (fun hknown => hknown.2.1) rule) fun _ _ => ?_
  refine .bind (cover_mirrors (fun hknown => hknown.1.2) fun hknown => hfirst hknown.1.1) ?_
  exact fun _ _ => .pure fun hknown => hofBad _ _ hknown.2

/-- The failure of an attempt is a value like any other. -/
theorem attempt_mirrors
    (hproduction : MirrorsFrom c tight known pre production.run production'.run (Outcome c rel)) :
    MirrorsFrom c tight known pre (attempt production).run (attempt production').run
      (Outcome c (Outcome c rel)) :=
  .run_lift hproduction

theorem settle_mirrors {outcome outcome' : Except BadNode α}
    (houtcome : known → Outcome c rel outcome outcome') :
    MirrorsOrFailsAt c tight known here (settle outcome) (settle outcome') rel :=
  MirrorsFrom.pure houtcome

end Recovering

section Contexts

variable {production production' : Production α} {rel : α → α → Prop}

theorem unlessAt_mirrors {kind : Kind} (hkind : kind.isInner)
    (hproduction : MirrorsOrFails c tight known production production' rel) :
    MirrorsOrFailsAt c tight known here (unlessAt kind production) (unlessAt kind production')
      (Option.Rel rel) :=
  .run_ifKind hkind (.run_pure fun _ => .none)
    (.run_bind hproduction fun _ _ => .run_pure fun hknown => .some hknown.2)

/-- Inside two changes of the counters. -/
theorem between_mirrors {enter enter' leave leave' : State → State}
    {there : State → State → Prop}
    (hproduction : MirrorsFrom c tight known there production.run production'.run (Outcome c rel))
    (henter : ∀ state state', pre state state' → there (enter state) (enter' state'))
    (hleave : ∀ state state', c.Relates state state' → c.Relates (leave state) (leave' state'))
    (hsame : ∀ state : State, (leave state).SameText state)
    (horderly : ∀ start stop, (enter start).Follows stop → start.Follows (leave stop)) :
    MirrorsFrom c tight known pre (between enter leave production).run
      (between enter' leave' production').run (Outcome c rel) := by
  refine ⟨between_orderly hproduction.orderly horderly, ?_⟩
  intro hknown start start' hstart hclean
  have hstop : c.Clean tight (production.run.run (enter start)).2 := by
    intro hapart
    have hleft := hclean hapart
    change (leave _).diagnostics.size ≤ _ ∧ (_ → (leave _).cursor.ahead ≠ []) at hleft
    rwa [(hsame _).1, (hsame _).2] at hleft
  obtain ⟨hvalue, hrelates⟩ := hproduction.ends hknown _ _ (henter start start' hstart) hstop
  exact ⟨hvalue, hleave _ _ hrelates⟩

/-- Where there is room, the runs may look back at different tokens. -/
theorem descend_mirrorsFrom {there : State → State → Prop}
    (hroom : ∀ state state', pre state state' →
      state'.nesting = state.nesting ∧ state.nesting < maxNesting)
    (hthere : ∀ state state', pre state state' → there state.deeper state'.deeper)
    (hproduction : MirrorsFrom c tight known there production.run production'.run
      (Outcome c rel)) :
    MirrorsFrom c tight known pre (descend production).run (descend production').run
      (Outcome c rel) := by
  refine ⟨descend_orderly hproduction.orderly, fun hknown start start' hstart hclean => ?_⟩
  obtain ⟨hnesting, hroom⟩ := hroom start start' hstart
  rw [descend_of_room hroom] at hclean ⊢
  rw [descend_of_room (hnesting.symm ▸ hroom)]
  obtain ⟨hvalue, hrelates⟩ := hproduction.ends hknown _ _ (hthere start start' hstart) hclean
  exact ⟨hvalue, hrelates.recount ⟨rfl, rfl⟩ ⟨rfl, rfl⟩ (congrArg (· - 1) hrelates.nesting)
    hrelates.loopDepth⟩

theorem descend_mirrors (hhere : ∀ state, here state → here state.deeper)
    (hproduction : MirrorsOrFailsAt c tight known here production production' rel) :
    MirrorsOrFailsAt c tight known here (descend production) (descend production') rel := by
  apply MirrorsFrom.run_step
  apply MirrorsFrom.look (fun state => state) (fun state => state)
    fun state state' => state'.nesting = state.nesting
  · exact fun _ _ _ hstart => hstart.1.nesting
  intro state state'
  refine .run_ite (fun hknown => by rw [hknown.2]) (fun _ => ?_) fun _ => ?_
  · exact failTooDeep_mirrors
  · refine between_mirrors (hproduction.knowing fun hknown => hknown.1) ?_ ?_ ?_ ?_
    · intro start start' hstart
      refine ⟨hstart.1.recount ⟨rfl, rfl⟩ ⟨rfl, rfl⟩ ?_ hstart.1.loopDepth, hhere _ hstart.2.1⟩
      exact congrArg (· + 1) hstart.1.nesting
    · intro start start' hrelates
      exact hrelates.recount ⟨rfl, rfl⟩ ⟨rfl, rfl⟩ (congrArg (· - 1) hrelates.nesting)
        hrelates.loopDepth
    · exact fun _ => ⟨rfl, rfl⟩
    · intro start stop hstop
      exact ⟨hstop.reads, hstop.reports, by simp [hstop.nesting], hstop.loopDepth⟩

end Contexts

/-- Passes that are both the last ones, or neither is. -/
inductive Turn (rel : β → β → Prop) : ForInStep β → ForInStep β → Prop where
  | yield {found found' : β} (hfound : rel found found') : Turn rel (.yield found) (.yield found')
  | done {found found' : β} (hfound : rel found found') : Turn rel (.done found) (.done found')

section Loops

variable {rel : β → β → Prop}

/-- What goes on behind a pass goes on with another one or with the result. -/
theorem Turn.mirrors {pre : ForInStep β → ForInStep β → State → State → Prop}
    {next next' : ForInStep β → Step α} {relNext : α → α → Prop}
    (hyield : ∀ found found', MirrorsFrom c tight (known ∧ rel found found')
      (pre (.yield found) (.yield found')) (next (.yield found)) (next' (.yield found')) relNext)
    (hdone : ∀ found found', MirrorsFrom c tight (known ∧ rel found found')
      (pre (.done found) (.done found')) (next (.done found)) (next' (.done found')) relNext)
    (turn turn' : ForInStep β) :
    MirrorsFrom c tight (known ∧ Turn rel turn turn') (pre turn turn') (next turn) (next' turn')
      relNext := by
  cases turn with
  | yield found =>
      cases turn' with
      | yield found' =>
          refine (hyield found found').knowing fun hknown => ⟨hknown.1, ?_⟩
          cases hknown.2 with
          | yield hfound => exact hfound
      | done found' =>
          exact .of_not_known (hyield found found).orderly fun hknown => nomatch hknown.2
  | done found =>
      cases turn' with
      | yield found' =>
          exact .of_not_known (hdone found found).orderly fun hknown => nomatch hknown.2
      | done found' =>
          refine (hdone found found').knowing fun hknown => ⟨hknown.1, ?_⟩
          cases hknown.2 with
          | done hfound => exact hfound

/-- One more pass on both sides, and what is known of the rest of the passes. -/
theorem passes_mirrors_succ {pass : β → Step (ForInStep β)} (hgains : Gains pass)
    {bound bound' : Nat} {found found' : β}
    (hpass : Mirrors c tight (known ∧ rel found found') (pass found) (pass found') (Turn rel))
    (hrest : ∀ found found', MirrorsFrom c tight (known ∧ rel found found')
      (fun state state' => c.Relates state state' ∧ state.cursor.remaining < bound ∧
        state'.cursor.remaining < bound')
      (passes pass bound found) (passes pass bound' found') rel) :
    MirrorsFrom c tight (known ∧ rel found found')
      (fun state state' => c.Relates state state' ∧ state.cursor.remaining < bound + 1 ∧
        state'.cursor.remaining < bound' + 1)
      (passes pass (bound + 1) found) (passes pass (bound' + 1) found') rel := by
  refine .bind_both (Turns (fun _ state => state.cursor.remaining < bound) fun _ _ => True)
    (Turns (fun _ state => state.cursor.remaining < bound') fun _ _ => True)
    (hpass.mono (fun hknown _ _ hstart => ⟨hknown, hstart.1, trivial⟩) fun _ _ _ hvalue => hvalue)
    (fun _ _ hstart => hgains found bound _ (Nat.le_of_lt_succ hstart.2.1))
    (fun _ _ hstart => hgains found' bound' _ (Nat.le_of_lt_succ hstart.2.2))
    (Turn.mirrors (fun found found' => ?_) fun found found' => ?_)
  · exact (hrest found found').knowing fun hknown => ⟨hknown.1.1, hknown.2⟩
  · exact ⟨.pure _, fun hknown _ _ hstart _ => ⟨hknown.2, hstart.1⟩⟩

/-- Loops mirror each other though their bounds differ, since neither reaches its bound. -/
theorem passes_mirrors {pass : β → Step (ForInStep β)} (hgains : Gains pass)
    (hpass : ∀ found found',
      Mirrors c tight (known ∧ rel found found') (pass found) (pass found') (Turn rel))
    (bound bound' : Nat) (found found' : β) :
    MirrorsFrom c tight (known ∧ rel found found')
      (fun state state' => c.Relates state state' ∧ state.cursor.remaining < bound ∧
        state'.cursor.remaining < bound')
      (passes pass bound found) (passes pass bound' found') rel := by
  induction bound generalizing bound' found found' with
  | zero => exact ⟨.pure _, fun _ _ _ hstart => absurd hstart.2.1 (Nat.not_lt_zero _)⟩
  | succ bound ih =>
      cases bound' with
      | zero =>
          refine ⟨(hpass found found).orderly.bind fun turn => ?_, fun _ _ _ hstart =>
            absurd hstart.2.2 (Nat.not_lt_zero _)⟩
          cases turn with
          | yield found => exact (ih 0 found found).orderly
          | done result => exact .pure _
      | succ bound' => exact passes_mirrors_succ hgains (hpass found found') (ih bound')

theorem repeatStep_mirrors {pass : β → Step (ForInStep β)} {found found' : β}
    (hgains : Gains pass)
    (hpass : ∀ found found',
      Mirrors c tight (known ∧ rel found found') (pass found) (pass found') (Turn rel))
    (hfound : known → rel found found') :
    MirrorsAt c tight known here (repeatStep pass found) (repeatStep pass found') rel := by
  refine ⟨repeatStep_orderly (fun found => (hpass found found).orderly) found, ?_⟩
  intro hknown start start' hstart
  exact (passes_mirrors hgains hpass _ _ found found').ends ⟨hknown, hfound hknown⟩ start start'
    ⟨hstart.1, Nat.lt_succ_self _, Nat.lt_succ_self _⟩

theorem run_passes_mirrors {pass : β → Production (ForInStep β)} (hgains : GainsOrFails pass)
    (hpass : ∀ found found',
      MirrorsOrFails c tight (known ∧ rel found found') (pass found) (pass found') (Turn rel))
    (bound bound' : Nat) (found found' : β) :
    MirrorsFrom c tight (known ∧ rel found found')
      (fun state state' => c.Relates state state' ∧ state.cursor.remaining < bound ∧
        state'.cursor.remaining < bound')
      (passes pass bound found).run (passes pass bound' found').run (Outcome c rel) := by
  induction bound generalizing bound' found found' with
  | zero => exact ⟨.run_pure _, fun _ _ _ hstart => absurd hstart.2.1 (Nat.not_lt_zero _)⟩
  | succ bound ih =>
      cases bound' with
      | zero =>
          refine ⟨.run_bind (hpass found found).orderly fun turn => ?_, fun _ _ _ hstart =>
            absurd hstart.2.2 (Nat.not_lt_zero _)⟩
          cases turn with
          | yield found => exact (ih 0 found found).orderly
          | done result => exact .run_pure _
      | succ bound' =>
          rw [passes, passes, ExceptT.run_bind, ExceptT.run_bind]
          refine .bind_both
            (Ends (Turns (fun _ state => state.cursor.remaining < bound) fun _ _ => True)
              fun _ _ => True)
            (Ends (Turns (fun _ state => state.cursor.remaining < bound') fun _ _ => True)
              fun _ _ => True)
            ((hpass found found').mono (fun hknown _ _ hstart => ⟨hknown, hstart.1, trivial⟩)
              fun _ _ _ hvalue => hvalue)
            (fun _ _ hstart => hgains found bound _ (Nat.le_of_lt_succ hstart.2.1))
            (fun _ _ hstart => hgains found' bound' _ (Nat.le_of_lt_succ hstart.2.2))
            (.of_outcome _ (fun turn turn' => ?_) ?_)
          · dsimp only
            apply Turn.mirrors
            · intro found found'
              exact (ih bound' found found').knowing fun hknown => ⟨hknown.1.1, hknown.2⟩
            · exact fun found found' =>
                ⟨.run_pure _, fun hknown _ _ hstart _ => ⟨.ok hknown.2, hstart.1⟩⟩
          · exact fun bad bad' => ⟨.pure _, fun hknown _ _ hstart _ => ⟨.error hknown.2, hstart.1⟩⟩

theorem repeatProduction_mirrors {pass : β → Production (ForInStep β)} {found found' : β}
    (hgains : GainsOrFails pass)
    (hpass : ∀ found found',
      MirrorsOrFails c tight (known ∧ rel found found') (pass found) (pass found') (Turn rel))
    (hfound : known → rel found found') :
    MirrorsOrFailsAt c tight known here (repeatProduction pass found)
      (repeatProduction pass found') rel := by
  refine ⟨repeatProduction_orderly (fun found => (hpass found found).orderly) found, ?_⟩
  intro hknown start start' hstart
  exact (run_passes_mirrors hgains hpass _ _ found found').ends ⟨hknown, hfound hknown⟩ start
    start' ⟨hstart.1, Nat.lt_succ_self _, Nat.lt_succ_self _⟩

end Loops

end Grammar

end OriSyntax
