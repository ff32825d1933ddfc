import OriSyntax.Proofs.Coincidence
import OriSyntax.Proofs.Layout

/-!
Boundaries between declarations.  Behind tokens that were read without a report, a declaration
is read as behind a package clause alone: what comes before it neither sees it nor leaves a
trace in it.  A run is looked at where it reaches the boundary: up to it, it does what it does
on the tokens before the boundary alone, and from there on what any other run does that
reaches the boundary with the rest of the tokens ahead.
-/

namespace OriSyntax

open Grammar

/-- The items of `rest` behind those of `file`, bucket by bucket. -/
def File.append (file rest : File) : File where
  package := file.package
  name := file.name
  consts := file.consts ++ rest.consts
  decls := file.decls ++ rest.decls
  structs := file.structs ++ rest.structs
  interfaces := file.interfaces ++ rest.interfaces
  enums := file.enums ++ rest.enums
  sums := file.sums ++ rest.sums
  implements := file.implements ++ rest.implements

theorem File.ofItems_append (package name package' name' : Token) (items others : List Item) :
    File.ofItems package name (items ++ others) =
      (File.ofItems package name items).append (File.ofItems package' name' others) := by
  simp only [File.ofItems, File.append, List.filterMap_append]

theorem Cursor.ahead_ofTokens_of_written {tokens : List Token}
    (htokens : ∀ token ∈ tokens, token.kind.isWritten) :
    (Cursor.ofTokens tokens).ahead = tokens := by
  have hnone : ∀ token ∈ ([] : List Token).head?, token.kind = .eof := by simp
  simpa using Cursor.ahead_ofTokens_append htokens hnone

/-- The made end of the file depends on the last token only. -/
theorem Cursor.eof_ofTokens_append_of_written {tokens second : List Token}
    (htokens : ∀ token ∈ tokens, token.kind.isWritten)
    (hsecond : ∀ token ∈ second, token.kind.isWritten) (hnonempty : second ≠ []) :
    (Cursor.ofTokens (tokens ++ second)).eof = Cursor.closingToken second := by
  have hwritten : ∀ token ∈ tokens ++ second, token.kind.isWritten :=
    List.forall_mem_append.2 ⟨htokens, hsecond⟩
  have hnone : ∀ token ∈ ([] : List Token).head?, token.kind = .eof := by simp
  have heof := Cursor.eof_ofTokens_append hwritten hnone
  rw [List.append_nil] at heof
  rw [heof]
  simp [Cursor.closingToken, List.getLast?_append_of_ne_nil _ hnonempty]

namespace Grammar

section Shared

variable {tokens : List Token} {ending : Ending}

/-- Both runs read the same tokens. -/
def Coupling.ofShared (tokens : List Token) (ending : Ending) (past past' : List Token)
    (htokens : tokens ≠ []) (hclosing : ∀ pair ∈ ending.closing, pair.2 = pair.1)
    (hopens : ∀ token ∈ ending.follow.head?, KindSet.declStart.contains token.kind) :
    Coupling :=
  have hshared : ∀ pair ∈ tokens.map (fun token => (token, token)) ++ ending.closing,
      pair.2 = pair.1 := by
    intro pair hpair
    rcases List.mem_append.1 hpair with hword | hpair
    · obtain ⟨token, -, rfl⟩ := List.mem_map.1 hword
      rfl
    · exact hclosing pair hpair
  { pairs := tokens.map fun token => (token, token)
    ending := ending
    past := past
    past' := past'
    told := []
    told' := []
    nonempty := by simpa using htokens
    same := fun pair hpair => by rw [hshared pair hpair]; exact ⟨rfl, rfl⟩
    order := fun pair hpair word hword => by
      rw [hshared pair hpair, hshared word (List.mem_append_left _ hword)]
    breaks := by
      rw [List.isChain_iff_getElem]
      intro index hindex
      rw [hshared _ (List.getElem_mem _), hshared _ (List.getElem_mem _)]
    opens := hopens }

variable {past past' : List Token} {htokens : tokens ≠ []}
  {hclosing : ∀ pair ∈ ending.closing, pair.2 = pair.1}
  {hopens : ∀ token ∈ ending.follow.head?, KindSet.declStart.contains token.kind}

theorem Coupling.like_exact_ofShared :
    (Coupling.ofShared tokens ending past past' htokens hclosing hopens).like.Exact := by
  have htied {token token' : Token} (htied :
      (Coupling.ofShared tokens ending past past' htokens hclosing hopens).tied token token') :
      token' = token := by
    rcases List.mem_append.1 htied with hword | hpair
    · obtain ⟨shared, -, hshared⟩ := List.mem_map.1 hword
      obtain ⟨rfl, rfl⟩ := Prod.mk.inj hshared
      rfl
    · exact hclosing _ hpair
  refine ⟨htied, fun {node node'} hbad => ?_⟩
  obtain ⟨first, last, reason⟩ := node
  obtain ⟨first', last', reason'⟩ := node'
  obtain ⟨-, hfirst, hlast, hreason⟩ := hbad
  obtain rfl : first' = first := htied hfirst
  obtain rfl : last' = last := htied hlast
  obtain rfl : reason' = reason := hreason
  rfl

/-- The runs stand at one place if the shared tokens are ahead of both. -/
theorem Coupling.near_ofShared {state state' : State}
    (hbehind : state.cursor.behind = past) (hbehind' : state'.cursor.behind = past')
    (hahead : state.cursor.ahead = tokens) (hahead' : state'.cursor.ahead = tokens ++ ending.follow)
    (heof : ∀ pair ∈ ending.closing, state.cursor.eof = pair.1 ∧ state'.cursor.eof = pair.2)
    (hnesting : state'.nesting = state.nesting) (hloopDepth : state'.loopDepth = state.loopDepth)
    (hsilent : state.diagnostics = #[]) (hsilent' : state'.diagnostics = #[]) :
    (Coupling.ofShared tokens ending past past' htokens hclosing hopens).Near state state' where
  placed := by
    refine ⟨[], tokens.map fun token => (token, token), rfl, hbehind, hbehind', ?_, ?_, heof⟩
    · simpa [Function.comp_def] using hahead
    · simpa [Function.comp_def, Coupling.ofShared] using hahead'
  nesting := hnesting
  loopDepth := hloopDepth
  reports := ⟨[], [], by rw [hsilent]; rfl, by rw [hsilent']; rfl, .nil⟩

end Shared

theorem rounds_follow {found : List Item} {start : State} {last : List Item × State}
    (hrounds : Relation.ReflTransGen (Round itemPass) (found, start) last) :
    start.Follows last.2 := by
  induction hrounds with
  | refl => exact .refl _
  | @tail here there _ hround ih =>
      have hfollows := itemPass_orderly here.1 here.2
      rw [show (itemPass outermost here.1).run here.2 = _ from hround] at hfollows
      exact ih.trans hfollows

/-- The run over a list has read the package clause `header` and gathered `items`, the last one
first; nothing was reported, and `rest` is ahead. -/
structure Arrives (tokens : List Token) (header : Token × Token) (items : List Item)
    (rest : List Token) (middle : State) : Prop where
  rounds : ∃ start, Succeeds packageClause (initialState tokens) header start ∧
    Relation.ReflTransGen (Round itemPass) ([], start) (items, middle)
  ahead : middle.cursor.ahead = rest
  silent : middle.diagnostics = #[]

namespace Arrives

variable {tokens rest : List Token} {header : Token × Token} {items : List Item}
  {middle : State}

theorem follows (harrives : Arrives tokens header items rest middle) :
    (initialState tokens).Follows middle := by
  obtain ⟨start, hclause, hrounds⟩ := harrives.rounds
  have hfollows := packageClause_orderly (initialState tokens)
  rw [show packageClause.run.run (initialState tokens) = _ from hclause] at hfollows
  exact hfollows.trans (rounds_follow hrounds)

theorem eof (harrives : Arrives tokens header items rest middle) :
    middle.cursor.eof = (Cursor.ofTokens tokens).eof := by
  obtain ⟨run, hrun⟩ := harrives.follows.reads
  exact hrun.eof

/-- Further rounds up to the end of the file complete the run. -/
theorem parse_eq (harrives : Arrives tokens header items rest middle) {last : List Item × State}
    (hrounds : Relation.ReflTransGen (Round itemPass) (items, middle) last)
    (hend : last.2.cursor.kind = .eof) :
    parse tokens = ⟨.ofItems header.1 header.2 last.1.reverse, last.2.diagnostics.toList⟩ := by
  obtain ⟨start, hclause, hbefore⟩ := harrives.rounds
  have hfile : Gives file (initialState tokens)
      (.ofItems header.1 header.2 last.1.reverse) last.2 :=
    .bind hclause (.bind (items_gives_of_rounds (hbefore.trans hrounds) hend) (.pure _ _))
  change Parsed.mk (file.run (initialState tokens)).1
    (file.run (initialState tokens)).2.diagnostics.toList = _
  rw [hfile]

/-- Behind a boundary the runs do the same, whatever each has read before. -/
theorem parse_rest {tokens' : List Token} {header' : Token × Token} {middle' : State}
    (harrives : Arrives tokens header items rest middle)
    (harrives' : Arrives tokens' header' [] rest middle')
    (heof : (Cursor.ofTokens tokens').eof = (Cursor.ofTokens tokens).eof) (hrest : rest ≠ []) :
    (parse tokens).diagnostics = (parse tokens').diagnostics ∧
      ∃ found, (parse tokens).file = .ofItems header.1 header.2 (items.reverse ++ found) ∧
        (parse tokens').file = .ofItems header'.1 header'.2 found := by
  have hclosing : ∀ pair ∈ (Ending.together middle.cursor.eof middle'.cursor.eof).closing,
      pair.2 = pair.1 := by
    simp [Ending.closing, harrives.eof, harrives'.eof, heof]
  let c := Coupling.ofShared rest (.together middle.cursor.eof middle'.cursor.eof)
    middle.cursor.behind middle'.cursor.behind hrest hclosing (by simp [Ending.follow])
  have hnear : c.Near middle middle' := by
    apply Coupling.near_ofShared rfl rfl harrives.ahead
    · rw [harrives'.ahead]
      exact (List.append_nil _).symm
    · simp [Ending.closing]
    · exact harrives'.follows.nesting.trans harrives.follows.nesting.symm
    · exact harrives'.follows.loopDepth.trans harrives.follows.loopDepth.symm
    · exact harrives.silent
    · exact harrives'.silent
  have htogether : c.Together := rfl
  have hexact : c.like.Exact := Coupling.like_exact_ofShared
  obtain ⟨last, hrounds, hkind⟩ := exists_rounds items middle
  obtain ⟨last', hrounds', ⟨found, hfound, halike⟩, hend, -⟩ :=
    rounds_mirror hnear ⟨[], rfl, .nil⟩ hrounds fun hapart => absurd htogether hapart
  have hkind' : last'.2.cursor.kind = .eof :=
    (hend.kinds.resolve_right fun hapart => hapart.1 htogether).trans hkind
  have hsame : last'.1 = found := eq_of_forall₂ (Item.Alike.eq hexact) halike
  obtain ⟨added, added', hadded, hadded', hall⟩ := hend.reports
  have htold : added' = added := eq_of_forall₂ (Diagnostic.Alike.eq hexact) hall
  rw [harrives.parse_eq hrounds hkind, harrives'.parse_eq hrounds' hkind', hfound, hsame]
  refine ⟨?_, found.reverse, ?_, rfl⟩
  · rw [hadded, hadded', htold]
    rfl
  · rw [List.reverse_append]

end Arrives

theorem packageClause_failsAloud : FailsAloud packageClause := by
  refine .bind (.lift get_orderly) fun _ => .ite ?_ (.bind (.lift get_orderly) fun _ => ?_)
  · refine .bind (.lift advance_orderly) fun keyword => .bind (.covering keyword ?_) fun _ => ?_
    · exact (expectName_accounts _).failsAloud
    · exact .pure _
  · exact .failHere _

/-- Tokens that are read without a report are read to their end. -/
theorem exists_arrives {tokens : List Token} (hclean : (parse tokens).diagnostics = []) :
    ∃ header items middle, Arrives tokens header items [] middle := by
  have hsilent : (file.run (initialState tokens)).2.diagnostics = #[] :=
    Array.toList_eq_nil_iff.1 hclean
  have haloud := packageClause_failsAloud _ _ (.refl (initialState tokens))
  revert haloud
  cases hclause : packageClause.run.run (initialState tokens) with
  | mk outcome start =>
  intro haloud
  obtain ⟨last, hrounds, hkind⟩ := exists_rounds [] start
  have hitems := items_gives_of_rounds hrounds hkind
  cases outcome with
  | error bad =>
      have hfile : Gives file (initialState tokens) _ last.2 :=
        .bind hclause (.bind hitems (.pure _ _))
      rw [hfile] at hsilent
      have hsize := (rounds_follow hrounds).reaches.size_le
      rw [hsilent] at hsize
      exact absurd (Nat.lt_of_lt_of_le haloud hsize) (Nat.not_lt_zero _)
  | ok header =>
      have hfile : Gives file (initialState tokens) _ last.2 :=
        .bind hclause (.bind hitems (.pure _ _))
      rw [hfile] at hsilent
      exact ⟨header, last.1, last.2, ⟨start, hclause, hrounds⟩, Cursor.kind_eq_eof_iff.1 hkind,
        hsilent⟩

/-- A package clause that is read in one run is read in the other one. -/
theorem packageClause_follows {c : Coupling} (hexact : c.like.Exact) {state state' start : State}
    {header : Token × Token} (hrelates : c.Relates state state')
    (hclause : Succeeds packageClause state header start) (hclean : c.Clean false start) :
    ∃ start', Succeeds packageClause state' header start' ∧ c.Relates start start' := by
  have hmirrors : MirrorsOrFails c false True packageClause packageClause
      fun clause clause' => c.word clause.1 clause'.1 ∧ c.word clause.2 clause'.2 :=
    packageClause_mirrors
  have hends := hmirrors.ends trivial _ _ ⟨hrelates, trivial⟩
  rw [show packageClause.run.run state = _ from hclause] at hends
  cases hclause' : packageClause.run.run state' with
  | mk outcome' start' =>
  rw [hclause'] at hends
  obtain ⟨houtcome, hstart⟩ := hends hclean
  cases houtcome with
  | @ok _ header' hheader =>
      obtain rfl : header' = header :=
        Prod.ext (hexact.token hheader.1.tied) (hexact.token hheader.2.tied)
      exact ⟨start', hclause', hstart⟩

/-- What is read to its end without a report is read in the same way before a declaration. -/
theorem Arrives.onward {first others : List Token} {next : Token} {header : Token × Token}
    {items : List Item} {middle : State} (harrives : Arrives first header items [] middle)
    (hnonempty : first ≠ []) (hfirst : ∀ token ∈ first, token.kind.isWritten)
    (hsecond : ∀ token ∈ next :: others, token.kind.isWritten)
    (hopens : KindSet.declStart.contains next.kind) :
    ∃ middle', Arrives (first ++ next :: others) header items (next :: others) middle' := by
  let c := Coupling.ofShared first (.onward next others) [] [] hnonempty
    (by simp [Ending.closing]) (by simpa [Ending.follow] using hopens)
  have hexact : c.like.Exact := Coupling.like_exact_ofShared
  have hnear : c.Near (initialState first) (initialState (first ++ next :: others)) := by
    apply Coupling.near_ofShared
    · rfl
    · rfl
    · exact Cursor.ahead_ofTokens_of_written hfirst
    · exact Cursor.ahead_ofTokens_of_written (List.forall_mem_append.2 ⟨hfirst, hsecond⟩)
    · simp [Ending.closing]
    all_goals rfl
  have hrelates : c.Relates (initialState first) (initialState (first ++ next :: others)) := by
    obtain ⟨read, left, hplaced⟩ := hnear.placed
    exact ⟨hnear, read, left, .inr ⟨rfl, rfl⟩, hplaced⟩
  obtain ⟨start, hclause, hrounds⟩ := harrives.rounds
  have hclean : c.Clean false middle :=
    fun _ => ⟨by simp [harrives.silent], fun htight => absurd htight Bool.false_ne_true⟩
  obtain ⟨start', hclause', hstart⟩ :=
    packageClause_follows hexact hrelates hclause (hclean.before (rounds_follow hrounds))
  obtain ⟨⟨found, middle'⟩, hrounds', ⟨added, hfound, halike⟩, hend, -⟩ :=
    rounds_mirror hstart.toNear ⟨[], rfl, .nil⟩ hrounds hclean
  obtain rfl : items = added := hfound.trans (List.append_nil _)
  obtain rfl : found = items := eq_of_forall₂ (Item.Alike.eq hexact) halike
  refine ⟨middle', ⟨start', hclause', hrounds'⟩, ?_, ?_⟩
  · obtain ⟨read, left, hplaced⟩ := hend.placed
    obtain rfl := List.map_eq_nil_iff.1 (hplaced.ahead.symm.trans harrives.ahead)
    exact hplaced.ahead'
  · obtain ⟨reported, reported', hreported, hreported', hall⟩ := hend.reports
    obtain rfl : reported = [] := by
      simpa [harrives.silent, c, Coupling.ofShared] using hreported.symm
    obtain rfl := List.forall₂_nil_left_iff.1 hall
    exact Array.toList_eq_nil_iff.1 hreported'

theorem packageClause_succeeds {start : State} {package name : Token}
    (hpackage : start.cursor.current = package) (hkind : package.kind = .packageKw)
    (hname : start.cursor.next.current = name) (hident : name.kind = .ident) :
    Succeeds packageClause start (package, name) (start.moveTo start.cursor.next.next) := by
  have hnext : start.cursor.next.kind = .ident := (congrArg Token.kind hname).trans hident
  have hreads : ReadsNext (covering package (expectName "package name"))
      (start.moveTo start.cursor.next) := (readsNext_expectAs _ _ hnext).covering _
  subst hpackage hname
  apply Succeeds.look hkind
  apply Succeeds.of_pos rfl
  exact Succeeds.bind readsNext_advance (Succeeds.bind hreads (.pure _ _))

theorem isWritten_of_mem_clause {package name : Token} (hpackage : package.kind = .packageKw)
    (hname : name.kind = .ident) : ∀ token ∈ [package, name], token.kind.isWritten := by
  simp [Kind.isWritten, hpackage, hname]

/-- Behind a package clause alone nothing was gathered. -/
theorem exists_arrives_header {second : List Token} {package name : Token}
    (hsecond : ∀ token ∈ second, token.kind.isWritten) (hpackage : package.kind = .packageKw)
    (hname : name.kind = .ident) :
    ∃ middle, Arrives (package :: name :: second) (package, name) [] second middle := by
  have hahead : (Cursor.ofTokens (package :: name :: second)).ahead =
      package :: name :: second := by
    apply Cursor.ahead_ofTokens_of_written
    exact List.forall_mem_append.2 ⟨isWritten_of_mem_clause hpackage hname, hsecond⟩
  have hfirst : (Cursor.ofTokens (package :: name :: second)).current = package := by
    simp [Cursor.current, hahead]
  have hnext : (Cursor.ofTokens (package :: name :: second)).next.current = name := by
    simp [Cursor.current, Cursor.ahead_next, hahead]
  have hclause : Succeeds packageClause (initialState (package :: name :: second))
      (package, name) _ := packageClause_succeeds hfirst hpackage hnext hname
  refine ⟨_, ⟨_, hclause, .refl⟩, ?_, rfl⟩
  change (Cursor.ofTokens (package :: name :: second)).next.next.ahead = second
  simp [Cursor.ahead_next, hahead]

end Grammar

/-- What begins with a declaration, behind tokens that are read without a report, is read as
behind a package clause alone: it adds the same items and the same reports. -/
theorem parse_append {first second : List Token} {package name : Token}
    (hfirst : ∀ token ∈ first, token.kind.isWritten)
    (hsecond : ∀ token ∈ second, token.kind.isWritten)
    (hclean : (parse first).diagnostics = [])
    (hopens : ∃ token ∈ second.head?, KindSet.declStart.contains token.kind)
    (hpackage : package.kind = .packageKw) (hname : name.kind = .ident) :
    (parse (first ++ second)).file =
        (parse first).file.append (parse (package :: name :: second)).file ∧
      (parse (first ++ second)).diagnostics =
        (parse (package :: name :: second)).diagnostics := by
  have hfirst_ne : first ≠ [] := by
    rintro rfl
    exact absurd hclean (by decide +kernel)
  obtain ⟨next, hnext, hopens⟩ := hopens
  obtain ⟨others, rfl⟩ := List.head?_eq_some_iff.1 hnext
  obtain ⟨header, items, middle, hbefore⟩ := exists_arrives hclean
  obtain ⟨middle', hbehind⟩ := hbefore.onward hfirst_ne hfirst hsecond hopens
  obtain ⟨middle'', halone⟩ := exists_arrives_header hsecond hpackage hname
  have heof : (Cursor.ofTokens (package :: name :: next :: others)).eof =
      (Cursor.ofTokens (first ++ next :: others)).eof := by
    rw [Cursor.eof_ofTokens_append_of_written hfirst hsecond (List.cons_ne_nil _ _)]
    have hclause := isWritten_of_mem_clause hpackage hname
    exact Cursor.eof_ofTokens_append_of_written hclause hsecond (List.cons_ne_nil _ _)
  obtain ⟨hdiagnostics, found, hfile, hrest⟩ :=
    hbehind.parse_rest halone heof (List.cons_ne_nil _ _)
  refine ⟨?_, hdiagnostics⟩
  rw [hfile, hrest, hbefore.parse_eq .refl (Cursor.kind_eq_eof_iff.2 hbefore.ahead)]
  exact File.ofItems_append _ _ _ _ _ _

/-- The broken function behind one that is read without a report. -/
theorem parse_append_brokenTokens :
    (parse brokenTokens).diagnostics ≠ [] ∧
      (parse (functionTokens ++ brokenTokens.drop 2)).file =
        (parse functionTokens).file.append (parse brokenTokens).file ∧
      (parse (functionTokens ++ brokenTokens.drop 2)).diagnostics =
        (parse brokenTokens).diagnostics := by
  have hwritten : ∀ token ∈ functionTokens ++ brokenTokens.drop 2, token.kind.isWritten := by
    decide
  obtain ⟨hfirst, hsecond⟩ := List.forall_mem_append.1 hwritten
  have hclean : (parse functionTokens).diagnostics = [] := by decide +kernel
  have hopens : ∃ token ∈ (brokenTokens.drop 2).head?, KindSet.declStart.contains token.kind :=
    ⟨⟨.funcKw, "func", 2, 1⟩, rfl, by decide⟩
  exact ⟨by decide +kernel, parse_append hfirst hsecond hclean hopens rfl rfl⟩

end OriSyntax
