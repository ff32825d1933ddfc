import Mathlib.Data.List.Chain
import Mathlib.Data.List.Forall2
import OriSyntax.Proofs.Alike
import OriSyntax.Proofs.Silence

/-!
Two runs side by side.  The tokens of one run correspond one by one to those of the other,
up to the end of both or of the first one only; in the second case the other run goes on
with a declaration.  As long as the runs stand at one place they do the same, and what they
make differs in its tokens only.

If the first run alone is at its end, its last token says nothing about the other run, and
neither does what was reported there.  So where only the first one ends, runs are compared
under the condition that the first one reports nothing.
-/

namespace OriSyntax.Grammar

/-- How two runs end. -/
inductive Ending where
  /-- Both at once. -/
  | together (eof eof' : Token)
  /-- The second one goes on. -/
  | onward (next : Token) (rest : List Token)

namespace Ending

/-- What only the second run has to read. -/
def follow : Ending → List Token
  | together _ _ => []
  | onward next rest => next :: rest

/-- The end-of-file tokens, if they correspond. -/
def closing : Ending → List (Token × Token)
  | together eof eof' => [(eof, eof')]
  | onward _ _ => []

end Ending

/-- Two runs and what they have in common: the tokens that both read, how they end, what each
had read before, latest first, and what each had reported before. -/
structure Coupling where
  pairs : List (Token × Token)
  ending : Ending
  past : List Token
  past' : List Token
  told : List Diagnostic
  told' : List Diagnostic
  nonempty : pairs ≠ []
  same : ∀ pair ∈ pairs ++ ending.closing,
    pair.2.kind = pair.1.kind ∧ pair.2.value = pair.1.value
  /-- The end of the file is compared with a token only on the left. -/
  order : ∀ pair ∈ pairs ++ ending.closing, ∀ word ∈ pairs,
    (pair.1.position < word.1.position ↔ pair.2.position < word.2.position)
  breaks : (pairs ++ ending.closing).IsChain fun before after =>
    (before.1.line < after.1.line ↔ before.2.line < after.2.line)
  opens : ∀ token ∈ ending.follow.head?, KindSet.declStart.contains token.kind

variable {c : Coupling}

namespace Coupling

/-- The runs end at once. -/
def Together (c : Coupling) : Prop := c.ending.follow = []

/-- Tokens that correspond, the end of the file left out. -/
def word (c : Coupling) (token token' : Token) : Prop := (token, token') ∈ c.pairs

/-- Tokens that correspond. -/
def tied (c : Coupling) (token token' : Token) : Prop :=
  (token, token') ∈ c.pairs ++ c.ending.closing

/-- What corresponds in the trees that the runs make.  There are no bad nodes in them if only
the first run ends, since they are looked at only as long as it reports nothing. -/
def like (c : Coupling) : Likeness where
  token := c.tied
  bad node node' := c.Together ∧ c.tied node.first node'.first ∧ c.tied node.last node'.last ∧
    node'.reason = node.reason

theorem word.tied {token token' : Token} (hword : c.word token token') :
    c.tied token token' :=
  List.mem_append_left _ hword

theorem tied.kind {token token' : Token} (htied : c.tied token token') :
    token'.kind = token.kind :=
  (c.same _ htied).1

theorem tied.value {token token' : Token} (htied : c.tied token token') :
    token'.value = token.value :=
  (c.same _ htied).2

theorem like_faithful (c : Coupling) : c.like.Faithful where
  kind := tied.kind
  value := tied.value
  first hbad := hbad.2.1
  last hbad := hbad.2.2.1

theorem tied_laterToken {first first' second second' : Token} (hfirst : c.tied first first')
    (hsecond : c.word second second') :
    c.tied (laterToken first second) (laterToken first' second') := by
  have horder := c.order _ hfirst _ hsecond
  by_cases hlater : first.position < second.position
  · rw [laterToken, laterToken, if_pos hlater, if_pos (horder.1 hlater)]
    exact hsecond.tied
  · rw [laterToken, laterToken, if_neg hlater, if_neg (mt horder.2 hlater)]
    exact hfirst

theorem Together.exists_ending (htogether : c.Together) :
    ∃ eof eof', c.ending = .together eof eof' := by
  cases hending : c.ending with
  | together eof eof' => exact ⟨eof, eof', rfl⟩
  | onward next rest => simp [Together, Ending.follow, hending] at htogether

/-- Both runs have read the pairs of `read`, latest first, and those of `left` are ahead. -/
structure Placed (c : Coupling) (read left : List (Token × Token)) (cursor cursor' : Cursor) :
    Prop where
  pairs : c.pairs = read.reverse ++ left
  behind : cursor.behind = read.map Prod.fst ++ c.past
  behind' : cursor'.behind = read.map Prod.snd ++ c.past'
  ahead : cursor.ahead = left.map Prod.fst
  ahead' : cursor'.ahead = left.map Prod.snd ++ c.ending.follow
  eof : ∀ pair ∈ c.ending.closing, cursor.eof = pair.1 ∧ cursor'.eof = pair.2

/-- Some pair was read, or nothing was read before the pairs. -/
def Started (c : Coupling) (read : List (Token × Token)) : Prop :=
  read ≠ [] ∨ c.past = [] ∧ c.past' = []

namespace Placed

variable {read left : List (Token × Token)} {pair : Token × Token} {cursor cursor' : Cursor}

theorem word_of_mem (hplaced : c.Placed read left cursor cursor') (hpair : pair ∈ left) :
    c.word pair.1 pair.2 := by
  rw [word, hplaced.pairs]
  exact List.mem_append_right _ hpair

theorem current (hplaced : c.Placed read (pair :: left) cursor cursor') :
    cursor.current = pair.1 ∧ cursor'.current = pair.2 := by
  simp [Cursor.current, hplaced.ahead, hplaced.ahead']

/-- The end of the file, if both runs have reached it. -/
theorem current_nil (hplaced : c.Placed read [] cursor cursor') (htogether : c.Together) :
    (cursor.current, cursor'.current) ∈ c.ending.closing := by
  obtain ⟨eof, eof', hending⟩ := htogether.exists_ending
  have heof := hplaced.eof (eof, eof') (by simp [hending, Ending.closing])
  simp [Cursor.current, hplaced.ahead, hplaced.ahead', hending, Ending.follow, Ending.closing,
    heof.1, heof.2]

theorem kind_eq_eof_iff (hplaced : c.Placed read left cursor cursor') :
    cursor.kind = .eof ↔ left = [] := by
  rw [Cursor.kind_eq_eof_iff, hplaced.ahead, List.map_eq_nil_iff]

theorem next (hplaced : c.Placed read (pair :: left) cursor cursor') :
    c.Placed (pair :: read) left cursor.next cursor'.next := by
  have hkind : cursor.kind ≠ .eof := by simp [hplaced.kind_eq_eof_iff]
  have hkind' : cursor'.kind ≠ .eof := by
    simp [Cursor.kind_eq_eof_iff, hplaced.ahead']
  exact {
    pairs := by simpa using hplaced.pairs
    behind := by rw [Cursor.behind_next hkind, hplaced.behind, hplaced.current.1]; rfl
    behind' := by rw [Cursor.behind_next hkind', hplaced.behind', hplaced.current.2]; rfl
    ahead := by rw [Cursor.ahead_next, hplaced.ahead]; rfl
    ahead' := by rw [Cursor.ahead_next, hplaced.ahead']; rfl
    eof := by simpa only [Cursor.eof_next] using hplaced.eof }

/-- Both runs stay where they are at the end of the file. -/
theorem next_nil (hplaced : c.Placed read [] cursor cursor') (htogether : c.Together) :
    cursor.next = cursor ∧ cursor'.next = cursor' := by
  constructor
  · exact Cursor.next_of_ahead_eq_nil hplaced.ahead
  · apply Cursor.next_of_ahead_eq_nil
    rw [hplaced.ahead', htogether]
    rfl

/-- A token opens a line in both runs or in none. -/
theorem opensLine_eq (hplaced : c.Placed read left cursor cursor') (hstarted : c.Started read)
    (hend : left = [] → c.Together) : cursor'.opensLine = cursor.opensLine := by
  cases read with
  | nil =>
      obtain ⟨hpast, hpast'⟩ := hstarted.resolve_left (· rfl)
      simp [Cursor.opensLine, hplaced.behind, hplaced.behind', hpast, hpast']
  | cons before read =>
      obtain ⟨pair, hpair, hcurrent, hcurrent'⟩ : ∃ pair ∈ (left ++ c.ending.closing).head?,
          cursor.current = pair.1 ∧ cursor'.current = pair.2 := by
        cases left with
        | nil =>
            obtain ⟨eof, eof', hending⟩ := (hend rfl).exists_ending
            have hclosing := hplaced.current_nil (hend rfl)
            simp only [hending, Ending.closing, List.mem_singleton, Prod.mk.injEq] at hclosing
            exact ⟨(eof, eof'), by simp [hending, Ending.closing], hclosing⟩
        | cons pair left => exact ⟨pair, rfl, hplaced.current⟩
      have hbreaks := c.breaks
      rw [hplaced.pairs, List.reverse_cons, List.append_assoc, List.append_assoc] at hbreaks
      have hbreak := hbreaks.right_of_append.rel_head? hpair
      simp [Cursor.opensLine, hplaced.behind, hplaced.behind', hcurrent, hcurrent', hbreak]

/-- The tokens read last correspond; where nothing was read yet, the first ones do. -/
theorem previous (hplaced : c.Placed read left cursor cursor') (hstarted : c.Started read) :
    c.word cursor.previous cursor'.previous := by
  cases read with
  | nil =>
      obtain ⟨hpast, hpast'⟩ := hstarted.resolve_left (· rfl)
      have hpairs := c.nonempty
      rw [hplaced.pairs] at hpairs
      obtain ⟨pair, left, rfl⟩ := List.exists_cons_of_ne_nil hpairs
      have hword := hplaced.word_of_mem List.mem_cons_self
      simpa [Cursor.previous, hplaced.behind, hplaced.behind', hpast, hpast', hplaced.current]
        using hword
  | cons pair read =>
      have hword : pair ∈ c.pairs := by
        rw [hplaced.pairs, List.reverse_cons, List.append_assoc]
        exact List.mem_append_right _ List.mem_cons_self
      simpa [Cursor.previous, hplaced.behind, hplaced.behind', word] using hword

/-- Skipping leads both runs to one place. -/
theorem skipAlong (hplaced : c.Placed read left cursor cursor') (hstarted : c.Started read)
    (htogether : c.Together) (rule : Skip.Rule) (depth : Nat) :
    ∃ read' left', c.Started read' ∧ c.Placed read' left'
      (Cursor.skipAlong rule (left.map Prod.fst) depth cursor)
      (Cursor.skipAlong rule (left.map Prod.snd) depth cursor') := by
  induction left generalizing read depth cursor cursor' with
  | nil => exact ⟨read, [], hstarted, hplaced⟩
  | cons pair left ih =>
      have hline := hplaced.opensLine_eq hstarted fun _ => htogether
      have hkind := (hplaced.word_of_mem List.mem_cons_self).tied.kind
      have hnext : c.Started (pair :: read) := .inl (List.cons_ne_nil _ _)
      simp only [List.map_cons, Cursor.skipAlong, hline, hkind]
      cases rule depth cursor.opensLine pair.1.kind with
      | stop => exact ⟨read, pair :: left, hstarted, hplaced⟩
      | finish => exact ⟨pair :: read, left, hnext, hplaced.next⟩
      | proceed depth => exact ih hplaced.next hnext depth

end Placed

/-- Both runs stand at one place, perhaps before anything was read of what they share, and
have reported the same since. -/
structure Near (c : Coupling) (state state' : State) : Prop where
  placed : ∃ read left, c.Placed read left state.cursor state'.cursor
  nesting : state'.nesting = state.nesting
  loopDepth : state'.loopDepth = state.loopDepth
  reports : ∃ added added', state.diagnostics.toList = c.told ++ added ∧
    state'.diagnostics.toList = c.told' ++ added' ∧
    List.Forall₂ (Diagnostic.Alike c.like) added added'

/-- Both runs stand at one place, and what they look back at is shared. -/
structure Relates (c : Coupling) (state state' : State) : Prop extends c.Near state state' where
  started : ∃ read left, c.Started read ∧ c.Placed read left state.cursor state'.cursor

/-- The first run has reported nothing, if only that one ends; in a `tight` place it must not
have come to its end either. -/
def Clean (c : Coupling) (tight : Bool) (state : State) : Prop :=
  ¬ c.Together → state.diagnostics.size ≤ c.told.length ∧ (tight → state.cursor.ahead ≠ [])

/-- Here the runs do not part: both end, or the first one must not come to its end. -/
def Confined (c : Coupling) (tight : Bool) : Prop := c.Together ∨ tight

/-- The kinds of the next tokens: one kind, or the end of the first run and a declaration. -/
def Kinds (c : Coupling) (kind kind' : Kind) : Prop :=
  kind' = kind ∨ ¬ c.Together ∧ kind = .eof ∧ KindSet.declStart.contains kind'

variable {tight : Bool} {state state' stop stop' : State}

theorem Clean.before (hclean : c.Clean tight stop) (hfollows : state.Follows stop) :
    c.Clean tight state := by
  intro hapart
  obtain ⟨hsize, hahead⟩ := hclean hapart
  refine ⟨Nat.le_trans hfollows.reaches.size_le hsize, fun htight hnil => hahead htight ?_⟩
  obtain ⟨run, hrun⟩ := hfollows.reads
  rw [hrun.ahead] at hnil
  exact (List.append_eq_nil_iff.1 hnil).2

namespace Near

theorem told_le (hnear : c.Near state state') : c.told.length ≤ state.diagnostics.size := by
  obtain ⟨added, added', hadded, -, -⟩ := hnear.reports
  have hlength := congrArg List.length hadded
  rw [Array.length_toList, List.length_append] at hlength
  omega

theorem kinds (hnear : c.Near state state') : c.Kinds state.cursor.kind state'.cursor.kind := by
  obtain ⟨read, left, hplaced⟩ := hnear.placed
  cases left with
  | nil =>
      by_cases htogether : c.Together
      · have htied : c.tied state.cursor.current state'.cursor.current :=
          List.mem_append_right _ (hplaced.current_nil htogether)
        exact .inl htied.kind
      · refine .inr ⟨htogether, hplaced.kind_eq_eof_iff.2 rfl, ?_⟩
        obtain ⟨next, rest, hfollow⟩ := List.exists_cons_of_ne_nil htogether
        have hopens := c.opens next (by simp [hfollow])
        have hahead : state'.cursor.ahead = next :: rest := by
          rw [hplaced.ahead', hfollow]
          rfl
        rwa [Cursor.kind_of_ahead_eq_cons hahead]
  | cons pair left =>
      have hword := hplaced.word_of_mem List.mem_cons_self
      left
      rw [Cursor.kind, Cursor.kind, hplaced.current.1, hplaced.current.2]
      exact hword.tied.kind

theorem current_word (hnear : c.Near state state') (hkind : state.cursor.kind ≠ .eof) :
    c.word state.cursor.current state'.cursor.current := by
  obtain ⟨read, left, hplaced⟩ := hnear.placed
  rw [ne_eq, hplaced.kind_eq_eof_iff] at hkind
  obtain ⟨pair, left, rfl⟩ := List.exists_cons_of_ne_nil hkind
  rw [hplaced.current.1, hplaced.current.2]
  exact hplaced.word_of_mem List.mem_cons_self

theorem current_tied (hnear : c.Near state state') (htogether : c.Together) :
    c.tied state.cursor.current state'.cursor.current := by
  by_cases hkind : state.cursor.kind = .eof
  · obtain ⟨read, left, hplaced⟩ := hnear.placed
    obtain rfl := hplaced.kind_eq_eof_iff.1 hkind
    exact List.mem_append_right _ (hplaced.current_nil htogether)
  · exact (hnear.current_word hkind).tied

/-- The runs have read the same number of tokens since they share what they read. -/
theorem position (hnear : c.Near state state') :
    state'.cursor.position + c.past.length = state.cursor.position + c.past'.length := by
  obtain ⟨read, left, hplaced⟩ := hnear.placed
  rw [Cursor.position_eq, Cursor.position_eq, hplaced.behind, hplaced.behind']
  simp only [List.length_append, List.length_map]
  omega

/-- Behind a token that both have read, all that they look back at is shared. -/
theorem next (hnear : c.Near state state') (hkind : state.cursor.kind ≠ .eof) :
    c.Relates { state with cursor := state.cursor.next }
      { state' with cursor := state'.cursor.next } := by
  obtain ⟨read, left, hplaced⟩ := hnear.placed
  rw [ne_eq, hplaced.kind_eq_eof_iff] at hkind
  obtain ⟨pair, left, rfl⟩ := List.exists_cons_of_ne_nil hkind
  exact {
    placed := ⟨_, _, hplaced.next⟩
    nesting := hnear.nesting
    loopDepth := hnear.loopDepth
    reports := hnear.reports
    started := ⟨_, _, .inl (List.cons_ne_nil _ _), hplaced.next⟩ }

end Near

namespace Relates

theorem moveTo (hrelates : c.Relates state state') {cursor cursor' : Cursor}
    (hplaced : ∃ read left, c.Started read ∧ c.Placed read left cursor cursor') :
    c.Relates { state with cursor := cursor } { state' with cursor := cursor' } where
  placed := by
    obtain ⟨read, left, -, hplaced⟩ := hplaced
    exact ⟨read, left, hplaced⟩
  nesting := hrelates.nesting
  loopDepth := hrelates.loopDepth
  reports := hrelates.reports
  started := hplaced

/-- Both runs may go on with other counters. -/
theorem recount (hrelates : c.Relates state state') (hsame : stop.SameText state)
    (hsame' : stop'.SameText state') (hnesting : stop'.nesting = stop.nesting)
    (hloopDepth : stop'.loopDepth = stop.loopDepth) : c.Relates stop stop' where
  placed := by simpa only [hsame.1, hsame'.1] using hrelates.placed
  nesting := hnesting
  loopDepth := hloopDepth
  reports := by simpa only [hsame.2, hsame'.2] using hrelates.reports
  started := by simpa only [hsame.1, hsame'.1] using hrelates.started

theorem report (hrelates : c.Relates state state') {diagnostic diagnostic' : Diagnostic}
    (halike : Diagnostic.Alike c.like diagnostic diagnostic') :
    c.Relates { state with diagnostics := state.diagnostics.push diagnostic }
      { state' with diagnostics := state'.diagnostics.push diagnostic' } where
  placed := hrelates.placed
  nesting := hrelates.nesting
  loopDepth := hrelates.loopDepth
  reports := by
    obtain ⟨added, added', hadded, hadded', hall⟩ := hrelates.reports
    refine ⟨added ++ [diagnostic], added' ++ [diagnostic'], ?_, ?_, ?_⟩
    · rw [Array.toList_push, hadded, List.append_assoc]
    · rw [Array.toList_push, hadded', List.append_assoc]
    · exact List.rel_append hall (.cons halike .nil)
  started := hrelates.started

theorem opensLine_eq (hrelates : c.Relates state state')
    (hend : state.cursor.kind = .eof → c.Together) :
    state'.cursor.opensLine = state.cursor.opensLine := by
  obtain ⟨read, left, hstarted, hplaced⟩ := hrelates.started
  exact hplaced.opensLine_eq hstarted fun hnil => hend (hplaced.kind_eq_eof_iff.2 hnil)

theorem previous (hrelates : c.Relates state state') :
    c.word state.cursor.previous state'.cursor.previous := by
  obtain ⟨read, left, hstarted, hplaced⟩ := hrelates.started
  exact hplaced.previous hstarted

theorem next (hrelates : c.Relates state state')
    (hend : state.cursor.kind = .eof → c.Together) :
    c.Relates { state with cursor := state.cursor.next }
      { state' with cursor := state'.cursor.next } := by
  by_cases hkind : state.cursor.kind = .eof
  · obtain ⟨read, left, hstarted, hplaced⟩ := hrelates.started
    obtain rfl := hplaced.kind_eq_eof_iff.1 hkind
    obtain ⟨hstays, hstays'⟩ := hplaced.next_nil (hend hkind)
    rw [hstays, hstays']
    exact hrelates
  · exact hrelates.toNear.next hkind

theorem skip (hrelates : c.Relates state state') (htogether : c.Together) (rule : Skip.Rule) :
    c.Relates { state with cursor := state.cursor.skip rule }
      { state' with cursor := state'.cursor.skip rule } := by
  obtain ⟨read, left, hstarted, hplaced⟩ := hrelates.started
  apply hrelates.moveTo
  have hahead' : state'.cursor.ahead = left.map Prod.snd := by
    rw [hplaced.ahead', htogether, List.append_nil]
  rw [Cursor.skip, Cursor.skip, hplaced.ahead, hahead']
  exact hplaced.skipAlong hstarted htogether rule 0

end Relates

end Coupling

end OriSyntax.Grammar
