import OriSyntax.Proofs.Delimiters

/-!
Where skips end.  A skip is a loop whose state is what it has read and its count of open
delimiters.  The count is what the tokens read so far say it is, so a skip ends at the
first place that fits a condition on the tokens alone, and no count runs below zero.
-/

namespace OriSyntax

/-- The number of tokens whose kind is counted. -/
def countKinds (counted : Kind → Bool) (tokens : List Token) : Nat :=
  tokens.countP fun token => counted token.kind

/-- Number of opening braces. -/
def openings (tokens : List Token) : Nat := countKinds (· = .lbrace) tokens

/-- Number of closing braces. -/
def closings (tokens : List Token) : Nat := countKinds (· = .rbrace) tokens

/-- Delimiters that close something. -/
def Kind.isCloser (kind : Kind) : Bool := kind.opener?.isSome

theorem Kind.isCloser_iff (kind : Kind) :
    kind.isCloser ↔ kind ∈ [Kind.rparen, .rbracket, .rbrace] := by
  cases kind <;> decide

/-- Nowhere in the row were more braces closed than opened. -/
def NeverOverclosed (row : List Token) : Prop :=
  ∀ before, before <+: row → closings before ≤ openings before

/-- No brace that the row opens is open behind it; closing braces without an opening one
count for nothing. -/
def OutsideBraces (row : List Token) : Prop :=
  ∀ after, after <:+ row → openings after ≤ closings after

section Counting

variable {counted : Kind → Bool}

@[simp] theorem countKinds_nil : countKinds counted [] = 0 := rfl

theorem countKinds_concat (row : List Token) (token : Token) :
    countKinds counted (row ++ [token]) =
      countKinds counted row + if counted token.kind then 1 else 0 := by
  simp [countKinds, List.countP_append, List.countP_cons]

end Counting

@[simp] theorem openings_nil : openings [] = 0 := rfl

@[simp] theorem closings_nil : closings [] = 0 := rfl

theorem openings_concat (row : List Token) (token : Token) :
    openings (row ++ [token]) = openings row + if token.kind = .lbrace then 1 else 0 := by
  simp [openings, countKinds_concat]

theorem closings_concat (row : List Token) (token : Token) :
    closings (row ++ [token]) = closings row + if token.kind = .rbrace then 1 else 0 := by
  simp [closings, countKinds_concat]

namespace Cursor

variable {start stop middle : Cursor} {run before : List Token}

/-- Two ways of one length from one place on are the same, and lead to the same place. -/
theorem Reads.eq_of_length (hreads : start.Reads run stop) (hbefore : start.Reads before middle)
    (hlength : before.length = run.length) : before = run ∧ middle = stop := by
  obtain ⟨rfl, hahead⟩ := List.append_inj (hbefore.ahead.symm.trans hreads.ahead) hlength
  exact ⟨rfl, eq_of_lists (hbefore.behind.trans hreads.behind.symm) hahead
    (hbefore.eof.trans hreads.eof.symm)⟩

/-- Reading `run` leads from `start` to `stop`, which is the first place at which `halts`
holds of what was read and of the place. -/
structure FirstStop (start : Cursor) (halts : List Token → Cursor → Prop) (run : List Token)
    (stop : Cursor) : Prop where
  reads : start.Reads run stop
  here : halts run stop
  first : ∀ before middle, start.Reads before middle → before.length < run.length →
    ¬ halts before middle

end Cursor

namespace Skip

/-- A skip that began at `start` has read `read` and comes to `here`, where by its count
`depth` delimiters are open. -/
inductive Passes (rule : Rule) (start : Cursor) : List Token → Nat → Cursor → Prop where
  | start : Passes rule start [] 0 start
  | next {read : List Token} {depth deeper : Nat} {here : Cursor}
      (hpasses : Passes rule start read depth here) (hkind : here.kind ≠ .eof)
      (hrule : rule depth here.opensLine here.kind = .proceed deeper) :
      Passes rule start (read ++ [here.current]) deeper here.next

/-- How a skip ends: at the end of the file, before a token, or behind one. -/
inductive Ends (rule : Rule) (start : Cursor) : List Token → Cursor → Prop where
  | eof {read : List Token} {depth : Nat} {here : Cursor}
      (hpasses : Passes rule start read depth here) (hkind : here.kind = .eof) :
      Ends rule start read here
  | stop {read : List Token} {depth : Nat} {here : Cursor}
      (hpasses : Passes rule start read depth here) (hkind : here.kind ≠ .eof)
      (hrule : rule depth here.opensLine here.kind = .stop) : Ends rule start read here
  | finish {read : List Token} {depth : Nat} {here : Cursor}
      (hpasses : Passes rule start read depth here) (hkind : here.kind ≠ .eof)
      (hrule : rule depth here.opensLine here.kind = .finish) :
      Ends rule start (read ++ [here.current]) here.next

variable {rule : Rule} {start stop here middle : Cursor} {read before run : List Token}
  {depth deeper : Nat}

theorem Passes.reads (hpasses : Passes rule start read depth here) :
    start.Reads read here := by
  induction hpasses with
  | start => exact .refl start
  | next _ hkind _ ih => exact ih.trans (Cursor.reads_next hkind)

theorem Ends.reads (hends : Ends rule start run stop) : start.Reads run stop := by
  cases hends with
  | eof hpasses _ => exact hpasses.reads
  | stop hpasses _ _ => exact hpasses.reads
  | finish hpasses hkind _ => exact hpasses.reads.trans (Cursor.reads_next hkind)

/-- The loop passes every place on its way, and there its rule said to go on. -/
theorem Passes.earlier (hpasses : Passes rule start read depth here)
    (hbefore : start.Reads before middle) (hlength : before.length < read.length) :
    ∃ reached deeper, Passes rule start before reached middle ∧ middle.kind ≠ .eof ∧
      rule reached middle.opensLine middle.kind = .proceed deeper := by
  induction hpasses with
  | start => exact absurd hlength (Nat.not_lt_zero _)
  | next hpasses hkind hrule ih =>
      rw [List.length_append, List.length_singleton] at hlength
      rcases Nat.lt_succ_iff_lt_or_eq.1 hlength with hless | hsame
      · exact ih hless
      · obtain ⟨rfl, rfl⟩ := hpasses.reads.eq_of_length hbefore hsame
        exact ⟨_, _, hpasses, hkind, hrule⟩

/-- Whatever holds at the places of the loop holds of all beginnings of what is read. -/
theorem Passes.of_prefix (fits : List Token → Prop)
    (hfits : ∀ before reached middle, Passes rule start before reached middle → fits before)
    (hpasses : Passes rule start read depth here) (hbefore : before <+: read) :
    fits before := by
  induction hpasses with
  | start =>
      rw [List.prefix_nil.1 hbefore]
      exact hfits _ _ _ .start
  | next hpasses hkind hrule ih =>
      rcases List.prefix_concat_iff.1 hbefore with hall | hbefore
      · rw [hall]
        exact hfits _ _ _ (hpasses.next hkind hrule)
      · exact ih hbefore

/-- Every skip runs through the loop from its start. -/
theorem ends_skip (rule : Rule) (start : Cursor) :
    ∃ run, Ends rule start run (start.skip rule) := by
  suffices halong : ∀ tokens read depth (here : Cursor), here.ahead = tokens →
      Passes rule start read depth here →
      ∃ run, Ends rule start run (Cursor.skipAlong rule tokens depth here) from
    halong _ [] 0 start rfl .start
  intro tokens
  induction tokens with
  | nil =>
      intro read depth here hahead hpasses
      exact ⟨read, .eof hpasses (Cursor.kind_of_ahead_eq_nil hahead)⟩
  | cons token rest ih =>
      intro read depth here hahead hpasses
      have hkind : here.kind ≠ .eof := by simp [Cursor.kind_eq_eof_iff, hahead]
      rw [Cursor.skipAlong, ← Cursor.kind_of_ahead_eq_cons hahead]
      split
      · next hrule => exact ⟨read, .stop hpasses hkind hrule⟩
      · next hrule => exact ⟨_, .finish hpasses hkind hrule⟩
      · next deeper hrule =>
          exact ih _ deeper here.next (by simp [Cursor.ahead_next, hahead])
            (hpasses.next hkind hrule)

/-- A skip stops at the first place that fits a condition if the rule goes on only where
the condition fails, stops only where it holds, and finishes only behind a token that
makes it hold. -/
theorem firstStop_skip (rule : Rule) (halts : List Token → Cursor → Prop) (start : Cursor)
    (hproceed : ∀ read depth here deeper, Passes rule start read depth here →
      here.kind ≠ .eof → rule depth here.opensLine here.kind = .proceed deeper →
      ¬ halts read here)
    (heof : ∀ read (here : Cursor), here.kind = .eof → halts read here)
    (hstop : ∀ read depth here, Passes rule start read depth here →
      rule depth here.opensLine here.kind = .stop → halts read here)
    (hfinish : ∀ read depth here, Passes rule start read depth here → here.kind ≠ .eof →
      rule depth here.opensLine here.kind = .finish →
      ¬ halts read here ∧ halts (read ++ [here.current]) here.next) :
    ∃ run, Ends rule start run (start.skip rule) ∧
      start.FirstStop halts run (start.skip rule) := by
  have hearlier {read : List Token} {depth : Nat} {here : Cursor}
      (hpasses : Passes rule start read depth here) (before : List Token) (middle : Cursor)
      (hbefore : start.Reads before middle) (hlength : before.length < read.length) :
      ¬ halts before middle := by
    obtain ⟨reached, deeper, hreached, hkind, hrule⟩ := hpasses.earlier hbefore hlength
    exact hproceed _ _ _ _ hreached hkind hrule
  obtain ⟨run, hends⟩ := ends_skip rule start
  refine ⟨run, hends, ?_⟩
  generalize start.skip rule = stop at hends ⊢
  cases hends with
  | eof hpasses hkind => exact ⟨hpasses.reads, heof _ _ hkind, hearlier hpasses⟩
  | stop hpasses _ hrule =>
      exact ⟨hpasses.reads, hstop _ _ _ hpasses hrule, hearlier hpasses⟩
  | finish hpasses hkind hrule =>
      obtain ⟨hhere, hbehind⟩ := hfinish _ _ _ hpasses hkind hrule
      have hall := hpasses.reads.trans (Cursor.reads_next hkind)
      refine ⟨hall, hbehind, fun before middle hbefore hlength => ?_⟩
      rw [List.length_append, List.length_singleton] at hlength
      rcases Nat.lt_succ_iff_lt_or_eq.1 hlength with hless | hsame
      · exact hearlier hpasses before middle hbefore hless
      · obtain ⟨rfl, rfl⟩ := hpasses.reads.eq_of_length hbefore hsame
        exact hhere

/-- A rule that goes on only if it counts one more behind an opening delimiter and one
fewer, which it must have counted, behind a closing one. -/
def Exact (rule : Rule) (opens closes : Kind → Bool) : Prop :=
  ∀ depth line kind deeper, rule depth line kind = .proceed deeper →
    if opens kind then deeper = depth + 1 ∧ closes kind = false
    else if closes kind then deeper + 1 = depth
    else deeper = depth

/-- Wherever the loop is, its count and the closing delimiters read make up the opening
ones, and past a closing delimiter it takes one from a count that is not zero. -/
def NeverBelowZero (rule : Rule) (opens closes : Kind → Bool) (start : Cursor) : Prop :=
  ∀ read depth here, Passes rule start read depth here →
    countKinds closes read + depth = countKinds opens read ∧
      ∀ deeper, closes here.kind → rule depth here.opensLine here.kind = .proceed deeper →
        deeper + 1 = depth

section Exact

variable {opens closes : Kind → Bool}

theorem Exact.passes (hexact : Exact rule opens closes)
    (hpasses : Passes rule start read depth here) :
    countKinds closes read + depth = countKinds opens read := by
  induction hpasses with
  | start => rfl
  | next _ _ hrule ih =>
      have hstep := hexact _ _ _ _ hrule
      rw [Cursor.kind] at hstep
      rw [countKinds_concat, countKinds_concat]
      -- the token behind `here` is an opening, a closing, or neither
      split at hstep <;> grind

theorem Exact.neverBelowZero (hexact : Exact rule opens closes) (start : Cursor) :
    NeverBelowZero rule opens closes start := by
  intro read depth here hpasses
  refine ⟨hexact.passes hpasses, fun deeper hcloses hrule => ?_⟩
  have hstep := hexact _ _ _ _ hrule
  split at hstep
  · simp [hcloses] at hstep
  · simpa [hcloses] using hstep

end Exact

/-- Opening and closing braces, as an exact rule counts them. -/
def ExactBraces (rule : Rule) : Prop := Exact rule (· = .lbrace) (· = .rbrace)

theorem ExactBraces.passes (hexact : ExactBraces rule)
    (hpasses : Passes rule start read depth here) :
    closings read + depth = openings read :=
  Exact.passes hexact hpasses

theorem ExactBraces.neverOverclosed (hexact : ExactBraces rule)
    (hpasses : Passes rule start read depth here) : NeverOverclosed read := by
  intro before hbefore
  refine Passes.of_prefix (fun before => closings before ≤ openings before) ?_ hpasses hbefore
  intro before reached middle hreached
  have hcount := hexact.passes hreached
  omega

theorem statement_exact : ExactBraces statement := by
  have hclosing : KindSet.stmtEnd.contains .rbrace := by decide
  intro depth line kind deeper hrule
  grind [statement, countBraces]

theorem block_exact : ExactBraces block := by
  intro depth line kind deeper hrule
  grind [block]

theorem compound_exact : ExactBraces compound := by
  intro depth line kind deeper hrule
  grind [compound]

theorem toSet_exact {set : KindSet} (hset : set.contains .rbrace) :
    ExactBraces (toSet set) := by
  intro depth line kind deeper hrule
  grind [toSet, countBraces]

theorem expression_exact : Exact expression Kind.isOpener Kind.isCloser := by
  intro depth line kind deeper hrule
  have hcloser := Kind.isCloser_iff kind
  grind [expression, Kind.isOpener, Kind.isClosing]

theorem outsideBraces_nil : OutsideBraces [] := by
  intro after hafter
  rw [List.suffix_nil.1 hafter]
  exact Nat.le_refl 0

/-- The count of `toSet` is the largest number of braces that an end of the row opens
without closing them. -/
theorem toSet_passes {set : KindSet} (hpasses : Passes (toSet set) start read depth here) :
    (∀ after, after <:+ read → openings after ≤ closings after + depth) ∧
      ∃ after, after <:+ read ∧ openings after = closings after + depth := by
  induction hpasses with
  | start => exact ⟨outsideBraces_nil, [], List.nil_suffix, rfl⟩
  | @next read depth deeper here hpasses hkind hrule ih =>
      obtain ⟨hall, widest, hwidest, hopen⟩ := ih
      rw [Cursor.kind] at hrule
      have hstep : (here.current.kind = .lbrace ∧ deeper = depth + 1) ∨
          (here.current.kind = .rbrace ∧ deeper = depth - 1) ∨
          (here.current.kind ≠ .lbrace ∧ here.current.kind ≠ .rbrace ∧ deeper = depth) := by
        grind [toSet, countBraces]
      have hlonger : widest ++ [here.current] <:+ read ++ [here.current] :=
        (List.suffix_append_inj_of_length_eq rfl).2 ⟨hwidest, rfl⟩
      refine ⟨fun after hafter => ?_, ?_⟩
      · rcases List.suffix_concat_iff.1 hafter with rfl | ⟨inner, rfl, hinner⟩
        · exact Nat.zero_le _
        · have hinner := hall inner hinner
          rw [openings_concat, closings_concat]
          grind
      · by_cases hlost : here.current.kind = .rbrace ∧ depth = 0
        · exact ⟨[], List.nil_suffix, by grind [openings_nil, closings_nil]⟩
        · refine ⟨_, hlonger, ?_⟩
          rw [openings_concat, closings_concat]
          grind

theorem toSet_depth_eq_zero_iff {set : KindSet}
    (hpasses : Passes (toSet set) start read depth here) :
    depth = 0 ↔ OutsideBraces read := by
  obtain ⟨hall, widest, hwidest, hopen⟩ := toSet_passes hpasses
  refine ⟨fun hzero => ?_, fun houtside => ?_⟩
  · subst hzero
    exact hall
  · have hclosed := houtside widest hwidest
    omega

end Skip

/-- The end of a statement: the end of the file or, where all braces are closed, a
semicolon, a closing brace or a new line. -/
def EndsStatement (read : List Token) (here : Cursor) : Prop :=
  here.kind = .eof ∨ closings read = openings read ∧
    (here.kind = .semicolon ∨ here.kind = .rbrace ∨ here.opensLine)

/-- The place behind a body: the end of the file, or behind the closing brace that has no
opening one. -/
def EndsBlock (read : List Token) (here : Cursor) : Prop :=
  here.kind = .eof ∨ openings read < closings read

/-- The place behind a construct with a body: the end of the file; as long as no brace was
opened, a closing brace or a new line that does not open the body; then the place behind the
brace that closes the first one. -/
def EndsCompound (read : List Token) (here : Cursor) : Prop :=
  here.kind = .eof ∨
    if openings read = 0 then here.kind = .rbrace ∨ here.kind ≠ .lbrace ∧ here.opensLine
    else closings read = openings read

/-- The end of the file, or a kind of the set outside braces. -/
def ReachesSet (set : KindSet) (read : List Token) (here : Cursor) : Prop :=
  here.kind = .eof ∨ OutsideBraces read ∧ set.contains here.kind

namespace Skip

variable (start : Cursor)

/-- What is read by a skip that is never ended behind a token. -/
theorem Ends.passes {rule : Rule} {start stop : Cursor} {run : List Token}
    (hfinish : ∀ depth line kind, rule depth line kind ≠ .finish)
    (hends : Ends rule start run stop) : ∃ depth, Passes rule start run depth stop := by
  cases hends with
  | eof hpasses _ => exact ⟨_, hpasses⟩
  | stop hpasses _ _ => exact ⟨_, hpasses⟩
  | finish _ _ hrule => exact absurd hrule (hfinish _ _ _)

theorem statement_firstStop : ∃ run, NeverOverclosed run ∧
    start.FirstStop EndsStatement run (start.skip .statement) := by
  have hset (kind : Kind) :
      KindSet.stmtEnd.contains kind = decide (kind ∈ [.semicolon, .rbrace]) :=
    KindSet.contains_ofList _ kind
  obtain ⟨run, hends, hfirst⟩ := firstStop_skip statement EndsStatement start
    (fun read depth here deeper hpasses hkind hrule => by
      have hcount := statement_exact.passes hpasses
      grind [EndsStatement, statement])
    (fun read here hkind => .inl hkind)
    (fun read depth here hpasses hrule => by
      have hcount := statement_exact.passes hpasses
      grind [EndsStatement, statement, countBraces])
    (fun read depth here _ _ hrule => by grind [statement, countBraces])
  obtain ⟨depth, hpasses⟩ := hends.passes fun depth line kind => by
    grind [statement, countBraces]
  exact ⟨run, statement_exact.neverOverclosed hpasses, hfirst⟩

theorem block_firstStop : ∃ run, start.FirstStop EndsBlock run (start.skip .block) := by
  obtain ⟨run, -, hfirst⟩ := firstStop_skip block EndsBlock start
    (fun read depth here deeper hpasses hkind hrule => by
      have hcount := block_exact.passes hpasses
      grind [EndsBlock])
    (fun read here hkind => .inl hkind)
    (fun read depth here hpasses hrule => by grind [block])
    (fun read depth here hpasses hkind hrule => by
      have hcount := block_exact.passes hpasses
      have hclosing : depth = 0 ∧ here.current.kind = .rbrace := by
        grind [block, Cursor.kind]
      simp only [EndsBlock, openings_concat, closings_concat]
      grind)
  exact ⟨run, hfirst⟩

theorem compound_firstStop :
    ∃ run, start.FirstStop EndsCompound run (start.skip .compound) := by
  -- Before the body the count is zero, and so is the number of opening braces; in it
  -- neither is.
  have hbody {read : List Token} {depth : Nat} {here : Cursor}
      (hpasses : Passes compound start read depth here) : depth = 0 → openings read = 0 := by
    induction hpasses with
    | start => exact fun _ => rfl
    | next hpasses hkind hrule ih =>
        rw [Cursor.kind] at hrule
        rw [openings_concat]
        grind [compound]
  obtain ⟨run, -, hfirst⟩ := firstStop_skip compound EndsCompound start
    (fun read depth here deeper hpasses hkind hrule => by
      have hcount := compound_exact.passes hpasses
      grind [EndsCompound, compound])
    (fun read here hkind => .inl hkind)
    (fun read depth here hpasses hrule => by
      have hzero := hbody hpasses
      grind [EndsCompound, compound])
    (fun read depth here hpasses hkind hrule => by
      have hcount := compound_exact.passes hpasses
      have hclosing : depth = 1 ∧ here.current.kind = .rbrace := by
        grind [compound, Cursor.kind]
      simp only [EndsCompound, openings_concat, closings_concat]
      grind)
  exact ⟨run, hfirst⟩

theorem toSet_firstStop (set : KindSet) : ∃ run,
    (set.contains .rbrace → NeverOverclosed run) ∧
      start.FirstStop (ReachesSet set) run (start.synchronize set) := by
  obtain ⟨run, hends, hfirst⟩ := firstStop_skip (toSet set) (ReachesSet set) start
    (fun read depth here deeper hpasses hkind hrule => by
      have hzero := toSet_depth_eq_zero_iff hpasses
      grind [ReachesSet, toSet])
    (fun read here hkind => .inl hkind)
    (fun read depth here hpasses hrule => by
      have hzero := toSet_depth_eq_zero_iff hpasses
      grind [ReachesSet, toSet, countBraces])
    (fun read depth here _ _ hrule => by grind [toSet, countBraces])
  refine ⟨run, fun hset => ?_, hfirst⟩
  obtain ⟨depth, hpasses⟩ := hends.passes fun depth line kind => by
    grind [toSet, countBraces]
  exact (toSet_exact hset).neverOverclosed hpasses

end Skip

namespace Cursor

variable {start stop : Cursor}

/-- Each beginning of what is ahead can be read. -/
theorem exists_reads_append {before after : List Token} (hahead : start.ahead = before ++ after) :
    ∃ middle, start.Reads before middle ∧ middle.ahead = after := by
  induction before generalizing start with
  | nil => exact ⟨start, .refl start, hahead⟩
  | cons token before ih =>
      have hkind : start.kind ≠ .eof := by simp [kind_eq_eof_iff, hahead]
      have hfirst := reads_next hkind
      have hnext : start.next.ahead = before ++ after := by simp [ahead_next, hahead]
      obtain ⟨middle, hmiddle, hafter⟩ := ih hnext
      have htoken : start.current = token := by simp [current, hahead]
      rw [htoken] at hfirst
      exact ⟨middle, hfirst.trans hmiddle, hafter⟩

theorem synchronizes_iff (set : KindSet) : start.synchronizes set = true ↔
    ∃ (before : List Token) (token : Token) (after : List Token),
      start.ahead = before ++ token :: after ∧ OutsideBraces before ∧
        set.contains token.kind := by
  obtain ⟨run, -, hfirst⟩ := Skip.toSet_firstStop start set
  have hfound : start.synchronizes set = true ↔ (start.synchronize set).kind ≠ .eof := by
    simp [synchronizes, atEof]
  rw [hfound]
  constructor
  · intro hkind
    obtain ⟨houtside, hset⟩ := hfirst.here.resolve_left hkind
    exact ⟨run, _, _, hfirst.reads.ahead.trans (congrArg _ (ahead_eq_cons hkind)), houtside,
      hset⟩
  · rintro ⟨before, token, after, hahead, houtside, hset⟩ hkind
    obtain ⟨middle, hmiddle, hafter⟩ := exists_reads_append hahead
    have hrun : run = before ++ token :: after := by
      have hall := hfirst.reads.ahead
      rw [kind_eq_eof_iff.1 hkind, List.append_nil] at hall
      exact hall.symm.trans hahead
    refine hfirst.first before middle hmiddle (by simp [hrun]) (.inr ⟨houtside, ?_⟩)
    rwa [kind_of_ahead_eq_cons hafter]

/-- Where the skips that count braces end, and what they read.  The skip of a statement ends
before the first token that ends it and closes no brace that it did not open; the skip of a
body ends behind the brace that closes it; the skip of a construct with a body ends before
the body, or behind the brace that closes it; `synchronize` ends at the first kind of the set
outside braces and finds one just when there is one.  No count of open delimiters is ever
taken below zero, nor, in a construct with a body, below the one that stands for the body. -/
theorem skips_endAtFirst (start : Cursor) (set : KindSet) :
    (∃ run, NeverOverclosed run ∧
      start.FirstStop EndsStatement run (start.skip .statement)) ∧
    (∃ run, start.FirstStop EndsBlock run (start.skip .block)) ∧
    (∃ run, start.FirstStop EndsCompound run (start.skip .compound)) ∧
    (∃ run, (set.contains .rbrace → NeverOverclosed run) ∧
      start.FirstStop (ReachesSet set) run (start.synchronize set)) ∧
    (start.synchronizes set = true ↔
      ∃ before token after, start.ahead = before ++ token :: after ∧
        OutsideBraces before ∧ set.contains token.kind) ∧
    Skip.NeverBelowZero .statement (· = .lbrace) (· = .rbrace) start ∧
    Skip.NeverBelowZero .block (· = .lbrace) (· = .rbrace) start ∧
    (Skip.NeverBelowZero .compound (· = .lbrace) (· = .rbrace) start ∧
      ∀ read depth here deeper, Skip.Passes .compound start read depth here →
        here.kind = .rbrace → Skip.compound depth here.opensLine here.kind = .proceed deeper →
          0 < deeper) ∧
    Skip.NeverBelowZero .expression Kind.isOpener Kind.isCloser start ∧
    (∀ read depth here, Skip.Passes (.toSet set) start read depth here →
      (depth = 0 ↔ OutsideBraces read)) :=
  ⟨Skip.statement_firstStop start, Skip.block_firstStop start, Skip.compound_firstStop start,
    Skip.toSet_firstStop start set, synchronizes_iff set,
    Skip.statement_exact.neverBelowZero start, Skip.block_exact.neverBelowZero start,
    ⟨Skip.compound_exact.neverBelowZero start,
      fun _ _ _ _ _ hkind hrule => by grind [Skip.compound]⟩,
    Skip.expression_exact.neverBelowZero start,
    fun _ _ _ hpasses => Skip.toSet_depth_eq_zero_iff hpasses⟩

end Cursor

end OriSyntax
