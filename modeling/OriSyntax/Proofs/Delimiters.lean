import OriSyntax.Proofs.Reading

/-!
Delimiters.  Braces are counted by their depth, and delimiters of all three sorts are
matched on a stack.  What a rule skips closes the braces that it opens and no others,
unless the skip runs into the end of the file.
-/

namespace OriSyntax

/-- What something is among braces. -/
inductive Brace where
  | opening | closing | other
deriving DecidableEq, Repr

namespace Brace

/-- The number of open braces behind a row, if `depth` are open before it and each
closing brace of the row closes an open one. -/
def depthAfter : Nat → List Brace → Option Nat
  | depth, [] => some depth
  | depth, opening :: rest => depthAfter (depth + 1) rest
  | 0, closing :: _ => none
  | depth + 1, closing :: rest => depthAfter depth rest
  | depth, other :: rest => depthAfter depth rest

/-- A row that closes the braces it opens, and no others. -/
def Level (row : List Brace) : Prop := depthAfter 0 row = some 0

instance (row : List Brace) : Decidable (Level row) :=
  inferInstanceAs (Decidable (_ = _))

@[simp] theorem depthAfter_nil (depth : Nat) : depthAfter depth [] = some depth := by
  simp [depthAfter]

@[simp] theorem depthAfter_opening (depth : Nat) (rest : List Brace) :
    depthAfter depth (opening :: rest) = depthAfter (depth + 1) rest := by
  simp [depthAfter]

@[simp] theorem depthAfter_closing (depth : Nat) (rest : List Brace) :
    depthAfter (depth + 1) (closing :: rest) = depthAfter depth rest := by
  simp [depthAfter]

@[simp] theorem depthAfter_other (depth : Nat) (rest : List Brace) :
    depthAfter depth (other :: rest) = depthAfter depth rest := by
  simp [depthAfter]

theorem depthAfter_append (depth : Nat) (row rest : List Brace) :
    depthAfter depth (row ++ rest) =
      (depthAfter depth row).bind fun reached => depthAfter reached rest := by
  induction row generalizing depth with
  | nil => simp
  | cons brace row ih =>
      cases brace with
      | opening => simp [ih]
      | other => simp [ih]
      | closing =>
          cases depth with
          | zero => rfl
          | succ depth => simp [ih]

theorem depthAfter_cons_congr {row rest : List Brace} (brace : Brace)
    (hrow : ∀ depth, depthAfter depth row = depthAfter depth rest) (depth : Nat) :
    depthAfter depth (brace :: row) = depthAfter depth (brace :: rest) := by
  rw [← List.singleton_append, depthAfter_append, funext hrow, ← depthAfter_append,
    List.singleton_append]

/-- Braces that are open further out make no difference. -/
theorem depthAfter_add {depth reached : Nat} {row : List Brace} (outside : Nat)
    (hrow : depthAfter depth row = some reached) :
    depthAfter (outside + depth) row = some (outside + reached) := by
  induction row generalizing depth with
  | nil => simp_all
  | cons brace row ih =>
      cases brace with
      | opening =>
          rw [depthAfter_opening] at hrow ⊢
          exact ih hrow
      | other =>
          rw [depthAfter_other] at hrow ⊢
          exact ih hrow
      | closing =>
          cases depth with
          | zero => exact nomatch hrow
          | succ depth =>
              rw [depthAfter_closing] at hrow
              rw [← Nat.add_assoc, depthAfter_closing]
              exact ih hrow

namespace Level

variable {row rest : List Brace}

theorem depthAfter_eq (hrow : Level row) (depth : Nat) :
    depthAfter depth row = some depth :=
  depthAfter_add depth hrow

protected theorem nil : Level [] := rfl

protected theorem append (hrow : Level row) (hrest : Level rest) : Level (row ++ rest) := by
  rw [Level, depthAfter_append, hrow]
  exact hrest

theorem other_cons (hrow : Level row) : Level (other :: row) := hrow

theorem enclosed (hrow : Level row) : Level (opening :: row ++ [closing]) := by
  rw [Level, List.cons_append, depthAfter_opening, depthAfter_append, hrow.depthAfter_eq]
  rfl

theorem flatMap {α : Type} {items : List α} {row : α → List Brace}
    (hrow : ∀ item ∈ items, Level (row item)) : Level (items.flatMap row) := by
  induction items with
  | nil => exact .nil
  | cons item rest ih =>
      rw [List.flatMap_cons]
      exact (hrow item List.mem_cons_self).append
        (ih fun other hother => hrow other (List.mem_cons_of_mem item hother))

end Level

end Brace

/-- What a kind is among braces. -/
def Kind.brace : Kind → Brace
  | .lbrace => .opening
  | .rbrace => .closing
  | _ => .other

theorem Kind.brace_eq_other {kind : Kind} (hopening : kind ≠ .lbrace)
    (hclosing : kind ≠ .rbrace) : kind.brace = .other := by
  unfold Kind.brace
  split <;> simp_all

/-- The braces among tokens. -/
def braces (tokens : List Token) : List Brace := tokens.map fun token => token.kind.brace

@[simp] theorem braces_nil : braces [] = [] := rfl

@[simp] theorem braces_cons (token : Token) (rest : List Token) :
    braces (token :: rest) = token.kind.brace :: braces rest := rfl

@[simp] theorem braces_append (run rest : List Token) :
    braces (run ++ rest) = braces run ++ braces rest := List.map_append

namespace Kind

/-- Kinds that open something. -/
def isOpener (kind : Kind) : Bool := kind ∈ [.lparen, .lbracket, .lbrace]

/-- The kind that a closing delimiter closes. -/
def opener? : Kind → Option Kind
  | .rparen => some .lparen
  | .rbracket => some .lbracket
  | .rbrace => some .lbrace
  | _ => none

/-- The delimiters open behind a token of this kind, innermost first, unless it
closes one that is not the innermost. -/
def openBehind (kind : Kind) (stack : List Kind) : Option (List Kind) :=
  match kind.opener? with
  | some opener => if stack.head? = some opener then some stack.tail else none
  | none => some (if kind.isOpener then kind :: stack else stack)

end Kind

namespace Kind

variable {kind opener : Kind} {stack reached : List Kind} {row : List Brace}

theorem openBehind_cases (hbehind : kind.openBehind stack = some reached) :
    kind.isOpener ∧ reached = kind :: stack ∨
      (∃ opener, kind.opener? = some opener ∧ stack = opener :: reached) ∨
      kind.isOpener = false ∧ kind.opener? = none ∧ reached = stack := by
  unfold openBehind at hbehind
  split at hbehind
  · next opener hopener =>
      refine .inr (.inl ⟨opener, hopener, ?_⟩)
      cases stack <;> simp_all
  · next hopener =>
      cases hkind : kind.isOpener <;> simp_all

theorem eq_rbrace_of_opener? (hopener : kind.opener? = some .lbrace) : kind = .rbrace := by
  cases kind <;> simp_all [opener?]

theorem openBehind_opener (hkind : kind.isOpener) :
    kind.openBehind stack = some (kind :: stack) := by
  cases kind <;> simp_all [openBehind, isOpener, opener?]

theorem openBehind_closer (hopener : kind.opener? = some opener) :
    kind.openBehind (opener :: stack) = some stack := by
  simp [openBehind, hopener]

theorem openBehind_neither (hkind : kind.isOpener = false) (hopener : kind.opener? = none) :
    kind.openBehind stack = some stack := by
  simp [openBehind, hopener, hkind]

theorem depthAfter_opener (hkind : kind.isOpener) :
    Brace.depthAfter (stack.count .lbrace) (kind.brace :: row) =
      Brace.depthAfter ((kind :: stack).count .lbrace) row := by
  cases kind <;> simp_all [isOpener, brace]

theorem depthAfter_closer (hopener : kind.opener? = some opener) :
    Brace.depthAfter ((opener :: stack).count .lbrace) (kind.brace :: row) =
      Brace.depthAfter (stack.count .lbrace) row := by
  unfold opener? at hopener
  split at hopener <;> cases hopener <;> simp [brace]

theorem depthAfter_neither (hkind : kind.isOpener = false) (hopener : kind.opener? = none)
    (depth : Nat) :
    Brace.depthAfter depth (kind.brace :: row) = Brace.depthAfter depth row := by
  rw [brace_eq_other, Brace.depthAfter_other]
  · intro hcase
    rcases hcase with rfl
    exact nomatch hkind
  · intro hcase
    rcases hcase with rfl
    exact nomatch hopener

end Kind

/-- The delimiters open behind a row of tokens if those of `stack` are open before it,
unless one closes another than the innermost. -/
def openAfter (stack : List Kind) (tokens : List Token) : Option (List Kind) :=
  tokens.foldlM (fun stack token => token.kind.openBehind stack) stack

/-- Each delimiter of the row is closed within it by one of its own sort, inner
ones before outer ones. -/
def ProperlyNested (tokens : List Token) : Prop := openAfter [] tokens = some []

instance (tokens : List Token) : Decidable (ProperlyNested tokens) :=
  inferInstanceAs (Decidable (_ = _))

@[simp] theorem openAfter_nil (stack : List Kind) : openAfter stack [] = some stack := rfl

@[simp] theorem openAfter_cons (stack : List Kind) (token : Token) (rest : List Token) :
    openAfter stack (token :: rest) =
      (token.kind.openBehind stack).bind fun stack => openAfter stack rest := by
  simp [openAfter, bind]

theorem openAfter_append (stack : List Kind) (run rest : List Token) :
    openAfter stack (run ++ rest) =
      (openAfter stack run).bind fun stack => openAfter stack rest := by
  simp [openAfter, List.foldlM_append, bind]

/-- The stack on which the rest of a row that opens and closes well is matched. -/
theorem openAfter_rest {stack : List Kind} {run rest : List Token}
    (hrow : (openAfter stack (run ++ rest)).isSome) :
    ∃ reached, openAfter stack run = some reached ∧ (openAfter reached rest).isSome := by
  rw [openAfter_append] at hrow
  cases hrun : openAfter stack run with
  | none => simp [hrun] at hrow
  | some reached => exact ⟨reached, rfl, by simpa [hrun] using hrow⟩

/-- If the delimiters of a file are matched, those ahead are, on some stack. -/
theorem Cursor.exists_stack {cursor : Cursor} (hnests : (openAfter [] cursor.tokens).isSome) :
    ∃ stack, (openAfter stack cursor.ahead).isSome := by
  rw [Cursor.tokens, List.append_assoc] at hnests
  obtain ⟨stack, -, hstack⟩ := openAfter_rest hnests
  obtain ⟨reached, hreached, -⟩ := openAfter_rest hstack
  exact ⟨stack, by simp [hreached]⟩

namespace Cursor

/-- What a skip reads, by the answers of its rule.  Nothing is said of a skip that
runs into the end of the file. -/
theorem skip_run (rule : Skip.Rule) (fits : Nat → List Token → List Token → Prop)
    (hstop : ∀ depth line token rest, rule depth line token.kind = .stop →
      fits depth (token :: rest) [])
    (hfinish : ∀ depth line token rest, rule depth line token.kind = .finish →
      fits depth (token :: rest) [token])
    (hproceed : ∀ depth line token rest deeper run,
      rule depth line token.kind = .proceed deeper → fits deeper rest run →
        fits depth (token :: rest) (token :: run))
    (cursor : Cursor) :
    ∃ run, cursor.Reads run (cursor.skip rule) ∧
      ((cursor.skip rule).kind ≠ .eof → fits 0 cursor.ahead run) := by
  suffices halong : ∀ tokens depth (cursor : Cursor), cursor.ahead = tokens →
      ∃ run, cursor.Reads run (skipAlong rule tokens depth cursor) ∧
        ((skipAlong rule tokens depth cursor).kind ≠ .eof → fits depth tokens run) from
    halong _ _ _ rfl
  intro tokens
  induction tokens with
  | nil =>
      intro depth cursor hahead
      exact ⟨[], .refl cursor, fun hkind => absurd (kind_eq_eof_iff.2 hahead) hkind⟩
  | cons token rest ih =>
      intro depth cursor hahead
      have hkind : cursor.kind ≠ .eof := by simp [kind_eq_eof_iff, hahead]
      have hfirst : cursor.Reads [token] cursor.next := by
        simpa [current, hahead] using reads_next hkind
      rw [skipAlong]
      split
      · next hrule => exact ⟨[], .refl cursor, fun _ => hstop _ _ _ _ hrule⟩
      · next hrule => exact ⟨[token], hfirst, fun _ => hfinish _ _ _ _ hrule⟩
      · next deeper hrule =>
          obtain ⟨run, hrun, hfits⟩ := ih deeper cursor.next (by simp [ahead_next, hahead])
          refine ⟨token :: run, hfirst.trans hrun, fun hend => ?_⟩
          exact hproceed _ _ _ _ _ _ hrule (hfits hend)

end Cursor

namespace Skip

/-- What a rule skips closes the braces it opens and no others, wherever delimiters
are closed in the right order. -/
def KeepsLevel (rule : Rule) : Prop :=
  ∀ (cursor : Cursor) (stack : List Kind) (run : List Token),
    (openAfter stack cursor.ahead).isSome → cursor.Reads run (cursor.skip rule) →
    (cursor.skip rule).kind ≠ .eof → Brace.Level (braces run)

/-- Enough for a rule that counts nothing but braces. -/
theorem KeepsLevel.of_depth {rule : Rule}
    (hstop : ∀ depth line kind, rule depth line kind = .stop → depth = 0)
    (hfinish : ∀ depth line kind, rule depth line kind = .finish →
      depth = 1 ∧ kind = .rbrace)
    (hproceed : ∀ depth line kind deeper row, rule depth line kind = .proceed deeper →
      Brace.depthAfter deeper row = some 0 →
        Brace.depthAfter depth (kind.brace :: row) = some 0) :
    KeepsLevel rule := by
  intro cursor stack run _ hreads hend
  obtain ⟨skipped, hskipped, hfits⟩ := Cursor.skip_run rule
    (fun depth _ run => Brace.depthAfter depth (braces run) = some 0)
    (fun depth line token _ hrule => by simp [hstop _ _ _ hrule])
    (fun depth line token _ hrule => by
      obtain ⟨rfl, hkind⟩ := hfinish _ _ _ hrule
      simp [hkind, Kind.brace])
    (fun depth line token _ deeper run hrule hrun => hproceed _ _ _ _ _ hrule hrun) cursor
  rw [hreads.unique hskipped]
  exact hfits hend

theorem depthAfter_countBraces {depth deeper : Nat} {kind : Kind} {row : List Brace}
    (hdepth : depth = 0 → kind ≠ .rbrace) (hcount : countBraces depth kind = .proceed deeper)
    (hrow : Brace.depthAfter deeper row = some 0) :
    Brace.depthAfter depth (kind.brace :: row) = some 0 := by
  unfold countBraces at hcount
  split at hcount
  · next hkind =>
      cases hcount
      simpa [hkind, Kind.brace] using hrow
  split at hcount
  · next hkind =>
      cases hcount
      obtain ⟨above, rfl⟩ := Nat.exists_eq_succ_of_ne_zero fun hzero => hdepth hzero hkind
      simpa [hkind, Kind.brace] using hrow
  · next hopening hclosing =>
      cases hcount
      simpa [Kind.brace_eq_other hopening hclosing] using hrow

theorem countBraces_proceeds (depth : Nat) (kind : Kind) :
    ∃ deeper, countBraces depth kind = .proceed deeper := by
  unfold countBraces
  split
  · exact ⟨_, rfl⟩
  · split <;> exact ⟨_, rfl⟩

/-- A rule that counts braces and stops outside them, at a closing brace at the
latest. -/
theorem KeepsLevel.of_stops {rule : Rule} {stops : Bool → Kind → Bool}
    (hrule : ∀ depth line kind, rule depth line kind =
      if depth = 0 && stops line kind then .stop else countBraces depth kind)
    (hstops : ∀ line, stops line .rbrace) : KeepsLevel rule := by
  refine .of_depth (fun depth line kind => ?_) (fun depth line kind => ?_)
    fun depth line kind deeper row => ?_
  all_goals
    rw [hrule]
    obtain ⟨reached, hcount⟩ := countBraces_proceeds depth kind
    split
  · next hstop => exact fun _ => by simp_all
  · simp [hcount]
  · simp
  · simp [hcount]
  · simp
  · next hgoes =>
      refine depthAfter_countBraces fun hzero hkind => hgoes ?_
      simp [hzero, hkind, hstops]

theorem toSet_keepsLevel {set : KindSet} (hset : set.contains .rbrace) :
    KeepsLevel (toSet set) :=
  .of_stops (fun _ _ _ => rfl) fun _ => hset

theorem caseBoundary_keepsLevel : KeepsLevel (toSet .caseBoundary) :=
  toSet_keepsLevel (by decide)

theorem statement_keepsLevel : KeepsLevel statement := by
  refine .of_stops (fun _ _ _ => rfl) fun line => ?_
  rw [show KindSet.stmtEnd.contains .rbrace = true by decide, Bool.true_or]

theorem compound_keepsLevel : KeepsLevel compound := by
  refine .of_depth (fun depth line kind hrule => ?_) (fun depth line kind hrule => ?_)
    fun depth line kind deeper row hrule hrow => ?_
  · grind [compound]
  · grind [compound]
  · refine depthAfter_countBraces (fun hzero hkind => ?_) ?_ hrow
    · simp [compound, hzero, hkind] at hrule
    · grind [compound, countBraces]

/-- A rule that counts delimiters of other sorts: `fits` tells which delimiters may be
open since the skip began.  At their outermost level the rule may also read delimiters
other than braces that belong to what surrounds the skip. -/
structure Counts (rule : Rule) (fits : Nat → List Kind → Prop) : Prop where
  start : fits 0 []
  stop : ∀ {depth line kind inner}, rule depth line kind = .stop → fits depth inner →
    inner.count .lbrace = 0
  finish : ∀ {depth line kind inner}, rule depth line kind = .finish → fits depth inner →
    inner.count .lbrace = 0 ∧ kind.brace = .other
  opens : ∀ {depth line kind deeper inner}, rule depth line kind = .proceed deeper →
    fits depth inner → kind.isOpener →
      fits deeper (kind :: inner) ∨ inner = [] ∧ kind ≠ .lbrace ∧ fits deeper []
  closes : ∀ {depth line kind deeper opener inner}, rule depth line kind = .proceed deeper →
    kind.opener? = some opener → fits depth (opener :: inner) → fits deeper inner
  leaves : ∀ {depth line kind deeper opener}, rule depth line kind = .proceed deeper →
    kind.opener? = some opener → fits depth [] → kind ≠ .rbrace ∧ fits deeper []
  passes : ∀ {depth line kind deeper inner}, rule depth line kind = .proceed deeper →
    kind.isOpener = false → kind.opener? = none → fits depth inner → fits deeper inner

/-- One token read by such a rule. -/
theorem Counts.depthAfter_cons {rule : Rule} {fits : Nat → List Kind → Prop}
    (hcounts : Counts rule fits) {depth deeper : Nat} {line : Bool} {token : Token}
    {rest run : List Token} (hrule : rule depth line token.kind = .proceed deeper)
    (hrun : ∀ inner outer, fits deeper inner → (openAfter (inner ++ outer) rest).isSome →
      Brace.depthAfter (inner.count .lbrace) (braces run) = some 0)
    {inner outer : List Kind} (hinner : fits depth inner)
    (hahead : (openAfter (inner ++ outer) (token :: rest)).isSome) :
    Brace.depthAfter (inner.count .lbrace) (braces (token :: run)) = some 0 := by
  rw [openAfter_cons] at hahead
  rw [braces_cons]
  cases hbehind : token.kind.openBehind (inner ++ outer) with
  | none => simp [hbehind] at hahead
  | some reached =>
      rw [hbehind, Option.bind_some] at hahead
      rcases Kind.openBehind_cases hbehind with
        ⟨hkind, rfl⟩ | ⟨opener, hopener, hstack⟩ | ⟨hkind, hopener, rfl⟩
      · rcases hcounts.opens hrule hinner hkind with hfits | ⟨rfl, hbrace, hfits⟩
        · rw [Kind.depthAfter_opener hkind]
          exact hrun _ outer hfits hahead
        · have hother : token.kind.brace = .other := by
            apply Kind.brace_eq_other hbrace
            intro hclosing
            simp [hclosing, Kind.isOpener] at hkind
          rw [hother, Brace.depthAfter_other]
          exact hrun [] _ hfits hahead
      · cases inner with
        | nil =>
            obtain ⟨hbrace, hfits⟩ := hcounts.leaves hrule hopener hinner
            have hother : token.kind.brace = .other := by
              refine Kind.brace_eq_other (fun hopening => ?_) hbrace
              simp [hopening, Kind.opener?] at hopener
            rw [hother, Brace.depthAfter_other]
            exact hrun [] reached hfits hahead
        | cons top below =>
            obtain ⟨rfl, rfl⟩ := List.cons.inj hstack
            rw [Kind.depthAfter_closer hopener]
            exact hrun below outer (hcounts.closes hrule hopener hinner) hahead
      · rw [Kind.depthAfter_neither hkind hopener]
        exact hrun inner outer (hcounts.passes hrule hkind hopener hinner) hahead

theorem Counts.keepsLevel {rule : Rule} {fits : Nat → List Kind → Prop}
    (hcounts : Counts rule fits) : KeepsLevel rule := by
  intro cursor stack run hstack hreads hend
  obtain ⟨skipped, hskipped, hfits⟩ := Cursor.skip_run rule
    (fun depth ahead run => ∀ inner outer, fits depth inner →
      (openAfter (inner ++ outer) ahead).isSome →
        Brace.depthAfter (inner.count .lbrace) (braces run) = some 0)
    (fun depth line token rest hrule inner outer hinner _ => by
      simp [hcounts.stop hrule hinner])
    (fun depth line token rest hrule inner outer hinner _ => by
      simp [hcounts.finish hrule hinner])
    (fun depth line token rest deeper run hrule hrun inner outer hinner hahead =>
      hcounts.depthAfter_cons hrule hrun hinner hahead)
    cursor
  rw [hreads.unique hskipped]
  exact hfits hend [] stack hcounts.start hstack

/-- An expression is skipped within delimiters of any sort. -/
theorem expression_counts : Counts expression fun depth inner => inner.length = depth where
  start := rfl
  stop hrule hinner := by
    have hnil := List.eq_nil_of_length_eq_zero (hinner.trans (by grind [expression]))
    rw [hnil]
    rfl
  finish hrule := by grind [expression]
  opens hrule hinner hkind := by
    refine .inl ?_
    grind [expression, Kind.isOpener]
  closes hrule hopener hinner := by
    grind [expression, Kind.opener?]
  leaves hrule hopener hinner := by
    grind [expression, Kind.opener?, Kind.isClosing]
  passes hrule hkind hopener hinner := by
    grind [expression, Kind.opener?, Kind.isOpener]

/-- A list is skipped within `depth` parentheses, of which one is the outermost
delimiter that is open. -/
def WithinParens (depth : Nat) (inner : List Kind) : Prop :=
  inner.count .lparen = depth ∧ (inner ≠ [] → inner.getLast? = some .lparen)

namespace WithinParens

variable {depth : Nat} {inner : List Kind} {kind : Kind}

theorem eq_nil (hinner : WithinParens 0 inner) : inner = [] := by
  apply Decidable.byContradiction
  intro hne
  have hmem := List.mem_of_getLast? (hinner.2 hne)
  exact absurd hinner.1 (Nat.ne_of_gt (List.count_pos_iff.2 hmem))

theorem paren (hinner : WithinParens depth inner) :
    WithinParens (depth + 1) (.lparen :: inner) := by
  refine ⟨by rw [List.count_cons_self, hinner.1], fun _ => ?_⟩
  by_cases hnil : inner = []
  · rw [hnil]
    rfl
  · rw [List.getLast?_cons_of_ne_nil hnil]
    exact hinner.2 hnil

theorem cons (hinner : WithinParens (depth + 1) inner) (hkind : kind ≠ .lparen) :
    WithinParens (depth + 1) (kind :: inner) := by
  have hne : inner ≠ [] := by
    intro hcase
    rcases hcase with rfl
    exact nomatch hinner.1
  refine ⟨by rw [List.count_cons_of_ne hkind, hinner.1], fun _ => ?_⟩
  rw [List.getLast?_cons_of_ne_nil hne]
  exact hinner.2 hne

theorem tail (hinner : WithinParens depth (kind :: inner)) :
    WithinParens (inner.count .lparen) inner := by
  refine ⟨rfl, fun hne => ?_⟩
  rw [← List.getLast?_cons_of_ne_nil hne]
  exact hinner.2 (List.cons_ne_nil _ _)

end WithinParens

theorem list_counts : Counts list WithinParens where
  start := ⟨rfl, fun hne => absurd rfl hne⟩
  stop {depth line kind inner} hrule hinner := by
    have hdepth : depth = 0 := by grind [list]
    subst hdepth
    rw [hinner.eq_nil]
    rfl
  finish {depth line kind inner} hrule hinner := by
    have hends : depth = 0 ∧ kind = .rparen := by grind [list]
    obtain ⟨rfl, rfl⟩ := hends
    rw [hinner.eq_nil]
    exact ⟨rfl, rfl⟩
  opens {depth line kind deeper inner} hrule hinner hkind := by
    by_cases hparen : kind = .lparen
    · subst hparen
      have hdeeper : deeper = depth + 1 := by grind [list]
      rw [hdeeper]
      exact .inl hinner.paren
    have hdeeper : deeper = depth ∧ (depth = 0 → kind ≠ .lbrace) := by
      grind [list, Kind.isOpener]
    obtain ⟨rfl, hbrace⟩ := hdeeper
    cases deeper with
    | zero => exact .inr ⟨hinner.eq_nil, hbrace rfl, ⟨rfl, fun hne => absurd rfl hne⟩⟩
    | succ outer => exact .inl (hinner.cons hparen)
  closes {depth line kind deeper opener inner} hrule hopener hinner := by
    have hcount : inner.count .lparen = deeper := by
      have hdepth := hinner.1
      grind [list, Kind.opener?]
    exact hcount ▸ hinner.tail
  leaves {depth line kind deeper opener} hrule hopener hinner := by
    obtain ⟨rfl, -⟩ := hinner
    have hdeeper : kind ≠ .rbrace ∧ deeper = 0 := by grind [list, Kind.opener?]
    rw [hdeeper.2]
    exact ⟨hdeeper.1, rfl, fun hne => absurd rfl hne⟩
  passes {depth line kind deeper inner} hrule hkind hopener hinner := by
    have hdeeper : deeper = depth := by grind [list, Kind.opener?, Kind.isOpener]
    exact hdeeper ▸ hinner

theorem expression_keepsLevel : KeepsLevel expression := expression_counts.keepsLevel

theorem list_keepsLevel : KeepsLevel list := list_counts.keepsLevel

/-- The rest of a body is skipped past the brace that closes it. -/
theorem block_closes {cursor : Cursor} {run : List Token}
    (hreads : cursor.Reads run (cursor.skip block)) (hend : (cursor.skip block).kind ≠ .eof) :
    Brace.depthAfter 1 (braces run) = some 0 := by
  obtain ⟨skipped, hskipped, hfits⟩ := Cursor.skip_run block
    (fun depth _ run => Brace.depthAfter (depth + 1) (braces run) = some 0)
    (fun depth line token rest hrule => by grind [block])
    (fun depth line token rest hrule => by
      have hends : depth = 0 ∧ token.kind = .rbrace := by grind [block]
      simp [hends, Kind.brace])
    (fun depth line token rest deeper run hrule hrun =>
      depthAfter_countBraces (nomatch ·) (by grind [block, countBraces]) hrun)
    cursor
  rw [hreads.unique hskipped]
  exact hfits hend

end Skip

end OriSyntax
