import Mathlib.Logic.Function.Iterate
import OriSyntax.Proofs.Discipline

/-!
What a cursor tells of the tokens to come, and of the one read last, is what reading on will
show, and what reading has shown.  The forms of the grammar are chosen by the look-ahead and
by the scan of a header, before any of the tokens looked at is read.
-/

namespace OriSyntax

/-- Rows of tokens as a cursor keeps them: no comment is among them, and the last one is the
only end of the file. -/
structure Terminated (row : List Token) : Prop where
  no_comment : ∀ token ∈ row, token.kind ≠ .comment
  eof_last : ∃ code closing, row = code ++ [closing] ∧ closing.kind = .eof ∧
    ∀ token ∈ code, token.kind ≠ .eof

namespace Cursor

/-- What may be called on a cursor.  All but the last two calls only look. -/
inductive Call where
  | position
  | current
  | kind
  | kindAt (offset : Nat)
  | previous
  | atEof
  | opensLine
  | headerContains (kind : Kind)
  /-- Reads the next token. -/
  | next
  /-- Reads the next token if it is of the given kind. -/
  | accept (wanted : Kind)
deriving DecidableEq, Repr

/-- Whether a call comes down to a call of `next`. -/
def Call.reads : Call → Cursor → Bool
  | .next, _ => true
  | .accept wanted, cursor => cursor.kind = wanted
  | _, _ => false

/-- The cursor behind a call. -/
def Call.after (call : Call) (cursor : Cursor) : Cursor :=
  if call.reads cursor then cursor.next else cursor

/-- The token that a call has from `next`, if that moves the cursor. -/
def Call.taken (call : Call) (cursor : Cursor) : Option Token :=
  if call.reads cursor ∧ cursor.position < cursor.next.position then some cursor.current
  else none

/-- The cursor behind a list of calls. -/
def afterAll (cursor : Cursor) (calls : List Call) : Cursor :=
  calls.foldl (fun cursor call => call.after cursor) cursor

/-- The tokens that a list of calls has from those calls of `next` that move the cursor. -/
def takenBy (cursor : Cursor) : List Call → List Token
  | [] => []
  | call :: rest => (call.taken cursor).toList ++ (call.after cursor).takenBy rest

variable {cursor : Cursor}

theorem position_next (hkind : cursor.kind ≠ .eof) :
    cursor.next.position = cursor.position + 1 := by
  rw [(reads_next hkind).position, List.length_singleton, Nat.add_comm]

/-- A call reads the token that it takes, or nothing. -/
theorem Call.reads_taken (call : Call) (cursor : Cursor) :
    cursor.Reads (call.taken cursor).toList (call.after cursor) := by
  unfold taken after
  by_cases hreads : call.reads cursor
  · by_cases hkind : cursor.kind = .eof
    · have hstays : cursor.next = cursor := next_of_ahead_eq_nil (kind_eq_eof_iff.1 hkind)
      simpa [hreads, hstays] using Reads.refl cursor
    · simpa [hreads, position_next hkind] using reads_next hkind
  · simpa [hreads] using Reads.refl cursor

/-- What a list of calls reads is what its calls of `next` handed back. -/
theorem reads_takenBy (calls : List Call) (cursor : Cursor) :
    cursor.Reads (cursor.takenBy calls) (cursor.afterAll calls) := by
  induction calls generalizing cursor with
  | nil => exact .refl cursor
  | cons call rest ih => exact (call.reads_taken cursor).trans (ih _)

theorem position_le_afterAll (cursor : Cursor) (calls : List Call) :
    cursor.position ≤ (cursor.afterAll calls).position := by
  rw [(reads_takenBy calls cursor).position]
  exact Nat.le_add_left _ _

/-- The token read last is the one that was handed back last. -/
theorem previous_afterAll (hstart : cursor.behind = []) (calls : List Call) :
    (cursor.afterAll calls).previous =
      (cursor.takenBy calls).getLast?.getD (cursor.afterAll calls).current := by
  rw [previous, (reads_takenBy calls cursor).behind, hstart, List.append_nil, List.head?_reverse]

theorem kindAt_zero (cursor : Cursor) : cursor.kindAt 0 = cursor.kind := by
  cases hahead : cursor.ahead with
  | nil => simp [kindAt, hahead, kind_of_ahead_eq_nil hahead]
  | cons token rest => simp [kindAt, hahead, kind_of_ahead_eq_cons hahead]

/-- Behind the next token everything is one place nearer. -/
theorem kindAt_succ (cursor : Cursor) (offset : Nat) :
    cursor.kindAt (offset + 1) = cursor.next.kindAt offset := by
  rw [kindAt, kindAt, ahead_next, List.getElem?_tail]

theorem kindAt_eq_kind_iterate (cursor : Cursor) (offset : Nat) :
    cursor.kindAt offset = (next^[offset] cursor).kind := by
  induction offset generalizing cursor with
  | zero => exact cursor.kindAt_zero
  | succ offset ih => rw [kindAt_succ, ih, Function.iterate_succ_apply]

/-- The scan of a header looks at the next token and goes on behind it. -/
theorem headerContains_step (cursor : Cursor) (kind : Kind) :
    cursor.headerContains kind =
      if cursor.kind = .lbrace ∨ cursor.kind = .eof then false
      else decide (cursor.kind = kind) || cursor.next.headerContains kind := by
  rw [headerContains, headerContains, ahead_next]
  cases hahead : cursor.ahead with
  | nil => simp [kind_of_ahead_eq_nil hahead]
  | cons token rest =>
      have hplain := cursor.ahead_plain token (by simp [hahead])
      rw [kind_of_ahead_eq_cons hahead]
      by_cases hbrace : token.kind = .lbrace
      · simp [hbrace]
      · simp [hbrace, hplain.2]

/-- The scan of a header finds a kind if and only if reading on comes to it before it comes
to an opening brace or to the end of the file. -/
theorem headerContains_iff (cursor : Cursor) (kind : Kind) :
    cursor.headerContains kind ↔
      ∃ count, (next^[count] cursor).kind = kind ∧ ∀ earlier ≤ count,
        (next^[earlier] cursor).kind ≠ .lbrace ∧ (next^[earlier] cursor).kind ≠ .eof := by
  constructor
  · intro hcontains
    -- induction on the tokens that are left, of which the scan drops one
    induction hahead : cursor.ahead generalizing cursor with
    | nil => simp [headerContains, hahead] at hcontains
    | cons token rest ih =>
        rw [headerContains_step] at hcontains
        split at hcontains
        · exact nomatch hcontains
        · next hopen =>
            rw [not_or] at hopen
            rw [Bool.or_eq_true, decide_eq_true_eq] at hcontains
            rcases hcontains with hhere | hlater
            · refine ⟨0, hhere, fun earlier hearlier => ?_⟩
              rw [Nat.le_zero.1 hearlier]
              exact hopen
            · obtain ⟨count, hcount, hbefore⟩ :=
                ih cursor.next hlater (by simp [ahead_next, hahead])
              refine ⟨count + 1, hcount, fun earlier hearlier => ?_⟩
              cases earlier with
              | zero => exact hopen
              | succ earlier => exact hbefore earlier (Nat.le_of_succ_le_succ hearlier)
  · rintro ⟨count, hcount, hbefore⟩
    induction count generalizing cursor with
    | zero =>
        have hopen : ¬ (cursor.kind = .lbrace ∨ cursor.kind = .eof) :=
          not_or.2 (hbefore 0 (Nat.le_refl 0))
        have hhere : cursor.kind = kind := hcount
        rw [headerContains_step, if_neg hopen, decide_eq_true hhere, Bool.true_or]
    | succ count ih =>
        have hopen : ¬ (cursor.kind = .lbrace ∨ cursor.kind = .eof) :=
          not_or.2 (hbefore 0 (Nat.zero_le _))
        have hlater := ih cursor.next hcount fun earlier hearlier =>
          hbefore (earlier + 1) (Nat.succ_le_succ hearlier)
        rw [headerContains_step, if_neg hopen, hlater, Bool.or_true]

/-- A cursor's answers are those of an index into its row of tokens: to look further ahead
than `largest`, which no index exceeds, is to look there. -/
structure Indexed (cursor : Cursor) : Prop where
  position_lt : cursor.position < cursor.tokens.length
  current : cursor.tokens[cursor.position]? = some cursor.current
  previous : cursor.tokens[cursor.position - 1]? = some cursor.previous
  kindAt : ∀ largest offset, cursor.tokens.length ≤ largest → cursor.kindAt offset =
    (cursor.tokens[min (cursor.position + offset) largest]?.map Token.kind).getD .eof
  headerContains : ∀ kind, cursor.headerContains kind =
    (((cursor.tokens.drop cursor.position).takeWhile
      fun token => token.kind ≠ .lbrace ∧ token.kind ≠ .eof).any (·.kind = kind))

theorem drop_tokens (cursor : Cursor) :
    cursor.tokens.drop cursor.position = cursor.ahead ++ [cursor.eof] := by
  rw [tokens, cursor.position_eq, ← List.length_reverse, List.append_assoc, List.drop_left]

theorem length_tokens (cursor : Cursor) :
    cursor.tokens.length = cursor.position + cursor.remaining + 1 := by
  rw [cursor.position_eq, cursor.remaining_eq]
  simp [tokens, Nat.add_assoc]

theorem getElem?_previous (cursor : Cursor) :
    cursor.tokens[cursor.position - 1]? = some cursor.previous := by
  cases hbehind : cursor.behind with
  | nil =>
      have hstart : cursor.position = 0 := by rw [cursor.position_eq, hbehind, List.length_nil]
      rw [hstart, Nat.zero_sub, ← hstart, getElem?_tokens, previous, hbehind]
      rfl
  | cons token rest =>
      have hplace : cursor.position - 1 = rest.reverse.length := by
        rw [cursor.position_eq, hbehind, List.length_cons, List.length_reverse,
          Nat.add_sub_cancel]
      rw [hplace, tokens, previous, hbehind]
      simp

theorem kindAt_eq_getElem? (cursor : Cursor) {largest : Nat} (offset : Nat)
    (hlargest : cursor.tokens.length ≤ largest) : cursor.kindAt offset =
      (cursor.tokens[min (cursor.position + offset) largest]?.map Token.kind).getD .eof := by
  have hlength := cursor.length_tokens
  by_cases hinside : offset < cursor.remaining
  · have hsmall : min (cursor.position + offset) largest = cursor.position + offset := by omega
    rw [cursor.remaining_eq] at hinside
    rw [hsmall, ← List.getElem?_drop, drop_tokens, List.getElem?_append_left hinside, kindAt]
  · have hpast : cursor.ahead[offset]? = none := by
      rw [List.getElem?_eq_none_iff, ← cursor.remaining_eq]
      omega
    rw [kindAt, hpast]
    by_cases hlast : offset = cursor.remaining
    · have hsmall : min (cursor.position + offset) largest = cursor.position + offset := by omega
      rw [hsmall, ← List.getElem?_drop, drop_tokens, hlast, cursor.remaining_eq,
        List.getElem?_concat_length, Option.map_some, cursor.eof_kind]
      rfl
    · have hbeyond : cursor.tokens[min (cursor.position + offset) largest]? = none := by
        rw [List.getElem?_eq_none_iff]
        omega
      rw [hbeyond]

theorem headerContains_eq_any (cursor : Cursor) (kind : Kind) : cursor.headerContains kind =
    (((cursor.tokens.drop cursor.position).takeWhile
      fun token => token.kind ≠ .lbrace ∧ token.kind ≠ .eof).any (·.kind = kind)) := by
  rw [headerContains, drop_tokens]
  have hplain := cursor.ahead_plain
  generalize cursor.ahead = ahead at hplain ⊢
  induction ahead with
  | nil => simp [cursor.eof_kind]
  | cons token rest ih =>
      rw [List.forall_mem_cons] at hplain
      by_cases hbrace : token.kind = .lbrace
      · simp [hbrace]
      · have hhere : token.kind ≠ .eof := hplain.1.2
        rw [List.cons_append, List.takeWhile_cons_of_pos (by simpa using hbrace),
          List.takeWhile_cons_of_pos (by simpa using ⟨hbrace, hhere⟩), List.any_cons,
          List.any_cons, ih hplain.2]

theorem indexed (cursor : Cursor) : cursor.Indexed where
  position_lt := by
    rw [length_tokens]
    omega
  current := cursor.getElem?_tokens
  previous := cursor.getElem?_previous
  kindAt _ offset hlargest := cursor.kindAt_eq_getElem? offset hlargest
  headerContains := cursor.headerContains_eq_any

theorem terminated_tokens (cursor : Cursor) : Terminated cursor.tokens where
  no_comment := by
    intro token htoken
    rw [tokens, List.mem_append, List.mem_append, List.mem_reverse, List.mem_singleton] at htoken
    rcases htoken with (hbehind | hahead) | rfl
    · exact (cursor.behind_plain token hbehind).1
    · exact (cursor.ahead_plain token hahead).1
    · simp [cursor.eof_kind]
  eof_last := by
    refine ⟨cursor.behind.reverse ++ cursor.ahead, cursor.eof, rfl, cursor.eof_kind, ?_⟩
    intro token htoken
    rw [List.mem_append, List.mem_reverse] at htoken
    rcases htoken with hbehind | hahead
    · exact (cursor.behind_plain token hbehind).2
    · exact (cursor.ahead_plain token hahead).2

/-- Behind every list of calls on the cursor at the head of any list of tokens: the row of
tokens is as it was, free of comments and closed by its only end-of-file token; the place is
one in the row and will never be an earlier one; the kind `offset` places ahead is the one
seen after as many calls of `next`; the scan of a header finds a kind if and only if reading
on comes to it before an opening brace and before the end of the file; and the token read
last is the one handed back by the last call of `next` that moved the cursor. -/
theorem lookahead_agrees (tokens : List Token) (calls : List Call) :
    let start := ofTokens tokens
    let here := start.afterAll calls
    (here.tokens = start.tokens ∧ Terminated start.tokens) ∧
    (here.Indexed ∧ ∀ more, here.position ≤ (start.afterAll (calls ++ more)).position) ∧
    (∀ offset, here.kindAt offset = (next^[offset] here).kind) ∧
    (∀ kind, here.headerContains kind ↔
      ∃ count, (next^[count] here).kind = kind ∧ ∀ earlier ≤ count,
        (next^[earlier] here).kind ≠ .lbrace ∧ (next^[earlier] here).kind ≠ .eof) ∧
    here.previous = (start.takenBy calls).getLast?.getD here.current := by
  intro start here
  have hreads : start.Reads (start.takenBy calls) here := reads_takenBy calls start
  refine ⟨⟨hreads.tokens, start.terminated_tokens⟩, ⟨here.indexed, fun more => ?_⟩,
    here.kindAt_eq_kind_iterate, here.headerContains_iff, previous_afterAll rfl calls⟩
  have happend : start.afterAll (calls ++ more) = here.afterAll more :=
    List.foldl_append
  rw [happend]
  exact here.position_le_afterAll more

end Cursor

end OriSyntax
