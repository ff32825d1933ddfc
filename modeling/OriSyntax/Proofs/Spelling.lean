import OriSyntax.Proofs.Scanning

/-!
A text reads as its tokens.  Each token stands at the place it names, the text reads there
as the token's value, and between two tokens there is nothing but blanks and line breaks.
-/

namespace OriSyntax.Source

/-- Characters that leave no token. -/
def isSpace (c : Char) : Bool := Lexeme.isBlank c || c = '\n'

/-- What a text has behind its last line feed. -/
def lastLine (text : List Char) : List Char :=
  (text.reverse.takeWhile (· ≠ '\n')).reverse

/-- The place of the character that follows `before`: the lines are counted by their line
feeds, the column by the bytes of the line so far. -/
def placeAfter (before : List Char) : Position :=
  ⟨1 + before.count '\n', 1 + Lexeme.byteLength (lastLine before)⟩

theorem lastLine_append {more : List Char} (hmore : '\n' ∉ more) (before : List Char) :
    lastLine (before ++ more) = lastLine before ++ more := by
  have hall : ∀ c ∈ more.reverse, decide (c ≠ '\n') = true := by
    intro c hc
    have hne : c ≠ '\n' := fun heq => hmore (heq ▸ List.mem_reverse.1 hc)
    simpa using hne
  rw [lastLine, List.reverse_append, List.takeWhile_append_of_pos hall, List.reverse_append,
    List.reverse_reverse, lastLine]

theorem placeAfter_append {more : List Char} (hmore : '\n' ∉ more) (before : List Char) :
    placeAfter (before ++ more) =
      ⟨(placeAfter before).line, (placeAfter before).column + Lexeme.byteLength more⟩ := by
  rw [placeAfter, lastLine_append hmore, List.count_append,
    List.count_eq_zero_of_not_mem hmore, Lexeme.byteLength_append, Nat.add_zero,
    ← Nat.add_assoc]
  rfl

theorem placeAfter_newline (before : List Char) :
    placeAfter (before ++ ['\n']) = ⟨(placeAfter before).line + 1, 1⟩ := by
  simp [placeAfter, lastLine, Nat.add_assoc]

theorem placeAfter_lt_append_singleton (before : List Char) (c : Char) :
    placeAfter before < placeAfter (before ++ [c]) := by
  by_cases hc : c = '\n'
  · subst hc
    rw [placeAfter_newline, Position.lt_def]
    exact .inl (Nat.lt_succ_self _)
  · have hmore : '\n' ∉ [c] := by simpa using Ne.symm hc
    rw [placeAfter_append hmore, Position.lt_def, Lexeme.byteLength_cons,
      Lexeme.byteLength_nil]
    exact .inr ⟨rfl, Nat.lt_add_of_pos_right (Nat.add_pos_left c.utf8Size_pos 0)⟩

/-- What follows in a text stands at a later place. -/
theorem placeAfter_lt_append {more : List Char} (hmore : more ≠ []) (before : List Char) :
    placeAfter before < placeAfter (before ++ more) := by
  induction more generalizing before with
  | nil => exact absurd rfl hmore
  | cons c rest ih =>
      have hstep := placeAfter_lt_append_singleton before c
      rw [List.append_cons]
      by_cases hrest : rest = []
      · rwa [hrest, List.append_nil]
      · have hlater := ih hrest (before ++ [c])
        rw [Position.lt_def] at hstep hlater ⊢
        omega

/-- The text behind `before` reads as the given tokens, the last of which marks its end.
Every other token stands at its place and is followed by the text behind its value; spaces
between the tokens are passed over. -/
inductive Spells : List Char → List Token → List Char → Prop where
  | finish {before : List Char} {eof : Token} (hkind : eof.kind = .eof)
      (hvalue : eof.value = "") (hplace : eof.position = placeAfter before) :
      Spells before [eof] []
  | space {before rest : List Char} {tokens : List Token} {c : Char} (hspace : isSpace c)
      (hrest : Spells (before ++ [c]) tokens rest) : Spells before tokens (c :: rest)
  | token {before rest : List Char} {tokens : List Token} {token : Token}
      (hkind : token.kind ≠ .eof) (hvalue : token.value ≠ "")
      (hplace : token.position = placeAfter before)
      (hrest : Spells (before ++ token.value.toList) tokens rest) :
      Spells before (token :: tokens) (token.value.toList ++ rest)

namespace Spells

variable {before text : List Char} {tokens : List Token}

theorem spaces {gap : List Char} (hgap : ∀ c ∈ gap, isSpace c)
    (hrest : Spells (before ++ gap) tokens text) : Spells before tokens (gap ++ text) := by
  induction gap generalizing before with
  | nil => simpa using hrest
  | cons c rest ih =>
      apply space (hgap c List.mem_cons_self)
      apply ih fun d hd => hgap d (List.mem_cons_of_mem c hd)
      simpa using hrest

/-- Tokens stand at increasing places, none of them ahead of the text. -/
theorem increasing (hspells : Spells before tokens text) :
    (∀ token ∈ tokens, placeAfter before ≤ token.position) ∧
      tokens.Pairwise (·.position < ·.position) := by
  induction hspells with
  | finish hkind hvalue hplace =>
      constructor
      · intro token htoken
        rw [List.mem_singleton.1 htoken, hplace, Position.le_def]
        exact .inr ⟨rfl, Nat.le_refl _⟩
      · exact List.pairwise_singleton _ _
  | @space before rest tokens c hspace hrest ih =>
      refine ⟨?_, ih.2⟩
      intro token htoken
      have hstep := placeAfter_lt_append_singleton before c
      have hlater := ih.1 token htoken
      rw [Position.lt_def] at hstep
      rw [Position.le_def] at hlater ⊢
      omega
  | @token before rest tokens token hkind hvalue hplace hrest ih =>
      have hstep : placeAfter before < placeAfter (before ++ token.value.toList) :=
        placeAfter_lt_append (by simpa using hvalue) before
      have hlater : ∀ other ∈ tokens, placeAfter before < other.position := by
        intro other hother
        have hle := ih.1 other hother
        rw [Position.le_def] at hle
        rw [Position.lt_def] at hstep ⊢
        omega
      constructor
      · intro other hother
        rcases List.mem_cons.1 hother with rfl | hother
        · rw [hplace, Position.le_def]
          exact .inr ⟨rfl, Nat.le_refl _⟩
        · have hlt := hlater other hother
          rw [Position.lt_def] at hlt
          rw [Position.le_def]
          omega
      · rw [List.pairwise_cons, hplace]
        exact ⟨hlater, ih.2⟩

/-- Only the last token marks the end of the text, and it stands there. -/
theorem ends (hspells : Spells before tokens text) :
    ∃ front eof, tokens = front ++ [eof] ∧ eof.kind = .eof ∧
      eof.position = placeAfter (before ++ text) ∧ ∀ token ∈ front, token.kind ≠ .eof := by
  induction hspells with
  | @finish before eof hkind hvalue hplace =>
      exact ⟨[], eof, rfl, hkind, by simpa using hplace, by simp⟩
  | space hspace hrest ih => simpa using ih
  | @token before rest tokens token hkind hvalue hplace hrest ih =>
      obtain ⟨front, eof, rfl, heof, hend, hfront⟩ := ih
      refine ⟨token :: front, eof, rfl, heof, by simpa using hend, ?_⟩
      intro other hother
      rcases List.mem_cons.1 hother with rfl | hother
      · exact hkind
      · exact hfront other hother

/-- Each token is found in the text at the place it names. -/
theorem found (hspells : Spells before tokens text) {token : Token} (htoken : token ∈ tokens) :
    ∃ front back, text = front ++ token.value.toList ++ back ∧
      token.position = placeAfter (before ++ front) := by
  induction hspells with
  | finish hkind hvalue hplace =>
      rw [List.mem_singleton.1 htoken]
      exact ⟨[], [], by simp [hvalue], by simpa using hplace⟩
  | @space before rest tokens c hspace hrest ih =>
      obtain ⟨front, back, htext, hplace⟩ := ih htoken
      exact ⟨c :: front, back, by simp [htext], by simpa using hplace⟩
  | @token before rest tokens first hkind hvalue hplace hrest ih =>
      rcases List.mem_cons.1 htoken with rfl | htoken
      · exact ⟨[], rest, rfl, by simpa using hplace⟩
      · obtain ⟨front, back, htext, hplace⟩ := ih htoken
        refine ⟨first.value.toList ++ front, back, ?_, by simpa using hplace⟩
        rw [htext]
        simp

end Spells

theorem column_eq {before : Nat} (hfits : before < maxCoordinate) :
    column before = before + 1 := Nat.min_eq_left hfits

/-- The tokens of a line are what the line reads as. -/
theorem lineTokens_spell {line consumed : Nat} {before input rest : List Char}
    {tokens : List Token} (hplace : placeAfter before = ⟨line, consumed + 1⟩)
    (hline : '\n' ∉ input) (hfits : consumed + Lexeme.byteLength input < maxCoordinate)
    (hrest : Spells (before ++ input) tokens rest) :
    Spells before (lineTokens line consumed input ++ tokens) (input ++ rest) := by
  induction consumed, input using lineTokens.induct generalizing before with
  | case1 consumed => simpa using hrest
  | case2 consumed c more hblank ih =>
      rw [List.mem_cons, not_or] at hline
      have hc : '\n' ∉ [c] := by simpa using hline.1
      rw [Lexeme.byteLength_cons] at hfits
      rw [lineTokens_blank _ _ hblank]
      apply Spells.space (by simp [isSpace, hblank])
      apply ih
      · rw [placeAfter_append hc, hplace]
        simp
        omega
      · exact hline.2
      · omega
      · simpa using hrest
  | case3 consumed c more hblank ih =>
      obtain ⟨others, cut, hvalue, htext, hcut⟩ := Lexeme.exists_value_append hline
      have hwhole := Lexeme.head_append_tail c more
      have hbytes := congrArg Lexeme.byteLength hwhole
      rw [Lexeme.byteLength_append] at hbytes
      rw [← hwhole, List.mem_append, not_or] at hline
      have hinput : c :: more ++ rest = (Lexeme.head c more).value.toList ++
          (cut ++ (Lexeme.tail c more ++ rest)) := by
        rw [← hwhole, htext, hvalue]
        simp
      have hbehind : before ++ (Lexeme.head c more).value.toList ++ cut =
          before ++ (Lexeme.head c more).text := by
        rw [htext, hvalue, List.append_assoc]
      rw [lineTokens_lexeme _ _ hblank, List.cons_append, hinput]
      apply Spells.token
      · exact Lexeme.head_kind_ne_eof c more
      · intro hempty
        rw [show (Lexeme.head c more).value = "" from hempty] at hvalue
        exact List.cons_ne_nil _ _ hvalue.symm
      · rw [hplace, Token.position, column_eq (by omega)]
      · apply Spells.spaces
        · rcases hcut with rfl | ⟨rfl, -⟩
          · simp
          · simp [isSpace, Lexeme.isBlank]
        · rw [hbehind]
          apply ih
          · rw [placeAfter_append hline.1, hplace]
            simp
            omega
          · exact hline.2
          · omega
          · rwa [List.append_assoc, hwhole]

/-- The tokens of a text are what the text reads as. -/
theorem tokensFrom_spell {line : Nat} {before text : List Char}
    (hplace : placeAfter before = ⟨line, 1⟩)
    (hfits : Lexeme.byteLength text < maxCoordinate) :
    Spells before (tokensFrom line text) text := by
  induction text using lines_induction generalizing line before with
  | last last hlast =>
      rw [tokensFrom_last line hlast]
      have hend : Spells (before ++ last)
          [⟨.eof, "", line, column (Lexeme.byteLength last)⟩] [] := by
        apply Spells.finish rfl rfl
        rw [placeAfter_append hlast, hplace, Token.position, column_eq hfits, Nat.add_comm]
      simpa using lineTokens_spell hplace hlast (by simpa using hfits) hend
  | line first rest hfirst ih =>
      rw [Lexeme.byteLength_append, Lexeme.byteLength_cons] at hfits
      rw [tokensFrom_line line hfirst]
      apply lineTokens_spell hplace hfirst (by omega)
      apply Spells.space (by decide)
      apply ih
      · rw [placeAfter_newline, placeAfter_append hfirst, hplace]
      · omega

theorem byteLength_toList (source : String) :
    Lexeme.byteLength source.toList = source.utf8ByteSize := by
  have hlist : ∀ text : List Char, Lexeme.byteLength text = String.utf8Len text := by
    intro text
    induction text with
    | nil => rfl
    | cons c rest ih => rw [Lexeme.byteLength_cons, String.utf8Len_cons, ih, Nat.add_comm]
  rw [hlist, ← String.utf8ByteSize_ofList, String.ofList_toList]

/-- A source that is not too long for its columns reads as its tokens: each of them is found
at its place, the places increase, and one end-of-file token, the last, marks the end. -/
theorem tokens_spell (source : String) (hsize : source.utf8ByteSize < 2 ^ 32 - 1) :
    Spells [] (tokens source) source.toList ∧
      (tokens source).Pairwise (·.position < ·.position) ∧
      (∀ token ∈ tokens source, ∃ before after,
        source.toList = before ++ token.value.toList ++ after ∧
        token.position = placeAfter before) ∧
      ∃ front eof, tokens source = front ++ [eof] ∧ eof.kind = .eof ∧
        eof.position = placeAfter source.toList ∧ ∀ token ∈ front, token.kind ≠ .eof := by
  have hspells : Spells [] (tokens source) source.toList := by
    apply tokensFrom_spell rfl
    rw [byteLength_toList]
    exact hsize
  exact ⟨hspells, hspells.increasing.2, fun _ htoken => hspells.found htoken, hspells.ends⟩

/-- A comment at the end of a line keeps its carriage return out of its value. -/
theorem tokens_spell_commentLine :
    "é = 1 // one\r\n".utf8ByteSize < 2 ^ 32 - 1 ∧
      tokens "é = 1 // one\r\n" =
        [⟨.illegal, "é", 1, 1⟩, ⟨.assign, "=", 1, 4⟩, ⟨.intLit, "1", 1, 6⟩,
          ⟨.comment, "// one", 1, 8⟩, ⟨.eof, "", 2, 1⟩] ∧
      Spells [] (tokens "é = 1 // one\r\n") "é = 1 // one\r\n".toList := by
  refine ⟨by decide, ?_, (tokens_spell _ (by decide)).1⟩
  decide +kernel

end OriSyntax.Source
