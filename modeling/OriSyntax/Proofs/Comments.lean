import OriSyntax.Proofs.Reading
import OriSyntax.Proofs.Spelling
import OriSyntax.Grammar.File

/-!
Comments are invisible to the parser.  Without its comments a text has the same tokens but
for those of the comments, and the parser passes over these anyway.
-/

namespace OriSyntax

/-- A text that ends, or goes on with a slash or a carriage return: none of these goes on a
number, a word or a symbol. -/
def Stops (text : List Char) : Prop := ∀ c ∈ text.head?, c = '/' ∨ c = '\r'

namespace Number

theorem reachFrom_inner (taken : Nat) {c : Char} (hinner : isInner c) (rest : List Char) :
    reachFrom taken (c :: rest) = reachFrom (taken + 1) rest := by
  rw [reachFrom.eq_def]
  simp [hinner]

theorem reachFrom_other (taken : Nat) {c : Char} (hinner : ¬ isInner c) (hcomma : c ≠ ',')
    (rest : List Char) : reachFrom taken (c :: rest) = taken := by
  rw [reachFrom.eq_def]
  simp [hinner, hcomma]

theorem reachFrom_comma (taken : Nat) (rest : List Char) :
    reachFrom taken (',' :: rest) =
      match rest with
      | digit :: after => if digit.isDigit then reachFrom (taken + 2) after else taken
      | [] => taken := by
  rw [reachFrom.eq_def]
  cases rest with
  | nil => rfl
  | cons digit after => simp [isInner]

theorem reachFrom_of_stops (taken : Nat) {stop : List Char} (hstop : Stops stop) :
    reachFrom taken stop = taken := by
  cases stop with
  | nil => rw [reachFrom]
  | cons c rest =>
      rcases hstop c rfl with rfl | rfl
      · exact reachFrom_other taken (by decide) (by decide) rest
      · exact reachFrom_other taken (by decide) (by decide) rest

theorem reachFrom_append (taken : Nat) (front : List Char) {stop : List Char}
    (hstop : Stops stop) : reachFrom taken (front ++ stop) = reachFrom taken front := by
  fun_induction reachFrom taken front with
  | case1 taken => exact reachFrom_of_stops taken hstop
  | case2 taken c rest hinner ih => rw [List.cons_append, reachFrom_inner _ hinner, ih]
  | case3 taken digit after hdigit _ ih =>
      rw [List.cons_append, reachFrom_comma, List.cons_append]
      simpa [hdigit] using ih
  | case4 taken digit after hdigit =>
      rw [List.cons_append, reachFrom_comma, List.cons_append]
      simp [hdigit]
  | case5 taken =>
      rw [List.cons_append, List.nil_append, reachFrom_comma]
      cases stop with
      | nil => rfl
      | cons c rest => rcases hstop c rfl with rfl | rfl <;> rfl
  | case6 taken c rest hinner hcomma =>
      rw [List.cons_append, reachFrom_other _ hinner hcomma]

theorem reach_append {front stop : List Char} (hfront : front ≠ []) (hstop : Stops stop) :
    reach (front ++ stop) = reach front := by
  cases front with
  | nil => exact absurd rfl hfront
  | cons c rest =>
      simp only [List.cons_append, reach, reachFrom_append _ _ hstop]
      cases rest with
      | cons digit after => simp [reachFrom_append _ _ hstop]
      | nil =>
          cases stop with
          | nil => rfl
          | cons d after => rcases hstop d rfl with rfl | rfl <;> simp [Char.isDigit]

end Number

namespace Pattern

/-- No symbol has a slash or a carriage return behind its first character. -/
theorem tail_of_symbol {kind : Kind} (hkind : kind ∈ Kind.symbols) {text : String}
    (hspelling : kind.spelling = some text) :
    ∀ c ∈ text.toList.tail, c ≠ '/' ∧ c ≠ '\r' := by
  have hall : ∀ kind ∈ Kind.symbols, ∀ text ∈ kind.spelling,
      '/' ∉ text.toList.tail ∧ '\r' ∉ text.toList.tail := by
    decide +kernel
  obtain ⟨hslash, hreturn⟩ := hall kind hkind text hspelling
  exact fun c hc => ⟨ne_of_mem_of_not_mem hc hslash, ne_of_mem_of_not_mem hc hreturn⟩

theorem isPrefixOf_append {text front stop : List Char} (hfront : front ≠ [])
    (htext : ∀ c ∈ text.tail, c ≠ '/' ∧ c ≠ '\r') (hstop : Stops stop) :
    text.isPrefixOf (front ++ stop) = text.isPrefixOf front := by
  induction front generalizing text with
  | nil => exact absurd rfl hfront
  | cons c rest ih =>
      cases text with
      | nil => rfl
      | cons d more =>
          rw [List.cons_append, List.isPrefixOf_cons_cons, List.isPrefixOf_cons_cons]
          by_cases hrest : rest = []
          · subst hrest
            cases more with
            | nil => simp
            | cons e others =>
                have he := htext e (by simp)
                cases stop with
                | nil => rfl
                | cons s after =>
                    have hne : e ≠ s := by
                      rcases hstop s rfl with rfl | rfl
                      · exact he.1
                      · exact he.2
                    simp [List.isPrefixOf_cons_cons, hne]
          · have hmore : ∀ e ∈ more.tail, e ≠ '/' ∧ e ≠ '\r' :=
              fun e he => htext e (List.mem_of_mem_tail he)
            rw [ih hrest hmore]

theorem takeWhile_append_of_stops (front : List Char) {stop : List Char}
    (hstop : Stops stop) :
    (front ++ stop).takeWhile isWordPart = front.takeWhile isWordPart := by
  have hnone : stop.takeWhile isWordPart = [] := by
    cases stop with
    | nil => rfl
    | cons c rest => rcases hstop c rfl with rfl | rfl <;> rfl
  rw [List.takeWhile_append, hnone, List.append_nil]
  split
  · next hall => exact (List.takeWhile_sublist isWordPart).eq_of_length hall |>.symm
  · rfl

/-- Where a pattern of characters ends within a text. -/
theorem exists_end_of_not_all {part : Char → Bool} {text : List Char}
    (hend : ¬ ∀ c ∈ text, part c) :
    ∃ front c back, text = front ++ c :: back ∧ (∀ d ∈ front, part d) ∧ ¬ part c := by
  induction text with
  | nil => simp at hend
  | cons c rest ih =>
      by_cases hc : part c
      · have hrest : ¬ ∀ d ∈ rest, part d := by simpa [hc] using hend
        obtain ⟨front, d, back, rfl, hfront, hd⟩ := ih hrest
        exact ⟨c :: front, d, back, rfl, by simpa [hc] using hfront, hd⟩
      · exact ⟨[], c, rest, rfl, by simp, hc⟩

/-- A comment in a line takes up all of it. -/
theorem reach_comment_eq_zero_or {input : List Char} (hline : '\n' ∉ input) :
    comment.reach input = 0 ∨ comment.reach input = input.length := by
  by_cases hpos : 0 < comment.reach input
  · obtain ⟨rest, rfl, hreach⟩ := reach_comment_pos hpos
    have hwhole : rest.takeWhile (· ≠ '\n') = rest := by
      rw [List.takeWhile_eq_self_iff]
      intro c hc
      simp only [List.mem_cons, not_or] at hline
      simpa using fun heq : c = '\n' => hline.2.2 (heq ▸ hc)
    rw [hwhole] at hreach
    rw [hreach, List.length_cons, List.length_cons]
    omega
  · exact .inl (Nat.le_zero.1 (Nat.le_of_not_lt hpos))

section

variable {front more kept : List Char}

theorem reach_comment_append (hfront : front ≠ []) (hline : '\n' ∉ front ++ '/' :: '/' :: more)
    (hkept : kept = [] ∨ kept = ['\r'])
    (hreach : comment.reach (front ++ '/' :: '/' :: more) ≤ front.length) :
    comment.reach (front ++ kept) = 0 ∧ comment.reach (front ++ '/' :: '/' :: more) = 0 := by
  have hzero : comment.reach (front ++ '/' :: '/' :: more) = 0 := by
    rcases reach_comment_eq_zero_or hline with hzero | hall
    · exact hzero
    · rw [hall, List.length_append, List.length_cons] at hreach
      omega
  refine ⟨?_, hzero⟩
  by_contra hpos
  obtain ⟨rest, hslashes, _⟩ := reach_comment_pos (Nat.pos_of_ne_zero hpos)
  match front with
  | [] => exact hfront rfl
  | [c] => rcases hkept with rfl | rfl <;> simp at hslashes
  | c :: d :: others =>
      simp only [List.cons_append, List.cons.injEq] at hslashes
      obtain ⟨rfl, rfl, -⟩ := hslashes
      simp [reach] at hzero

theorem reach_openString_append
    (hreach : openString.reach ('"' :: front ++ '/' :: '/' :: more) ≤ front.length + 1) :
    openString.reach ('"' :: front ++ kept) =
      openString.reach ('"' :: front ++ '/' :: '/' :: more) := by
  simp only [List.cons_append, reach] at hreach ⊢
  by_cases hall : ∀ c ∈ front, isStringPart c
  · rw [List.takeWhile_append_of_pos hall] at hreach
    have hslash : isStringPart '/' = true := by decide
    simp [hslash] at hreach
    omega
  · obtain ⟨inside, c, back, rfl, hinside, hc⟩ := exists_end_of_not_all hall
    simp [List.takeWhile_append_of_pos hinside, hc]

theorem reach_string_append (hkept : kept = [] ∨ kept = ['\r'])
    (hreach : string.reach ('"' :: front ++ '/' :: '/' :: more) ≤ front.length + 1) :
    string.reach ('"' :: front ++ kept) =
      string.reach ('"' :: front ++ '/' :: '/' :: more) := by
  simp only [List.cons_append, reach] at hreach ⊢
  by_cases hall : ∀ c ∈ front, isStringPart c
  · have hopen : ((front ++ kept).dropWhile isStringPart).head? ≠ some '"' := by
      rw [List.dropWhile_append_of_pos hall]
      rcases hkept with rfl | rfl <;> decide
    rw [if_neg hopen, eq_comm, ite_eq_right_iff]
    intro hclosed
    rw [if_pos hclosed, List.takeWhile_append_of_pos hall, List.length_append] at hreach
    omega
  · obtain ⟨inside, c, back, rfl, hinside, hc⟩ := exists_end_of_not_all hall
    simp [List.takeWhile_append_of_pos hinside, List.dropWhile_append_of_pos hinside, hc]

/-- How far a pattern reaches into `front` does not depend on what stops it there: a
comment behind `front`, or what the line keeps of one. -/
theorem reach_append_eq {pattern : Pattern} (hmem : pattern ∈ all) (hfront : front ≠ [])
    (hline : '\n' ∉ front ++ '/' :: '/' :: more) (hkept : kept = [] ∨ kept = ['\r'])
    (hreach : pattern.reach (front ++ '/' :: '/' :: more) ≤ front.length) :
    pattern.reach (front ++ kept) = pattern.reach (front ++ '/' :: '/' :: more) := by
  have hstops : Stops kept := by rcases hkept with rfl | rfl <;> simp [Stops]
  have hcomment : Stops ('/' :: '/' :: more) := by simp [Stops]
  obtain ⟨c, rest, rfl⟩ := List.exists_cons_of_ne_nil hfront
  cases pattern with
  | symbol kind =>
      simp only [reach]
      cases hspelling : kind.spelling with
      | none => rfl
      | some text =>
          have htail := tail_of_symbol (symbol_mem_all hmem) hspelling
          simp only [isPrefixOf_append hfront htail hstops,
            isPrefixOf_append hfront htail hcomment]
  | number =>
      simp only [reach, Number.reach_append hfront hstops,
        Number.reach_append hfront hcomment]
  | word =>
      simp only [reach, List.cons_append, takeWhile_append_of_stops rest hstops,
        takeWhile_append_of_stops rest hcomment]
  | comment =>
      obtain ⟨hfirst, hsecond⟩ := reach_comment_append hfront hline hkept hreach
      rw [hfirst, hsecond]
  | string =>
      by_cases hquote : c = '"'
      · subst hquote
        exact reach_string_append hkept hreach
      · simp [reach, hquote]
  | openString =>
      by_cases hquote : c = '"'
      · subst hquote
        exact reach_openString_append hreach
      · simp [reach, hquote]

theorem furthest_append_eq (hfront : front ≠ []) (hline : '\n' ∉ front ++ '/' :: '/' :: more)
    (hkept : kept = [] ∨ kept = ['\r'])
    (hreach : ∀ pattern ∈ all, pattern.reach (front ++ '/' :: '/' :: more) ≤ front.length) :
    furthest (front ++ kept) = furthest (front ++ '/' :: '/' :: more) :=
  furthest_congr fun pattern hmem =>
    reach_append_eq hmem hfront hline hkept (hreach pattern hmem)

end

end Pattern

/-- A lexeme that stops short of a comment is the same without the comment. -/
theorem Lexeme.head_of_tail_eq {c : Char} {rest front more kept : List Char}
    (hline : '\n' ∉ c :: rest) (htail : tail c rest = front ++ '/' :: '/' :: more)
    (hkept : kept = [] ∨ kept = ['\r']) :
    ∃ inside, (head c rest).text = c :: inside ∧
      head c (inside ++ (front ++ kept)) = head c rest ∧
      tail c (inside ++ (front ++ kept)) = front ++ kept := by
  have hleads := Pattern.furthest_leads (c :: rest)
  cases hfurthest : Pattern.furthest (c :: rest) with
  | none =>
      have hrest : rest = front ++ '/' :: '/' :: more := by
        simpa [tail, hfurthest] using htail
      subst hrest
      have hsame : Pattern.furthest (c :: (front ++ kept)) = none := by
        rw [← hfurthest]
        apply Pattern.furthest_append_eq (List.cons_ne_nil c front) hline hkept
        intro pattern hmem
        have hbound := hleads.bound pattern hmem
        rw [hfurthest] at hbound
        exact Nat.le_trans hbound (Nat.zero_le _)
      exact ⟨[], by simp [head, hfurthest], by simp [head, hfurthest, hsame],
        by simp [tail, hsame]⟩
  | some best =>
      obtain ⟨pattern, length⟩ := best
      have hdrop : rest.drop (length - 1) = front ++ '/' :: '/' :: more := by
        simpa [tail, hfurthest] using htail
      obtain ⟨inside, hinside, hlength⟩ : ∃ inside,
          rest = inside ++ (front ++ '/' :: '/' :: more) ∧ inside.length = length - 1 := by
        refine ⟨rest.take (length - 1), by rw [← hdrop, List.take_append_drop], ?_⟩
        have hlong := congrArg List.length hdrop
        simp only [List.length_drop, List.length_append, List.length_cons] at hlong
        rw [List.length_take]
        omega
      subst hinside
      have hsame : Pattern.furthest (c :: (inside ++ (front ++ kept))) =
          some (pattern, length) := by
        rw [← hfurthest, ← List.append_assoc, ← List.append_assoc]
        apply Pattern.furthest_append_eq (List.cons_ne_nil c _)
        · simpa using hline
        · exact hkept
        · intro other hother
          have hbound := hleads.bound other hother
          rw [hfurthest] at hbound
          simp only [List.cons_append, List.append_assoc, Pattern.reachOf, Option.map_some,
            Option.getD_some, List.length_cons, List.length_append] at hbound ⊢
          omega
      exact ⟨inside, by simp [head, hfurthest, ← hlength],
        by simp [head, hfurthest, hsame, ← hlength], by simp [tail, hsame, ← hlength]⟩

namespace Source

/-- A line with a comment: the text `front` before it, the comment, and the carriage return
that may be cut off it.  The rest of the line reads the same without the comment. -/
structure Commented (line before : Nat) (input front cut : List Char) (comment : Token) :
    Prop where
  kind : comment.kind = .comment
  slashes : ∃ more, comment.value.toList = '/' :: '/' :: more
  cut_eq : cut = [] ∨ cut = ['\r']
  input_eq : input = front ++ (comment.value.toList ++ cut)
  front_plain : ∀ token ∈ lineTokens line before front, token.kind ≠ .comment
  tokens_eq : lineTokens line before input = lineTokens line before front ++ [comment]
  kept_eq : lineTokens line before (front ++ cut) = lineTokens line before front

theorem Commented.blank {line before : Nat} {c : Char} (hblank : Lexeme.isBlank c)
    {rest front cut : List Char} {comment : Token}
    (hrest : Commented line (before + c.utf8Size) rest front cut comment) :
    Commented line before (c :: rest) (c :: front) cut comment where
  kind := hrest.kind
  slashes := hrest.slashes
  cut_eq := hrest.cut_eq
  input_eq := by rw [hrest.input_eq, List.cons_append]
  front_plain := by
    rw [lineTokens_blank _ _ hblank]
    exact hrest.front_plain
  tokens_eq := by
    rw [lineTokens_blank _ _ hblank, lineTokens_blank _ _ hblank]
    exact hrest.tokens_eq
  kept_eq := by
    rw [List.cons_append, lineTokens_blank _ _ hblank, lineTokens_blank _ _ hblank]
    exact hrest.kept_eq

theorem Commented.lexeme {line before : Nat} {c : Char} (hblank : ¬ Lexeme.isBlank c)
    {rest front cut : List Char} {comment : Token} (hline : '\n' ∉ c :: rest)
    (hplain : (Lexeme.head c rest).kind ≠ .comment)
    (hrest : Commented line (before + Lexeme.byteLength (Lexeme.head c rest).text)
      (Lexeme.tail c rest) front cut comment) :
    Commented line before (c :: rest) ((Lexeme.head c rest).text ++ front) cut comment := by
  obtain ⟨more, hmore⟩ := hrest.slashes
  have htail : Lexeme.tail c rest = front ++ '/' :: '/' :: (more ++ cut) := by
    rw [hrest.input_eq, hmore]
    rfl
  have hswap : ∀ kept, kept = [] ∨ kept = ['\r'] →
      lineTokens line before ((Lexeme.head c rest).text ++ (front ++ kept)) =
        ⟨(Lexeme.head c rest).kind, (Lexeme.head c rest).value, line, column before⟩ ::
          lineTokens line (before + Lexeme.byteLength (Lexeme.head c rest).text)
            (front ++ kept) := by
    intro kept hkept
    obtain ⟨inside, htext, hhead, hbehind⟩ := Lexeme.head_of_tail_eq hline htail hkept
    rw [htext, List.cons_append, lineTokens_lexeme _ _ hblank, hhead, hbehind, htext]
  have hfront := hswap [] (.inl rfl)
  rw [List.append_nil] at hfront
  constructor
  · exact hrest.kind
  · exact hrest.slashes
  · exact hrest.cut_eq
  · rw [List.append_assoc, ← hrest.input_eq, Lexeme.head_append_tail]
  · rw [hfront]
    intro token htoken
    rcases List.mem_cons.1 htoken with rfl | htoken
    · exact hplain
    · exact hrest.front_plain token htoken
  · rw [hfront, lineTokens_lexeme _ _ hblank, hrest.tokens_eq, List.cons_append]
  · rw [List.append_assoc, hswap cut hrest.cut_eq, hrest.kept_eq, hfront]

theorem Commented.whole (line before : Nat) {c : Char} (hblank : ¬ Lexeme.isBlank c)
    {rest : List Char} (hline : '\n' ∉ c :: rest)
    (hcomment : (Lexeme.head c rest).kind = .comment) :
    ∃ cut comment, Commented line before (c :: rest) [] cut comment := by
  obtain ⟨more, rfl, rfl, htext, htail⟩ := Lexeme.head_of_comment hline hcomment
  obtain ⟨others, cut, hvalue, hwhole, hcut⟩ := Lexeme.exists_value_append hline
  have hcut : cut = [] ∨ cut = ['\r'] := hcut.imp_right And.left
  rw [htext] at hwhole
  have hslash : ∃ more, others = '/' :: more := by
    cases others with
    | nil => rcases hcut with rfl | rfl <;> simp at hwhole
    | cons d inside =>
        simp only [List.cons_append, List.cons.injEq] at hwhole
        exact ⟨inside, by rw [hwhole.2.1]⟩
  obtain ⟨inside, rfl⟩ := hslash
  refine ⟨cut, ⟨.comment, (Lexeme.head '/' ('/' :: more)).value, line, column before⟩, ?_⟩
  constructor
  · rfl
  · exact ⟨inside, hvalue⟩
  · exact hcut
  · rw [hvalue, List.nil_append, hwhole]
  · simp
  · rw [lineTokens_lexeme _ _ hblank, hcomment, htail, lineTokens_nil, lineTokens_nil]
    rfl
  · rcases hcut with rfl | rfl
    · rfl
    · rw [List.nil_append, lineTokens_blank _ _ (by decide), lineTokens_nil, lineTokens_nil]

/-- A line holds no comment, or one at its end. -/
theorem lineTokens_cases (line before : Nat) {input : List Char} (hline : '\n' ∉ input) :
    (∀ token ∈ lineTokens line before input, token.kind ≠ .comment) ∨
      ∃ front cut comment, Commented line before input front cut comment := by
  induction before, input using lineTokens.induct with
  | case1 before => simp
  | case2 before c rest hblank ih =>
      rw [List.mem_cons, not_or] at hline
      rcases ih hline.2 with hnone | ⟨front, cut, comment, hrest⟩
      · rw [lineTokens_blank _ _ hblank]
        exact .inl hnone
      · exact .inr ⟨c :: front, cut, comment, hrest.blank hblank⟩
  | case3 before c rest hblank ih =>
      by_cases hcomment : (Lexeme.head c rest).kind = .comment
      · exact .inr ⟨[], Commented.whole line before hblank hline hcomment⟩
      · have htailLine : '\n' ∉ Lexeme.tail c rest := by
          rw [← Lexeme.head_append_tail c rest, List.mem_append, not_or] at hline
          exact hline.2
        rcases ih htailLine with hnone | ⟨front, cut, comment, hrest⟩
        · refine .inl ?_
          rw [lineTokens_lexeme _ _ hblank]
          intro token htoken
          rcases List.mem_cons.1 htoken with rfl | htoken
          · exact hcomment
          · exact hnone token htoken
        · exact .inr ⟨_, cut, comment, hrest.lexeme hblank hline hcomment⟩

/-- The text that reads as the given tokens, without those that are comments.  What stands
between the tokens is kept. -/
def eraseComments : List Token → List Char → List Char
  | [], text => text
  | token :: rest, text =>
      let found := text.dropWhile isSpace
      text.takeWhile isSpace ++
        ((if token.kind = .comment then [] else found.take token.value.length) ++
          eraseComments rest (found.drop token.value.length))

/-- A source text without its comments. -/
def withoutComments (source : String) : String :=
  String.ofList (eraseComments (tokens source) source.toList)

theorem eraseComments_space {c : Char} (hspace : isSpace c) (tokens : List Token)
    (text : List Char) : eraseComments tokens (c :: text) = c :: eraseComments tokens text := by
  cases tokens with
  | nil => rfl
  | cons token rest => simp [eraseComments, hspace]

theorem eraseComments_token (token : Token) {c : Char} {more : List Char}
    (hvalue : token.value.toList = c :: more) (hspace : ¬ isSpace c) (tokens : List Token)
    (text : List Char) :
    eraseComments (token :: tokens) (token.value.toList ++ text) =
      (if token.kind = .comment then [] else token.value.toList) ++
        eraseComments tokens text := by
  have hfound : (token.value.toList ++ text).dropWhile isSpace =
      token.value.toList ++ text := by
    simp [hvalue, hspace]
  have hgap : (token.value.toList ++ text).takeWhile isSpace = [] := by
    simp [hvalue, hspace]
  rw [eraseComments, hfound, hgap, ← String.length_toList, List.nil_append,
    List.take_left, List.drop_left]

theorem not_isSpace {c : Char} (hblank : ¬ Lexeme.isBlank c) (hne : c ≠ '\n') :
    ¬ isSpace c := by
  simp [isSpace, hblank, hne]

/-- A line without a comment is kept as it is. -/
theorem eraseComments_line (line before : Nat) {input : List Char} (hline : '\n' ∉ input)
    (hplain : ∀ token ∈ lineTokens line before input, token.kind ≠ .comment)
    (tokens : List Token) (text : List Char) :
    eraseComments (lineTokens line before input ++ tokens) (input ++ text) =
      input ++ eraseComments tokens text := by
  induction before, input using lineTokens.induct with
  | case1 before => simp
  | case2 before c rest hblank ih =>
      rw [List.mem_cons, not_or] at hline
      rw [lineTokens_blank _ _ hblank] at hplain ⊢
      rw [List.cons_append, eraseComments_space (by simp [isSpace, hblank]),
        ih hline.2 hplain, List.cons_append]
  | case3 before c rest hblank ih =>
      rw [lineTokens_lexeme _ _ hblank] at hplain ⊢
      obtain ⟨hkind, hothers⟩ := List.forall_mem_cons.1 hplain
      obtain ⟨more, cut, hvalue, htext, hcut⟩ := Lexeme.exists_value_append hline
      have hcut : cut = [] := hcut.resolve_right fun hcut => hkind hcut.2
      rw [hcut, List.append_nil, ← hvalue] at htext
      have hwhole := Lexeme.head_append_tail c rest
      have htail : '\n' ∉ Lexeme.tail c rest := by
        rw [← hwhole, List.mem_append, not_or] at hline
        exact hline.2
      have hspace : ¬ isSpace c := by
        rw [List.mem_cons, not_or] at hline
        exact not_isSpace hblank (Ne.symm hline.1)
      have hfirst := eraseComments_token ⟨(Lexeme.head c rest).kind,
        (Lexeme.head c rest).value, line, column before⟩ hvalue hspace
      rw [htext] at hwhole
      rw [← hwhole, List.append_assoc, List.append_assoc, List.cons_append,
        ← ih htail hothers, hfirst, if_neg hkind]

/-- Of a line with a comment all is kept but the comment. -/
theorem Commented.eraseComments_eq {line : Nat} {input front cut : List Char}
    {comment : Token} (hinput : Commented line 0 input front cut comment)
    (hline : '\n' ∉ input) (tokens : List Token) (text : List Char) :
    eraseComments (lineTokens line 0 input ++ tokens) (input ++ text) =
      front ++ cut ++ eraseComments tokens text := by
  obtain ⟨more, hvalue⟩ := hinput.slashes
  have hspaces : eraseComments tokens (cut ++ text) = cut ++ eraseComments tokens text := by
    rcases hinput.cut_eq with rfl | rfl
    · rfl
    · exact eraseComments_space (by decide) tokens text
  rw [hinput.input_eq, List.mem_append, not_or] at hline
  rw [hinput.tokens_eq, List.append_assoc]
  conv_lhs => rw [hinput.input_eq, List.append_assoc]
  rw [eraseComments_line line 0 hline.1 hinput.front_plain, List.singleton_append,
    List.append_assoc, eraseComments_token comment hvalue (by decide), if_pos hinput.kind,
    List.nil_append, hspaces, List.append_assoc]

/-- Without its comments a text has the tokens that are no comments, at their places. -/
theorem tokensFrom_eraseComments (line : Nat) {text : List Char}
    (hend : ∀ c ∈ text.getLast?, c = '\n') :
    tokensFrom line (eraseComments (tokensFrom line text) text) =
      (tokensFrom line text).filter (·.kind ≠ .comment) := by
  induction text using lines_induction generalizing line with
  | last last hlast =>
      have hempty : last = [] := by
        by_contra hne
        have hmem := List.getLast_mem hne
        rw [hend _ (List.getLast?_eq_some_getLast hne)] at hmem
        exact hlast hmem
      subst hempty
      rw [tokensFrom_last line hlast]
      simp [eraseComments, tokensFrom_last line hlast]
  | line first rest hfirst ih =>
      have hrest : ∀ c ∈ rest.getLast?, c = '\n' := by
        intro c hc
        apply hend
        cases rest with
        | nil => simp at hc
        | cons d more => simpa using hc
      have hnewline := eraseComments_space (c := '\n') (by decide)
        (tokensFrom (line + 1) rest) rest
      rw [tokensFrom_line line hfirst, List.filter_append]
      rcases lineTokens_cases line 0 hfirst with hplain | ⟨front, cut, comment, hinput⟩
      · have hfilter : (lineTokens line 0 first).filter (·.kind ≠ .comment) =
            lineTokens line 0 first := by
          rw [List.filter_eq_self]
          simpa using hplain
        rw [eraseComments_line line 0 hfirst hplain, hnewline, tokensFrom_line line hfirst,
          ih _ hrest, hfilter]
      · have hkept : '\n' ∉ front ++ cut := by
          intro hmem
          apply hfirst
          rw [hinput.input_eq]
          rcases List.mem_append.1 hmem with hmem | hmem
          · exact List.mem_append_left _ hmem
          · exact List.mem_append_right _ (List.mem_append_right _ hmem)
        have hfilter : (lineTokens line 0 first).filter (·.kind ≠ .comment) =
            lineTokens line 0 front := by
          have hfront : (lineTokens line 0 front).filter (·.kind ≠ .comment) =
              lineTokens line 0 front := by
            rw [List.filter_eq_self]
            simpa using hinput.front_plain
          rw [hinput.tokens_eq, List.filter_append, hfront]
          simp [hinput.kind]
        rw [hinput.eraseComments_eq hfirst, hnewline, tokensFrom_line line hkept,
          ih _ hrest, hfilter, hinput.kept_eq]

theorem tokens_withoutComments {source : String} (hend : source.toList.getLast? = some '\n') :
    tokens (withoutComments source) = (tokens source).filter (·.kind ≠ .comment) := by
  rw [tokens_eq, withoutComments, String.toList_ofList, tokens_eq]
  apply tokensFrom_eraseComments
  intro c hc
  rw [hend] at hc
  exact (Option.some.inj hc).symm

end Source

theorem Cursor.ofTokens_congr {first second : List Token}
    (hcode : first.filter (·.kind ≠ .comment) = second.filter (·.kind ≠ .comment)) :
    ofTokens first = ofTokens second := by
  apply eq_of_lists
  · rfl
  · simp only [ofTokens, hcode]
  · simp only [ofTokens, hcode]

/-- A reader sees nothing behind an end-of-file token. -/
theorem Cursor.ofTokens_append_eof {eof : Token} (heof : eof.kind = .eof)
    (before after : List Token) :
    ofTokens (before ++ eof :: after) = ofTokens (before ++ [eof]) := by
  have hcode : eof.kind ≠ .comment := by
    rw [heof]
    exact Kind.noConfusion
  have hfirst : (before ++ eof :: after).filter (·.kind ≠ .comment) =
      before.filter (·.kind ≠ .comment) ++ eof :: after.filter (·.kind ≠ .comment) := by
    rw [List.filter_append, List.filter_cons_of_pos (by simpa using hcode)]
  have hsecond : (before ++ [eof]).filter (·.kind ≠ .comment) =
      before.filter (·.kind ≠ .comment) ++ [eof] := by
    rw [List.filter_append, List.filter_cons_of_pos (by simpa using hcode), List.filter_nil]
  apply eq_of_lists
  · rfl
  · simp only [ofTokens, hfirst, hsecond, List.takeWhile_append]
    simp [heof]
  · simp only [ofTokens, hfirst, hsecond, List.find?_append]
    simp [heof]

/-- Comments leave no trace in what is read: not those of a source whose last line is empty,
nor those of a list of tokens; and neither do the tokens behind an end-of-file token. -/
theorem parse_ignores_comments :
    (∀ source : String, source.toList.getLast? = some '\n' →
      Source.parse (Source.withoutComments source) = Source.parse source) ∧
    (∀ tokens : List Token, parse (tokens.filter (·.kind ≠ .comment)) = parse tokens) ∧
    ∀ (before : List Token) (eof : Token) (after other : List Token), eof.kind = .eof →
      parse (before ++ eof :: after) = parse (before ++ eof :: other) := by
  have hfilter : ∀ tokens, parse (tokens.filter (·.kind ≠ .comment)) = parse tokens := by
    intro tokens
    have hcursor : Cursor.ofTokens (tokens.filter (·.kind ≠ .comment)) =
        Cursor.ofTokens tokens := by
      apply Cursor.ofTokens_congr
      rw [List.filter_filter]
      simp
    rw [parse, parse, hcursor]
  refine ⟨?_, hfilter, ?_⟩
  · intro source hend
    rw [Source.parse, Source.parse, Source.tokens_withoutComments hend, hfilter]
  · intro before eof after other heof
    rw [parse, parse, Cursor.ofTokens_append_eof heof before after,
      Cursor.ofTokens_append_eof heof before other]

/-- Slashes within a string begin no comment, the first two of three slashes do. -/
theorem parse_ignores_comments_slashes :
    Source.withoutComments "var s = \"//\" + 1 ///= 2\r\n" = "var s = \"//\" + 1 \r\n" ∧
      Source.parse "var s = \"//\" + 1 \r\n" =
        Source.parse "var s = \"//\" + 1 ///= 2\r\n" ∧
      parse ([⟨.semicolon, ";", 1, 1⟩] ++ ⟨.eof, "", 1, 2⟩ :: [⟨.rbrace, "\x7d", 2, 1⟩]) =
        parse ([⟨.semicolon, ";", 1, 1⟩] ++ ⟨.eof, "", 1, 2⟩ :: []) := by
  have htext : Source.withoutComments "var s = \"//\" + 1 ///= 2\r\n" =
      "var s = \"//\" + 1 \r\n" := by
    decide +kernel
  refine ⟨htext, ?_, parse_ignores_comments.2.2 _ _ _ _ rfl⟩
  rw [← parse_ignores_comments.1 "var s = \"//\" + 1 ///= 2\r\n" (by decide), htext]

end OriSyntax
