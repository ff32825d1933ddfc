import OriSyntax.Proofs.Relexing

/-!
Line endings do not matter.  A carriage return before a line feed is a blank behind most
lexemes; a comment takes it up, and its token does not show it.
-/

namespace OriSyntax

/-- A form that goes on over a carriage return is a comment. -/
theorem Pattern.eq_comment_of_return {pattern : Pattern} (hmem : pattern ∈ all)
    {text : List Char} (htext : text ∈ pattern.language) (hreturn : '\r' ∈ text) :
    pattern = .comment := by
  have hbody : ∀ body : List Char, (∀ c ∈ body, isStringPart c) → '\r' ∉ body :=
    fun body hbody hmem => absurd (hbody _ hmem) (by decide)
  rcases (of_isSpace_mem hmem htext hreturn (by decide)).2 with rfl | rfl | rfl
  · rfl
  · obtain ⟨body, hparts, rfl⟩ := mem_string.1 htext
    exact absurd (by simpa using hreturn) (hbody body hparts)
  · obtain ⟨body, hparts, rfl⟩ := mem_openString.1 htext
    exact absurd (by simpa using hreturn) (hbody body hparts)

namespace Lexeme

variable {c : Char} {rest : List Char}

/-- Anything but a comment is cut off before a carriage return as it is at the end. -/
theorem head_append_return (hcomment : (head c rest).kind ≠ .comment) :
    head c (rest ++ ['\r']) = head c rest ∧
      tail c (rest ++ ['\r']) = tail c rest ++ ['\r'] := by
  have hcut := head_cut c rest
  have hwithin : ∀ text ∈ Pattern.forms, text <+: c :: rest ++ ['\r'] → text <+: c :: rest := by
    rintro text ⟨pattern, hpattern, hform⟩ hstart
    rcases prefix_append_cases hstart with hstart | ⟨d, more, hd, rfl⟩
    · exact hstart
    · obtain rfl : '\r' = d := Option.some.inj hd
      obtain rfl := Pattern.eq_comment_of_return hpattern hform (by simp)
      obtain ⟨body, hbody, heq⟩ := Pattern.mem_comment.1 hform
      -- what stands before the return begins with both slashes, so it is a comment by itself
      obtain ⟨rfl, htail⟩ := List.cons.inj heq
      cases rest with
      | nil => exact absurd (List.cons.inj htail).1 (by decide)
      | cons second others =>
          obtain ⟨rfl, rfl⟩ := List.cons.inj htail
          have hwhole : '/' :: '/' :: others ∈ Pattern.comment.language :=
            Pattern.mem_comment.2 ⟨others, fun e he => hbody e (List.mem_append_left _ he), rfl⟩
          have hsame := hcut.unique (Cut.of_form hpattern hwhole rfl)
          exact absurd (congrArg Lexeme.kind hsame) hcomment
  have hhead : head c (rest ++ ['\r']) = head c rest :=
    (head_cut c (rest ++ ['\r'])).unique (hcut.append hwithin)
  refine ⟨hhead, ?_⟩
  have hwhole := head_append_tail c (rest ++ ['\r'])
  rw [hhead, ← List.cons_append, ← head_append_tail c rest, List.append_assoc,
    List.append_cancel_left_eq] at hwhole
  exact hwhole

/-- A comment takes up a carriage return behind it and does not show it. -/
theorem head_append_return_of_comment (hreturn : '\r' ∉ c :: rest) (hline : '\n' ∉ c :: rest)
    (hcomment : (head c rest).kind = .comment) :
    (head c (rest ++ ['\r'])).kind = .comment ∧
      (head c (rest ++ ['\r'])).value = (head c rest).value ∧
      tail c rest = [] ∧ tail c (rest ++ ['\r']) = [] := by
  obtain ⟨more, rfl, rfl, htext, htail⟩ := head_of_comment hline hcomment
  have hform : '/' :: '/' :: (more ++ ['\r']) ∈ Pattern.comment.language := by
    refine Pattern.mem_comment.2 ⟨more ++ ['\r'], fun d hd => ?_, rfl⟩
    rintro rfl
    simp_all
  have hhead : head '/' ('/' :: more ++ ['\r']) = ⟨.comment, '/' :: '/' :: (more ++ ['\r'])⟩ :=
    (head_cut _ _).unique (Cut.of_form (show Pattern.comment ∈ Pattern.all by decide) hform rfl)
  have hlast : (head '/' ('/' :: more)).text.getLast? ≠ some '\r' :=
    fun hlast => hreturn (htext ▸ List.mem_of_getLast? hlast)
  refine ⟨by rw [hhead], ?_, htail, ?_⟩
  · have hvalue : (head '/' ('/' :: more)).value = String.ofList (head '/' ('/' :: more)).text :=
      if_neg fun hcut => hlast hcut.2
    have hconcat : '/' :: '/' :: (more ++ ['\r']) = ('/' :: '/' :: more) ++ ['\r'] := rfl
    have hvalue' : value ⟨.comment, '/' :: '/' :: (more ++ ['\r'])⟩ =
        String.ofList ('/' :: '/' :: (more ++ ['\r'])).dropLast :=
      if_pos ⟨rfl, by rw [hconcat, List.getLast?_concat]⟩
    rw [hhead, hvalue', hvalue, htext, hconcat, List.dropLast_concat]
  · have hwhole := head_append_tail '/' ('/' :: more ++ ['\r'])
    rw [hhead] at hwhole
    simpa using hwhole

end Lexeme

namespace Source

/-- A carriage return at the end of a line leaves its tokens as they are. -/
theorem lineTokens_append_return (line before : Nat) {input : List Char} (hreturn : '\r' ∉ input)
    (hline : '\n' ∉ input) :
    lineTokens line before (input ++ ['\r']) = lineTokens line before input := by
  have hblank : Lexeme.isBlank '\r' := by decide
  induction before, input using lineTokens.induct with
  | case1 before =>
      rw [List.nil_append, lineTokens_blank _ _ hblank, lineTokens_nil, lineTokens_nil]
  | case2 before c rest hspace ih =>
      rw [List.mem_cons, not_or] at hreturn hline
      rw [List.cons_append, lineTokens_blank _ _ hspace, lineTokens_blank _ _ hspace,
        ih hreturn.2 hline.2]
  | case3 before c rest hspace ih =>
      rw [List.cons_append, lineTokens_lexeme _ _ hspace, lineTokens_lexeme _ _ hspace]
      by_cases hcomment : (Lexeme.head c rest).kind = .comment
      · obtain ⟨hkind, hvalue, htail, htail'⟩ :=
          Lexeme.head_append_return_of_comment hreturn hline hcomment
        rw [hkind, hcomment, hvalue, htail, htail', lineTokens_nil, lineTokens_nil]
      · obtain ⟨hhead, htail⟩ := Lexeme.head_append_return hcomment
        have hwhole := Lexeme.head_append_tail c rest
        rw [← hwhole, List.mem_append, not_or] at hreturn hline
        rw [hhead, htail, ih hreturn.2 hline.2]

/-- A line feed with a carriage return before it, any other character as it is. -/
def withReturn (c : Char) : List Char := if c = '\n' then ['\r', '\n'] else [c]

/-- A text with a carriage return before each line feed. -/
def crlf (source : String) : String := String.ofList (source.toList.flatMap withReturn)

theorem flatMap_withReturn_of_not_mem {line : List Char} (hline : '\n' ∉ line) :
    line.flatMap withReturn = line := by
  have hsame : ∀ c ∈ line, withReturn c = [c] := by
    rintro c hc
    have hne : c ≠ '\n' := by
      rintro rfl
      exact hline hc
    exact if_neg hne
  rw [List.flatMap_congr hsame]
  simp

theorem flatMap_withReturn_line {first : List Char} (hfirst : '\n' ∉ first) (rest : List Char) :
    (first ++ '\n' :: rest).flatMap withReturn =
      first ++ ['\r'] ++ '\n' :: rest.flatMap withReturn := by
  rw [List.flatMap_append, List.flatMap_cons, flatMap_withReturn_of_not_mem hfirst]
  simp [withReturn]

/-- Reading does not depend on the line ending: a text without carriage returns has the same
tokens, with the same values and places, and is parsed to the same tree with the same reports
if there is a carriage return before each of its line feeds. -/
theorem tokens_crlf (source : String) (hsource : '\r' ∉ source.toList) :
    tokens (crlf source) = tokens source ∧ Source.parse (crlf source) = Source.parse source := by
  have htext (line : Nat) :
      tokensFrom line (crlf source).toList = tokensFrom line source.toList := by
    rw [crlf, String.toList_ofList]
    generalize source.toList = text at hsource
    induction text using lines_induction generalizing line with
    | last last hlast => rw [flatMap_withReturn_of_not_mem hlast]
    | line first rest hfirst ih =>
        rw [List.mem_append, List.mem_cons, not_or, not_or] at hsource
        have hended : '\n' ∉ first ++ ['\r'] := by simpa using hfirst
        rw [flatMap_withReturn_line hfirst, tokensFrom_line line hended,
          tokensFrom_line line hfirst, lineTokens_append_return _ _ hsource.1 hfirst,
          ih _ hsource.2.2]
  have htokens : tokens (crlf source) = tokens source := htext 1
  exact ⟨htokens, congrArg OriSyntax.parse htokens⟩

/-- A comment and an open string, each at the end of its line. -/
theorem tokens_crlf_commentLines :
    '\r' ∉ "a // b\n\"c\n".toList ∧ crlf "a // b\n\"c\n" = "a // b\r\n\"c\r\n" ∧
      tokens "a // b\r\n\"c\r\n" = tokens "a // b\n\"c\n" := by
  have hplain : '\r' ∉ "a // b\n\"c\n".toList := by decide
  have hcrlf : crlf "a // b\n\"c\n" = "a // b\r\n\"c\r\n" := by decide +kernel
  have htokens := (tokens_crlf _ hplain).1
  rw [hcrlf] at htokens
  exact ⟨hplain, hcrlf, htokens⟩

end Source

end OriSyntax
