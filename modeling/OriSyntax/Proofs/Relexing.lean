import OriSyntax.Proofs.LineBreaks

/-!
What tokens show reads as the same tokens again.  The values of a text, one under the other or
one behind the other, have the kinds of the text; behind one another this fails only for
comments and open strings, which take up the rest of their line.
-/

namespace OriSyntax

open Source

namespace Lexeme

/-- The lexeme begins like one, and it is cut off again wherever it ends the text or has the
separator behind it. -/
structure Stands (separator : Char) (lexeme : Lexeme) : Prop where
  begins : ∀ c ∈ lexeme.text.head?, ¬ isSpace c
  cut : ∀ rest : List Char, (∀ c ∈ rest.head?, c = separator) → Cut (lexeme.text ++ rest) lexeme

namespace Cut

variable {input text : List Char} {lexeme : Lexeme}

/-- A text that has a form is cut off from itself. -/
theorem of_form {pattern : Pattern} {kind : Kind} (hpattern : pattern ∈ Pattern.all)
    (hform : text ∈ pattern.language) (hkind : pattern.HasKind text kind) :
    Cut text ⟨kind, text⟩ := by
  refine .formed ⟨⟨pattern, hpattern, hform⟩, List.prefix_rfl, ?_⟩ hpattern hform hkind
  exact fun word _ hstart => hstart.length_le

/-- A lexeme is cut off from its own text. -/
theorem self (hcut : Cut input lexeme) : Cut lexeme.text lexeme := by
  cases hcut with
  | formed _ hpattern hform hkind => exact of_form hpattern hform hkind
  | @stray c rest hinput hnone =>
      refine .stray rfl fun text htext hstart => hnone text htext ?_
      rw [hinput]
      exact hstart.trans (by simp)

/-- What a token shows is a lexeme of its kind: a comment is one without the carriage return
of its line as well. -/
theorem value (hcut : Cut input lexeme) :
    Cut lexeme.value.toList ⟨lexeme.kind, lexeme.value.toList⟩ := by
  by_cases hcomment : lexeme.kind = .comment ∧ lexeme.text.getLast? = some '\r'
  · have hvalue : lexeme.value.toList = lexeme.text.dropLast := by
      rw [Lexeme.value, if_pos hcomment, String.toList_ofList]
    obtain ⟨hkind, hreturn⟩ := hcomment
    rw [hvalue, hkind]
    cases hcut with
    | @formed pattern text kind hlongest hpattern hform hhas =>
        dsimp only at hkind hreturn ⊢
        rw [hkind, Pattern.hasKind_iff] at hhas
        obtain rfl := Pattern.kindOf_eq_comment hpattern hhas.symm
        obtain ⟨rest, hrest, rfl⟩ := Pattern.mem_comment.1 hform
        have hne : rest ≠ [] := by
          rintro rfl
          exact absurd (Option.some.inj hreturn) (by decide)
        refine of_form hpattern (Pattern.mem_comment.2 ⟨rest.dropLast, ?_, ?_⟩) rfl
        · exact fun c hc => hrest c (List.mem_of_mem_dropLast hc)
        · rw [List.dropLast_cons_of_ne_nil (List.cons_ne_nil _ _),
            List.dropLast_cons_of_ne_nil hne]
    | stray => exact absurd hkind Kind.noConfusion
  · have hvalue : lexeme.value.toList = lexeme.text := by
      rw [Lexeme.value, if_neg hcomment, String.toList_ofList]
    rw [hvalue]
    exact hcut.self

/-- Every lexeme stands before a line break. -/
theorem stands_newline (hcut : Cut lexeme.text lexeme)
    (hbegins : ∀ c ∈ lexeme.text.head?, ¬ isSpace c) : lexeme.Stands '\n' :=
  ⟨hbegins, fun _ hbreak => hcut.append_break hbreak⟩

/-- The kind of a lexeme is that of the form that its text has. -/
theorem kind_of_form (hcut : Cut lexeme.text lexeme) (pattern : Pattern) {kind : Kind}
    (hpattern : pattern ∈ Pattern.all) (hform : lexeme.text ∈ pattern.language)
    (hkind : pattern.HasKind lexeme.text kind) : lexeme.kind = kind :=
  congrArg Lexeme.kind (hcut.unique (of_form hpattern hform hkind))

/-- What reaches over a blank behind a lexeme goes on a comment or an open string. -/
theorem of_reaches_blank (hcut : Cut lexeme.text lexeme) {more : List Char}
    (hforms : lexeme.text ++ ' ' :: more ∈ Pattern.forms) :
    lexeme.kind = .comment ∨ lexeme.kind = .illegal ∧ lexeme.text.head? = some '"' := by
  have hopen : ∀ body, lexeme.text = '"' :: body → (∀ c ∈ body, Pattern.isStringPart c) →
      lexeme.kind = .illegal ∧ lexeme.text.head? = some '"' := by
    intro body htext hbody
    refine ⟨hcut.kind_of_form .openString (by decide) ?_ rfl, by rw [htext]; rfl⟩
    exact Pattern.mem_openString.2 ⟨body, hbody, htext⟩
  obtain ⟨pattern, hpattern, hform⟩ := hforms
  have hwide := (Pattern.of_isSpace_mem hpattern hform (c := ' ') (by simp) (by decide)).2
  obtain ⟨first, others, htext⟩ := List.exists_cons_of_ne_nil hcut.text_ne_nil
  rw [htext, List.cons_append] at hform
  rcases hwide with rfl | rfl | rfl
  · obtain ⟨rest, hrest, heq⟩ := Pattern.mem_comment.1 hform
    obtain ⟨rfl, htail⟩ := List.cons.inj heq
    cases others with
    | nil => exact absurd (List.cons.inj htail).1 (by decide)
    | cons second body =>
        obtain ⟨rfl, rfl⟩ := List.cons.inj htail
        left
        refine hcut.kind_of_form .comment (by decide) ?_ rfl
        refine Pattern.mem_comment.2 ⟨body, fun c hc => hrest c ?_, htext⟩
        exact List.mem_append_left _ hc
  · obtain ⟨body, hbody, heq⟩ := Pattern.mem_string.1 hform
    obtain ⟨rfl, htail⟩ := List.cons.inj heq
    have hstart : others <+: body ++ ['"'] := ⟨_, htail⟩
    -- the blank stands before the closing quote, and so does what it follows
    rcases List.prefix_concat_iff.1 hstart with hwhole | hstart
    · rw [hwhole, List.append_right_eq_self] at htail
      exact absurd htail (List.cons_ne_nil _ _)
    · exact .inr (hopen others htext fun c hc => hbody c (hstart.subset hc))
  · obtain ⟨body, hbody, heq⟩ := Pattern.mem_openString.1 hform
    obtain ⟨rfl, rfl⟩ := List.cons.inj heq
    exact .inr (hopen others htext fun c hc => hbody c (List.mem_append_left _ hc))

/-- Every lexeme but a comment or an open string stands before a blank. -/
theorem stands_blank (hcut : Cut lexeme.text lexeme)
    (hbegins : ∀ c ∈ lexeme.text.head?, ¬ isSpace c) (hcomment : lexeme.kind ≠ .comment)
    (hopen : lexeme.kind = .illegal → lexeme.text.head? ≠ some '"') : lexeme.Stands ' ' := by
  refine ⟨hbegins, fun rest hblank => hcut.append ?_⟩
  intro text hform hstart
  rcases prefix_append_cases hstart with hstart | ⟨c, more, hc, rfl⟩
  · exact hstart
  · obtain rfl := hblank c hc
    rcases hcut.of_reaches_blank hform with hkind | ⟨hkind, hquote⟩
    · exact absurd hkind hcomment
    · exact absurd hquote (hopen hkind)

end Cut

end Lexeme

namespace Source

/-- Lexemes that stand before a separator are read again where it is between them. -/
theorem lexes_intercalate {separator : Char} (hseparator : isSpace separator)
    {lexemes : List Lexeme} (hstands : ∀ lexeme ∈ lexemes, lexeme.Stands separator)
    (before : List Char) :
    ∃ found, Lexes before found ([separator].intercalate (lexemes.map (·.text))) ∧
      found.map (·.kind) = lexemes.map (·.kind) ++ [.eof] ∧
      found.map (·.value) = lexemes.map (·.value) ++ [""] := by
  induction lexemes generalizing before with
  | nil => exact ⟨[endAfter before], Lexes.finish, rfl, rfl⟩
  | cons lexeme others ih =>
      obtain ⟨hfirst, hothers⟩ := List.forall_mem_cons.1 hstands
      cases others with
      | nil =>
          refine ⟨[tokenAfter before lexeme, endAfter (before ++ lexeme.text)], ?_, rfl, rfl⟩
          have hcut := hfirst.cut [] (by simp)
          rw [List.append_nil] at hcut
          rw [List.map_singleton, List.intercalate_singleton]
          exact Lexes.lexeme (List.append_nil _).symm hfirst.begins hcut Lexes.finish
      | cons second more =>
          obtain ⟨found, hfound, hkinds, hvalues⟩ :=
            ih hothers (before ++ lexeme.text ++ [separator])
          refine ⟨tokenAfter before lexeme :: found, ?_, ?_, ?_⟩
          · rw [List.map_cons, List.map_cons, List.intercalate_cons_cons, ← List.map_cons,
              List.append_assoc]
            apply Lexes.lexeme rfl
            · have hne := (hfirst.cut [] (by simp)).text_ne_nil
              rw [List.head?_append_of_ne_nil _ hne]
              exact hfirst.begins
            · exact hfirst.cut _ (by simp)
            · exact Lexes.space hseparator hfound
          · rw [List.map_cons, hkinds]
            rfl
          · rw [List.map_cons, hvalues]
            rfl

/-- The tokens of a source without the mark of its end. -/
def words (source : String) : List Token := (tokens source).filter (·.kind ≠ .eof)

/-- What the tokens of a source show, without the mark of its end. -/
def values (source : String) : List String := (words source).map (·.value)

theorem tokens_eq_words (source : String) :
    tokens source = words source ++ [endAfter source.toList] := (tokens_lexes source).ends

theorem mem_words {source : String} {token : Token} :
    token ∈ words source ↔ token ∈ tokens source ∧ token.kind ≠ .eof := by
  simp [words]

end Source

/-- What a token shows, as a lexeme of its kind. -/
def Token.lexeme (token : Token) : Lexeme := ⟨token.kind, token.value.toList⟩

theorem Token.lexeme_value (token : Token)
    (hreturn : token.kind = .comment → token.value.toList.getLast? ≠ some '\r') :
    token.lexeme.value = token.value := by
  have hvalue : token.lexeme.value = String.ofList token.value.toList :=
    if_neg fun hcut => hreturn hcut.1 hcut.2
  rw [hvalue, String.ofList_toList]

namespace Source

/-- What a token shows begins like a lexeme and is cut off from itself. -/
theorem Lexes.lexeme_cut {before text : List Char} {found : List Token}
    (hfound : Lexes before found text) {token : Token} (htoken : token ∈ found)
    (hkind : token.kind ≠ .eof) :
    (∀ c ∈ token.lexeme.text.head?, ¬ isSpace c) ∧
      Lexeme.Cut token.lexeme.text token.lexeme := by
  induction hfound with
  | finish =>
      rw [List.mem_singleton.1 htoken] at hkind
      exact absurd rfl hkind
  | space hspace hrest ih => exact ih htoken
  | @lexeme before input rest tokens lexeme hinput hstart hcut hrest ih =>
      rcases List.mem_cons.1 htoken with rfl | htoken
      · refine ⟨fun c hc => hstart c ?_, hcut.value⟩
        obtain ⟨more, hmore⟩ := lexeme.value_prefix.trans hcut.start
        rw [← hmore, List.head?_append_of_ne_nil _ hcut.value.ne_nil]
        exact hc
      · exact ih htoken

/-- Joined by a separator that all its lexemes stand before, a source is read as before. -/
theorem tokens_intercalate {source separator : String} {c : Char}
    (hseparator : separator.toList = [c]) (hspace : isSpace c)
    (hstands : ∀ token ∈ words source, token.lexeme.Stands c) :
    (tokens (separator.intercalate (values source))).map (·.kind) =
        (tokens source).map (·.kind) ∧
      ((∀ token ∈ words source, token.lexeme.value = token.value) →
        (tokens (separator.intercalate (values source))).map (·.value) =
          (tokens source).map (·.value)) := by
  have hall : ∀ lexeme ∈ (words source).map Token.lexeme, lexeme.Stands c := by
    intro lexeme hlexeme
    obtain ⟨token, htoken, rfl⟩ := List.mem_map.1 hlexeme
    exact hstands token htoken
  have htext : (separator.intercalate (values source)).toList =
      [c].intercalate (((words source).map Token.lexeme).map (·.text)) := by
    rw [String.toList_intercalate, hseparator, values, List.map_map, List.map_map]
    rfl
  obtain ⟨found, hfound, hkinds, hvalues⟩ := lexes_intercalate hspace hall []
  rw [← htext] at hfound
  rw [(tokens_lexes _).unique hfound, hkinds, hvalues, tokens_eq_words source, List.map_append,
    List.map_append, List.map_map, List.map_map]
  refine ⟨rfl, fun hsame => ?_⟩
  have hshown : (words source).map (·.lexeme.value) = (words source).map (·.value) :=
    List.map_congr_left hsame
  exact congrArg (· ++ [""]) hshown

/-- Reading what the tokens of a source show gives its tokens again.  One under the other they
have the same kinds, and the same values if no comment shows a carriage return at its end;
one behind the other they have the same kinds and values if there is neither a comment nor
an open string. -/
theorem tokens_values (source : String) :
    (tokens ("\n".intercalate (values source))).map (·.kind) = (tokens source).map (·.kind) ∧
      ((∀ token ∈ tokens source, token.kind = .comment →
          token.value.toList.getLast? ≠ some '\r') →
        (tokens ("\n".intercalate (values source))).map (·.value) =
          (tokens source).map (·.value)) ∧
      ((∀ token ∈ tokens source, token.kind ≠ .comment ∧
          (token.kind = .illegal → token.value.toList.head? ≠ some '"')) →
        (tokens (" ".intercalate (values source))).map (·.kind) =
            (tokens source).map (·.kind) ∧
          (tokens (" ".intercalate (values source))).map (·.value) =
            (tokens source).map (·.value)) := by
  have hcut : ∀ token ∈ words source, (∀ c ∈ token.lexeme.text.head?, ¬ isSpace c) ∧
      Lexeme.Cut token.lexeme.text token.lexeme := by
    intro token htoken
    obtain ⟨hmem, hkind⟩ := mem_words.1 htoken
    exact (tokens_lexes source).lexeme_cut hmem hkind
  have hlines : ∀ token ∈ words source, token.lexeme.Stands '\n' := by
    intro token htoken
    obtain ⟨hbegins, hcut⟩ := hcut token htoken
    exact hcut.stands_newline hbegins
  obtain ⟨hkinds, hvalues⟩ := tokens_intercalate (show "\n".toList = ['\n'] from rfl)
    (by decide) hlines
  refine ⟨hkinds, ?_, ?_⟩
  · intro hreturn
    apply hvalues
    exact fun token htoken => token.lexeme_value (hreturn token (mem_words.1 htoken).1)
  · intro hplain
    have hrow : ∀ token ∈ words source, token.lexeme.Stands ' ' := by
      intro token htoken
      obtain ⟨hbegins, hcut⟩ := hcut token htoken
      obtain ⟨hcomment, hopen⟩ := hplain token (mem_words.1 htoken).1
      exact hcut.stands_blank hbegins hcomment hopen
    obtain ⟨hkinds, hvalues⟩ := tokens_intercalate (show " ".toList = [' '] from rfl)
      (by decide) hrow
    refine ⟨hkinds, hvalues fun token htoken => token.lexeme_value fun hcomment => ?_⟩
    exact absurd hcomment (hplain token (mem_words.1 htoken).1).1

/-- A line that has blanks in a string and a comma behind a number. -/
theorem tokens_values_callLine :
    (∀ token ∈ tokens "f(\"a b\",1,x)", token.kind ≠ .comment ∧
        (token.kind = .illegal → token.value.toList.head? ≠ some '"')) ∧
      " ".intercalate (values "f(\"a b\",1,x)") = "f ( \"a b\" , 1 , x )" ∧
      (tokens "f ( \"a b\" , 1 , x )").map (·.kind) =
        (tokens "f(\"a b\",1,x)").map (·.kind) := by
  have hplain : ∀ token ∈ tokens "f(\"a b\",1,x)", token.kind ≠ .comment ∧
      (token.kind = .illegal → token.value.toList.head? ≠ some '"') := by
    decide +kernel
  have hjoined : " ".intercalate (values "f(\"a b\",1,x)") = "f ( \"a b\" , 1 , x )" := by
    decide +kernel
  have hkinds := ((tokens_values "f(\"a b\",1,x)").2.2 hplain).1
  rw [hjoined] at hkinds
  exact ⟨hplain, hjoined, hkinds⟩

/-- An open string takes up what is behind it on its line. -/
example : (tokens "\"a\nb").map Token.kind = [.illegal, .ident, .eof] ∧
    (tokens (" ".intercalate (values "\"a\nb"))).map Token.kind = [.illegal, .eof] := by
  decide +kernel

end Source

end OriSyntax
