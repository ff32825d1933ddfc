import OriSyntax.Proofs.Languages

/-!
The scanner takes the longest match.  Where a token begins, its lexeme is the longest prefix
of the text that has a form, or a single character if no prefix has one; what the scanner
returns is the only reading of a text in such lexemes.
-/

namespace OriSyntax

open Computability

/-- A kind is that of a reserved word: a keyword with its spelling, or a truth value. -/
def Kind.Reserves (kind : Kind) (text : String) : Prop :=
  kind.isKeyword ∧ kind.spelling = some text ∨
    kind = .boolLit ∧ (text = "true" ∨ text = "false")

theorem Kind.ofWord?_eq_some_iff {text : String} {kind : Kind} :
    ofWord? text = some kind ↔ kind.Reserves text := by
  have hkeywords : ∀ kind ∈ all, kind.isKeyword → ∀ text ∈ kind.spelling,
      ofWord? text = some kind := by
    decide +kernel
  constructor
  · intro hword
    unfold ofWord? at hword
    split at hword
    · next hbool => exact .inr ⟨(Option.some.inj hword).symm, hbool⟩
    · have hfound := List.find?_some hword
      rw [Bool.and_eq_true] at hfound
      exact .inl ⟨hfound.1, of_decide_eq_true hfound.2⟩
  · rintro (⟨hkeyword, hspelling⟩ | ⟨rfl, hbool⟩)
    · exact hkeywords kind (mem_all kind) hkeyword text hspelling
    · exact if_pos hbool

namespace Pattern

/-- The kind of a lexeme that has the form. -/
def HasKind : Pattern → List Char → Kind → Prop
  | symbol kind, _, found => found = kind
  | comment, _, found => found = .comment
  | number, text, found => found = Number.classify text
  | string, _, found => found = .stringLit
  | openString, _, found => found = .illegal
  | word, text, found =>
      found.Reserves (String.ofList text) ∨
        found = .ident ∧ ∀ kind : Kind, ¬ kind.Reserves (String.ofList text)

theorem hasKind_iff {pattern : Pattern} {text : List Char} {kind : Kind} :
    pattern.HasKind text kind ↔ kind = pattern.kindOf text := by
  cases pattern with
  | word =>
      change _ ↔ kind = (Kind.ofWord? (String.ofList text)).getD .ident
      cases hword : Kind.ofWord? (String.ofList text) with
      | none =>
          have hnone : ∀ kind : Kind, ¬ kind.Reserves (String.ofList text) := by
            intro kind hkind
            rw [← Kind.ofWord?_eq_some_iff, hword] at hkind
            exact Option.some_ne_none kind hkind.symm
          simp [HasKind, hnone]
      | some found =>
          have hfound := Kind.ofWord?_eq_some_iff.1 hword
          constructor
          · rintro (hkind | ⟨-, hnone⟩)
            · rw [← Kind.ofWord?_eq_some_iff, hword] at hkind
              exact (Option.some.inj hkind).symm
            · exact absurd hfound (hnone found)
          · rintro rfl
            exact .inl hfound
  | symbol | comment | number | string | openString => exact Iff.rfl

/-- The texts that have a form. -/
def forms : Language Char := {text | ∃ pattern ∈ all, text ∈ pattern.language}

theorem ne_nil_of_mem_forms {text : List Char} (htext : text ∈ forms) : text ≠ [] := by
  obtain ⟨pattern, hpattern, hform⟩ := htext
  exact ne_nil_of_mem hpattern hform

theorem newline_notMem_of_mem_forms {text : List Char} (htext : text ∈ forms) : '\n' ∉ text := by
  obtain ⟨pattern, hpattern, hform⟩ := htext
  exact fun hmem => (of_isSpace_mem hpattern hform hmem (by decide)).1 rfl

end Pattern

namespace Lexeme

theorem value_prefix (lexeme : Lexeme) : lexeme.value.toList <+: lexeme.text := by
  unfold value
  split
  · simpa using List.dropLast_prefix lexeme.text
  · simp

/-- The lexeme that a text begins with: the longest prefix that has a form, with the kind of
the form, or the first character if no prefix has a form. -/
inductive Cut (input : List Char) : Lexeme → Prop where
  | formed {pattern : Pattern} {text : List Char} {kind : Kind}
      (hlongest : Longest Pattern.forms input text) (hpattern : pattern ∈ Pattern.all)
      (hform : text ∈ pattern.language) (hkind : pattern.HasKind text kind) :
      Cut input ⟨kind, text⟩
  | stray {c : Char} {rest : List Char} (hinput : input = c :: rest)
      (hnone : ∀ text ∈ Pattern.forms, ¬ text <+: input) : Cut input ⟨.illegal, [c]⟩

/-- The lexeme that the scanner cuts off is the longest match. -/
theorem head_cut (c : Char) (rest : List Char) : Cut (c :: rest) (head c rest) := by
  rcases head_cases c rest with
    ⟨pattern, hpattern, length, hreach, hbound, htext, hkind, -⟩ | ⟨hzero, hhead, -⟩
  · have hreaches := pattern.reaches (c :: rest)
    rw [hreach] at hreaches
    obtain ⟨hfront, hlength⟩ := hreaches.longest
    rw [List.take_succ_cons] at hfront hlength
    have hlongest : Longest Pattern.forms (c :: rest) (c :: rest.take length) := by
      refine ⟨⟨pattern, hpattern, hfront.mem⟩, hfront.start, ?_⟩
      rintro word ⟨other, hother, hword⟩ hstart
      rw [hlength]
      exact ((other.reaches (c :: rest)).length_le hword hstart).trans (hbound other hother)
    have hhead : head c rest =
        ⟨pattern.kindOf (c :: rest.take length), c :: rest.take length⟩ := by
      rw [← hkind, ← htext]
    rw [hhead]
    exact .formed hlongest hpattern hfront.mem (Pattern.hasKind_iff.2 rfl)
  · rw [hhead]
    refine .stray rfl ?_
    rintro text ⟨pattern, hpattern, hform⟩ hstart
    have hlength := (pattern.reaches (c :: rest)).length_le hform hstart
    rw [hzero pattern hpattern, Nat.le_zero, List.length_eq_zero_iff] at hlength
    exact Pattern.ne_nil_of_mem hpattern hform hlength

/-- A prefix of two texts ends within the first or goes on with what the second begins with. -/
theorem prefix_append_cases {text front back : List Char} (hstart : text <+: front ++ back) :
    text <+: front ∨ ∃ c more, c ∈ back.head? ∧ text = front ++ c :: more := by
  rcases List.prefix_or_prefix_of_prefix hstart (List.prefix_append front back) with
    hwithin | ⟨beyond, rfl⟩
  · exact .inl hwithin
  · cases beyond with
    | nil => simp
    | cons c more =>
        rw [List.prefix_append_right_inj] at hstart
        obtain ⟨rest, rfl⟩ := hstart
        exact .inr ⟨c, more, rfl, rfl⟩

namespace Cut

variable {input : List Char} {lexeme other : Lexeme}

theorem start (hcut : Cut input lexeme) : lexeme.text <+: input := by
  cases hcut with
  | formed hlongest => exact hlongest.start
  | stray hinput => exact ⟨_, hinput.symm⟩

theorem text_ne_nil (hcut : Cut input lexeme) : lexeme.text ≠ [] := by
  cases hcut with
  | formed hlongest => exact Pattern.ne_nil_of_mem_forms hlongest.mem
  | stray => exact List.cons_ne_nil _ _

theorem ne_nil (hcut : Cut input lexeme) : input ≠ [] := by
  rintro rfl
  exact hcut.text_ne_nil (List.prefix_nil.1 hcut.start)

theorem kind_ne_eof (hcut : Cut input lexeme) : lexeme.kind ≠ .eof := by
  cases hcut with
  | formed _ hpattern _ hkind =>
      dsimp only
      rw [Pattern.hasKind_iff.1 hkind]
      exact Pattern.kindOf_ne_eof hpattern _
  | stray => exact Kind.noConfusion

/-- A lexeme that does not begin with a line break has none. -/
theorem newline_notMem (hcut : Cut input lexeme)
    (hstart : ∀ c ∈ input.head?, ¬ Source.isSpace c) : '\n' ∉ lexeme.text := by
  cases hcut with
  | formed hlongest => exact Pattern.newline_notMem_of_mem_forms hlongest.mem
  | stray hinput =>
      subst hinput
      intro hmem
      rw [← List.mem_singleton.1 hmem] at hstart
      exact hstart _ rfl (by decide)

/-- A text begins with one lexeme only. -/
theorem unique (hcut : Cut input lexeme) (hother : Cut input other) : lexeme = other := by
  cases hcut with
  | @formed pattern text kind hlongest hpattern hform hkind =>
      cases hother with
      | @formed second text' kind' hlongest' hsecond hform' hkind' =>
          obtain rfl := hlongest.unique hlongest'
          have hsame : pattern = second := by
            have hfirst := Pattern.formOf?_eq hpattern hform
            rw [Pattern.formOf?_eq hsecond hform'] at hfirst
            exact (Option.some.inj hfirst).symm
          subst hsame
          rw [Pattern.hasKind_iff] at hkind hkind'
          rw [hkind, hkind']
      | stray hinput hnone => exact absurd hlongest.start (hnone text hlongest.mem)
  | @stray c rest hinput hnone =>
      cases hother with
      | @formed second text kind hlongest => exact absurd hlongest.start (hnone text hlongest.mem)
      | @stray d more hinput' hnone' =>
          obtain ⟨rfl, -⟩ := List.cons.inj (hinput.symm.trans hinput')
          rfl

/-- A lexeme stays what it is if no form reaches beyond the text. -/
theorem append {rest : List Char} (hcut : Cut input lexeme)
    (hwithin : ∀ text ∈ Pattern.forms, text <+: input ++ rest → text <+: input) :
    Cut (input ++ rest) lexeme := by
  cases hcut with
  | @formed pattern text kind hlongest hpattern hform hkind =>
      refine .formed ⟨hlongest.mem, ?_, ?_⟩ hpattern hform hkind
      · exact hlongest.start.trans (List.prefix_append input rest)
      · exact fun word hword hstart => hlongest.bound word hword (hwithin word hword hstart)
  | @stray c more hinput hnone =>
      have hwhole : input ++ rest = c :: (more ++ rest) := by rw [hinput, List.cons_append]
      exact .stray hwhole fun text htext hstart => hnone text htext (hwithin text htext hstart)

/-- No lexeme reaches over a line break. -/
theorem append_break {rest : List Char} (hcut : Cut input lexeme)
    (hbreak : ∀ c ∈ rest.head?, c = '\n') : Cut (input ++ rest) lexeme := by
  apply hcut.append
  intro text htext hstart
  rcases prefix_append_cases hstart with hstart | ⟨c, more, hc, rfl⟩
  · exact hstart
  · obtain rfl := hbreak c hc
    exact absurd (by simp) (Pattern.newline_notMem_of_mem_forms htext)

/-- A lexeme of a kind with a fixed spelling is that spelling. -/
theorem value_of_spelling (hcut : Cut input lexeme) {text : String}
    (hspelling : lexeme.kind.spelling = some text) : lexeme.value = text := by
  have hvalue : lexeme.value = String.ofList lexeme.text := by
    refine if_neg fun hcomment => ?_
    rw [hcomment.1] at hspelling
    exact Option.some_ne_none text hspelling.symm
  rw [hvalue]
  cases hcut with
  | @formed pattern front kind hlongest hpattern hform hkind =>
      dsimp only at hspelling ⊢
      cases pattern with
      | symbol known =>
          obtain ⟨spelling, hknown, rfl⟩ := Pattern.mem_symbol.1 hform
          rw [show kind = known from hkind, hknown] at hspelling
          rw [String.ofList_toList, Option.some.inj hspelling]
      | word =>
          rcases hkind with (⟨-, hword⟩ | ⟨rfl, -⟩) | ⟨rfl, -⟩
          · rw [hword] at hspelling
            exact Option.some.inj hspelling
          · exact absurd hspelling.symm (Option.some_ne_none text)
          · exact absurd hspelling.symm (Option.some_ne_none text)
      | number =>
          have hclass := Number.classify_mem front
          rw [← show kind = Number.classify front from hkind] at hclass
          simp only [List.mem_cons, List.not_mem_nil, or_false] at hclass
          rcases hclass with rfl | rfl | rfl
          all_goals exact absurd hspelling.symm (Option.some_ne_none text)
      | comment | string | openString =>
          rw [hkind] at hspelling
          exact absurd hspelling.symm (Option.some_ne_none text)
  | stray => exact absurd hspelling.symm (Option.some_ne_none text)

end Cut

end Lexeme

namespace Number

/-- A comma within a run has a digit behind it. -/
theorem digit_behind_comma {front back : List Char} (hsteps : front ++ ',' :: back ∈ step∗) :
    ∃ digit ∈ back.head?, digit.isDigit := by
  induction hlength : front.length using Nat.strong_induction_on generalizing front with
  | h length ih =>
      cases front with
      | nil =>
          rcases mem_steps_cons.1 hsteps with ⟨hinner, -⟩ | ⟨-, digit, after, rfl, hdigit, -⟩
          · exact absurd hinner (by decide)
          · exact ⟨digit, rfl, hdigit⟩
      | cons c rest =>
          rw [List.length_cons] at hlength
          rcases mem_steps_cons.1 hsteps with ⟨-, hrest⟩ | ⟨rfl, digit, after, heq, hdigit, hafter⟩
          · exact ih rest.length (by omega) hrest rfl
          · cases rest with
            | nil =>
                obtain ⟨rfl, -⟩ := List.cons.inj heq
                exact absurd hdigit (by decide)
            | cons d more =>
                obtain ⟨rfl, rfl⟩ := List.cons.inj heq
                rw [List.length_cons] at hlength
                exact ih more.length (by omega) hafter rfl

end Number

namespace Pattern

theorem number_append {run rest : List Char} (hrun : run ∈ number.language)
    (hrest : rest ∈ Number.step∗) : run ++ rest ∈ number.language := by
  obtain ⟨opening, hopening, steps, hsteps, rfl⟩ := Language.mem_mul.1 hrun
  rw [List.append_assoc]
  apply Language.append_mem_mul hopening
  rw [← kstar_mul_kstar]
  exact Language.append_mem_mul hsteps hrest

/-- A form that begins like a number run is a number run. -/
theorem number_of_prefix {run more : List Char} (hrun : run ∈ number.language)
    (hforms : run ++ more ∈ forms) : run ++ more ∈ number.language := by
  obtain ⟨pattern, hpattern, hform⟩ := hforms
  have hnumber := formOf?_of_number hrun more
  rw [formOf?_eq hpattern hform] at hnumber
  rwa [Option.some.inj hnumber] at hform

theorem digit_behind_comma {text front back : List Char} (htext : text ∈ number.language)
    (hcomma : text = front ++ ',' :: back) : ∃ digit ∈ back.head?, digit.isDigit := by
  have hne : ∀ {digit : Char}, digit.isDigit → digit ≠ ',' := by
    rintro digit hdigit rfl
    exact absurd hdigit (by decide)
  subst hcomma
  obtain ⟨digit, rest, hdigit, hrest, heq | heq⟩ := mem_number.1 htext
  · cases front with
    | nil => exact absurd (List.cons.inj heq).1.symm (hne hdigit)
    | cons c more =>
        obtain ⟨-, rfl⟩ := List.cons.inj heq
        exact Number.digit_behind_comma hrest
  · match front, heq with
    | [], heq => exact absurd (List.cons.inj heq).1 (by decide)
    | [c], heq => exact absurd (List.cons.inj (List.cons.inj heq).2).1.symm (hne hdigit)
    | c :: d :: more, heq =>
        obtain ⟨-, rfl⟩ := List.cons.inj (List.cons.inj heq).2
        exact Number.digit_behind_comma hrest

end Pattern

/-- A comma behind a number run belongs to it only if a digit follows. -/
theorem Lexeme.Cut.comma_iff {run back : List Char} {lexeme : Lexeme}
    (hcut : Cut (run ++ ',' :: back) lexeme) (hrun : run ∈ Pattern.number.language) :
    run ++ [','] <+: lexeme.text ↔ ∃ digit ∈ back.head?, digit.isDigit := by
  constructor
  · rintro ⟨more, htext⟩
    rw [List.append_assoc, List.singleton_append] at htext
    have hstart := hcut.start
    rw [← htext, List.prefix_append_right_inj, List.cons_prefix_cons] at hstart
    cases hcut with
    | @formed pattern text kind hlongest =>
        dsimp only at htext
        subst htext
        have hnumber := Pattern.number_of_prefix hrun hlongest.mem
        obtain ⟨digit, hhead, hdigit⟩ := Pattern.digit_behind_comma hnumber rfl
        obtain ⟨others, rfl⟩ := List.head?_eq_some_iff.1 hhead
        obtain ⟨-, after, rfl⟩ := hstart
        exact ⟨digit, rfl, hdigit⟩
    | stray hinput hnone =>
        exact absurd (List.prefix_append run _) (hnone run ⟨.number, by decide, hrun⟩)
  · rintro ⟨digit, hhead, hdigit⟩
    obtain ⟨after, rfl⟩ := List.head?_eq_some_iff.1 hhead
    have hsteps : [',', digit] ∈ Number.step∗ :=
      Number.mem_steps_cons.2 (.inr ⟨rfl, digit, [], rfl, hdigit, Language.nil_mem_kstar _⟩)
    have hlonger : run ++ [',', digit] ∈ Pattern.forms :=
      ⟨.number, by decide, Pattern.number_append hrun hsteps⟩
    have hinput : run ++ [',', digit] <+: run ++ ',' :: digit :: after := by simp
    cases hcut with
    | @formed pattern text kind hlongest =>
        have hlength := hlongest.bound _ hlonger hinput
        rw [List.length_append, List.length_cons, List.length_singleton] at hlength
        apply List.prefix_of_prefix_length_le ?_ hlongest.start ?_
        · simp
        · rw [List.length_append, List.length_singleton]
          omega
    | stray _ hnone => exact absurd hinput (hnone _ hlonger)

namespace Source

/-- The token of a lexeme that follows `before`. -/
def tokenAfter (before : List Char) (lexeme : Lexeme) : Token :=
  ⟨lexeme.kind, lexeme.value, (placeAfter before).line,
    min (placeAfter before).column maxCoordinate⟩

/-- The token that marks the end of the text `before`. -/
def endAfter (before : List Char) : Token :=
  ⟨.eof, "", (placeAfter before).line, min (placeAfter before).column maxCoordinate⟩

/-- The text behind `before` is read from its beginning to its end: spaces and line breaks
are passed over, and what begins elsewhere is cut off as a lexeme and leaves a token. -/
inductive Lexes : List Char → List Token → List Char → Prop where
  | finish {before : List Char} : Lexes before [endAfter before] []
  | space {before rest : List Char} {tokens : List Token} {c : Char} (hspace : isSpace c)
      (hrest : Lexes (before ++ [c]) tokens rest) : Lexes before tokens (c :: rest)
  | lexeme {before input rest : List Char} {tokens : List Token} {lexeme : Lexeme}
      (hinput : input = lexeme.text ++ rest) (hstart : ∀ c ∈ input.head?, ¬ isSpace c)
      (hcut : lexeme.Cut input) (hrest : Lexes (before ++ lexeme.text) tokens rest) :
      Lexes before (tokenAfter before lexeme :: tokens) input

namespace Lexes

variable {before text : List Char} {found other : List Token}

/-- There is one way to read a text. -/
theorem unique (hfound : Lexes before found text) (hother : Lexes before other text) :
    found = other := by
  induction hfound generalizing other with
  | finish =>
      cases hother with
      | finish => rfl
      | lexeme hinput hstart hcut hrest => exact absurd rfl hcut.ne_nil
  | space hspace hrest ih =>
      cases hother with
      | space _ hother => exact ih hother
      | lexeme hinput hstart hcut hother => exact absurd hspace (hstart _ rfl)
  | @lexeme before input rest tokens lexeme hinput hstart hcut hrest ih =>
      cases hother with
      | finish => exact absurd rfl hcut.ne_nil
      | space hspace hother => exact absurd hspace (hstart _ rfl)
      | @lexeme _ _ more others second hinput' hstart' hcut' hother =>
          obtain rfl := hcut.unique hcut'
          rw [hinput, List.append_cancel_left_eq] at hinput'
          subst hinput'
          rw [ih hother]

/-- A token of a kind with a fixed spelling shows that spelling. -/
theorem value_of_spelling (hfound : Lexes before found text) {token : Token}
    (htoken : token ∈ found) {spelling : String} (hspelling : token.kind.spelling = some spelling) :
    token.value = spelling := by
  induction hfound with
  | finish =>
      rw [List.mem_singleton.1 htoken] at hspelling
      exact absurd hspelling.symm (Option.some_ne_none spelling)
  | space hspace hrest ih => exact ih htoken
  | lexeme hinput hstart hcut hrest ih =>
      rcases List.mem_cons.1 htoken with rfl | htoken
      · exact hcut.value_of_spelling hspelling
      · exact ih htoken

end Lexes

/-- What the scanner finds in a line is what the line reads as, up to a line break. -/
theorem lineTokens_lexes {line consumed : Nat} {before input rest : List Char}
    {tokens : List Token} (hplace : placeAfter before = ⟨line, consumed + 1⟩)
    (hline : '\n' ∉ input) (hbreak : ∀ c ∈ rest.head?, c = '\n')
    (hrest : Lexes (before ++ input) tokens rest) :
    Lexes before (lineTokens line consumed input ++ tokens) (input ++ rest) := by
  induction consumed, input using lineTokens.induct generalizing before with
  | case1 consumed => simpa using hrest
  | case2 consumed c more hblank ih =>
      rw [List.mem_cons, not_or] at hline
      have hc : '\n' ∉ [c] := by simpa using hline.1
      rw [lineTokens_blank _ _ hblank]
      apply Lexes.space (by simp [isSpace, hblank])
      apply ih
      · rw [placeAfter_append hc, hplace]
        simp
        omega
      · exact hline.2
      · simpa using hrest
  | case3 consumed c more hblank ih =>
      have hwhole := Lexeme.head_append_tail c more
      have hspace : ¬ isSpace c := not_isSpace hblank fun heq => hline (heq ▸ List.mem_cons_self)
      have hcut : Lexeme.Cut (c :: more ++ rest) (Lexeme.head c more) :=
        (Lexeme.head_cut c more).append_break hbreak
      rw [← hwhole, List.mem_append, not_or] at hline
      have htoken : (⟨(Lexeme.head c more).kind, (Lexeme.head c more).value, line,
          column consumed⟩ : Token) = tokenAfter before (Lexeme.head c more) := by
        rw [tokenAfter, hplace, column]
      rw [lineTokens_lexeme _ _ hblank, List.cons_append, htoken]
      apply Lexes.lexeme ?_ ?_ hcut
      · apply ih
        · rw [placeAfter_append hline.1, hplace]
          simp
          omega
        · exact hline.2
        · rwa [List.append_assoc, hwhole]
      · rw [← List.append_assoc, hwhole]
      · rintro d hd
        obtain rfl : c = d := by simpa using hd
        exact hspace

/-- What the scanner finds in a text is what the text reads as. -/
theorem tokensFrom_lexes {line : Nat} {before text : List Char}
    (hplace : placeAfter before = ⟨line, 1⟩) : Lexes before (tokensFrom line text) text := by
  induction text using lines_induction generalizing line before with
  | last last hlast =>
      have heof : (⟨.eof, "", line, column (Lexeme.byteLength last)⟩ : Token) =
          endAfter (before ++ last) := by
        rw [endAfter, placeAfter_append hlast, hplace, column, Nat.add_comm]
      have hend : Lexes (before ++ last) [endAfter (before ++ last)] [] := Lexes.finish
      rw [tokensFrom_last line hlast, heof]
      simpa using lineTokens_lexes hplace hlast (by simp) hend
  | line first rest hfirst ih =>
      rw [tokensFrom_line line hfirst]
      apply lineTokens_lexes hplace hfirst (by simp)
      apply Lexes.space (by decide)
      apply ih
      rw [placeAfter_newline, placeAfter_append hfirst, hplace]

theorem tokens_lexes (source : String) : Lexes [] (tokens source) source.toList :=
  tokensFrom_lexes rfl

/-- The scanner implements its patterns by longest match.  Its tokens are the only reading of
the source in which every lexeme is the longest prefix of what is left that has a form, or a
single illegal character if there is none; a comma goes on a number run only if a digit
follows; and the tokens of kinds with a fixed spelling show it. -/
theorem tokens_longest_match (source : String) :
    (∀ found, Lexes [] found source.toList ↔ found = tokens source) ∧
      (∀ run ∈ Pattern.number.language, ∀ back lexeme, Lexeme.Cut (run ++ ',' :: back) lexeme →
        (run ++ [','] <+: lexeme.text ↔ ∃ digit ∈ back.head?, digit.isDigit)) ∧
      ∀ token ∈ tokens source, ∀ spelling, token.kind.spelling = some spelling →
        token.value = spelling := by
  have hlexes := tokens_lexes source
  refine ⟨?_, ?_, ?_⟩
  · intro found
    constructor
    · exact fun hfound => hfound.unique hlexes
    · rintro rfl
      exact hlexes
  · exact fun run hrun back lexeme hcut => hcut.comma_iff hrun
  · exact fun token htoken spelling hspelling => hlexes.value_of_spelling htoken hspelling

/-- A trailing comma stands by itself, and so does a single ampersand. -/
example : (tokens "1,000,x .5 &&& \"a").map (fun token => (token.kind, token.value)) =
    [(.intLit, "1,000"), (.comma, ","), (.ident, "x"), (.illegal, ".5"), (.and, "&&"),
      (.illegal, "&"), (.illegal, "\"a"), (.eof, "")] := by
  decide +kernel

end Source

end OriSyntax
