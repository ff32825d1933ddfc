import Mathlib.Computability.Language
import OriSyntax.Proofs.Comments

/-!
The forms of lexemes as languages.  Each pattern has the words of a regular expression, and
it reaches into a text as far as the longest prefix that is one of its words.
-/

namespace OriSyntax

open Computability

/-! ### Words over classes of characters -/

/-- The words that are one character of a class. -/
def oneOf (isIn : Char → Bool) : Language Char := {word | ∃ c, isIn c ∧ word = [c]}

/-- The language of a single word. -/
def exactly (text : String) : Language Char := {text.toList}

theorem mem_exactly {text : String} {word : List Char} :
    word ∈ exactly text ↔ word = text.toList := Iff.rfl

/-- A text is in the star of a class if all its characters are in the class. -/
theorem mem_kstar_oneOf {isIn : Char → Bool} {text : List Char} :
    text ∈ (oneOf isIn)∗ ↔ ∀ c ∈ text, isIn c := by
  rw [Language.mem_kstar]
  constructor
  · rintro ⟨words, rfl, hwords⟩ c hc
    obtain ⟨word, hword, hc⟩ := List.mem_flatten.1 hc
    obtain ⟨d, hd, rfl⟩ := hwords word hword
    rw [List.mem_singleton.1 hc]
    exact hd
  · intro hall
    refine ⟨text.map fun c => [c], ?_, ?_⟩
    · rw [← List.flatMap_def]
      simp
    · intro word hword
      obtain ⟨c, hc, rfl⟩ := List.mem_map.1 hword
      exact ⟨c, hall c hc, rfl⟩

/-- What begins a text of the star is a first word of the language. -/
theorem mem_kstar_cons {language : Language Char} {c : Char} {rest : List Char} :
    c :: rest ∈ language∗ ↔
      ∃ front back, c :: front ∈ language ∧ back ∈ language∗ ∧ rest = front ++ back := by
  constructor
  · intro hmem
    obtain ⟨words, htext, hwords⟩ := Language.mem_kstar_iff_exists_nonempty.1 hmem
    cases words with
    | nil => exact absurd htext (List.cons_ne_nil c rest)
    | cons word others =>
        obtain ⟨hword, hne⟩ := hwords word List.mem_cons_self
        obtain ⟨d, front, rfl⟩ := List.exists_cons_of_ne_nil hne
        obtain ⟨rfl, rfl⟩ := List.cons.inj htext
        refine ⟨front, others.flatten, hword, Language.join_mem_kstar ?_, rfl⟩
        exact fun other hother => (hwords other (List.mem_cons_of_mem _ hother)).1
  · rintro ⟨front, back, hfront, hback, rfl⟩
    rw [Language.mem_kstar] at hback ⊢
    obtain ⟨words, rfl, hwords⟩ := hback
    refine ⟨(c :: front) :: words, rfl, ?_⟩
    intro word hword
    rcases List.mem_cons.1 hword with rfl | hword
    · exact hfront
    · exact hwords word hword

/-! ### Longest prefixes -/

/-- `front` is the longest prefix of a text that is a word of the language. -/
structure Longest (language : Language Char) (input front : List Char) : Prop where
  mem : front ∈ language
  start : front <+: input
  bound : ∀ word ∈ language, word <+: input → word.length ≤ front.length

/-- `length` is that of the longest prefix of a text that is a word of the language; it is
zero if no prefix is a word. -/
def Reaches (language : Language Char) (input : List Char) (length : Nat) : Prop :=
  (∃ front, Longest language input front ∧ length = front.length) ∨
    length = 0 ∧ ∀ word ∈ language, ¬ word <+: input

namespace Longest

variable {language : Language Char} {input front other : List Char}

theorem unique (hfront : Longest language input front) (hother : Longest language input other) :
    front = other := by
  apply (List.prefix_of_prefix_length_le hfront.start hother.start ?_).eq_of_length_le
  · exact hfront.bound other hother.mem hother.start
  · exact hother.bound front hfront.mem hfront.start

theorem reaches (hfront : Longest language input front) :
    Reaches language input front.length := .inl ⟨front, hfront, rfl⟩

/-- Characters are taken as long as they are in the class. -/
theorem run (isIn : Char → Bool) (input : List Char) :
    Longest (oneOf isIn)∗ input (input.takeWhile isIn) where
  mem := mem_kstar_oneOf.2 fun _ hc => List.mem_takeWhile_imp hc
  start := List.takeWhile_prefix isIn
  bound := by
    rintro word hword ⟨rest, rfl⟩
    rw [List.takeWhile_append_of_pos (mem_kstar_oneOf.1 hword), List.length_append]
    exact Nat.le_add_right _ _

/-- Behind the only opening that a text has, the longest prefix goes on as far as it can. -/
theorem mul {openings : Language Char} {opening rest : List Char} (hopening : opening ∈ openings)
    (honly : ∀ word ∈ openings, word <+: opening ++ rest → word = opening)
    (hfront : Longest language rest front) :
    Longest (openings * language) (opening ++ rest) (opening ++ front) where
  mem := Language.append_mem_mul hopening hfront.mem
  start := (List.prefix_append_right_inj opening).2 hfront.start
  bound := by
    intro word hword hstart
    obtain ⟨first, hfirst, second, hsecond, rfl⟩ := Language.mem_mul.1 hword
    obtain rfl := honly first hfirst ((List.prefix_append first second).trans hstart)
    rw [List.prefix_append_right_inj] at hstart
    have hlength := hfront.bound second hsecond hstart
    simpa using hlength

end Longest

namespace Reaches

variable {language : Language Char} {input : List Char}

theorem length_le {length : Nat} (hreaches : Reaches language input length) {word : List Char}
    (hword : word ∈ language) (hstart : word <+: input) : word.length ≤ length := by
  rcases hreaches with ⟨front, hfront, rfl⟩ | ⟨-, hnone⟩
  · exact hfront.bound word hword hstart
  · exact absurd hstart (hnone word hword)

/-- What reaches anywhere has its word there. -/
theorem longest {length : Nat} (hreaches : Reaches language input (length + 1)) :
    Longest language input (input.take (length + 1)) ∧
      (input.take (length + 1)).length = length + 1 := by
  rcases hreaches with ⟨front, hfront, hlength⟩ | ⟨hzero, -⟩
  · have htake : input.take (length + 1) = front := by
      rw [hlength]
      exact (List.prefix_iff_eq_take.1 hfront.start).symm
    rw [htake]
    exact ⟨hfront, hlength.symm⟩
  · exact absurd hzero (Nat.succ_ne_zero length)

/-- A text that begins with no opening begins with no word. -/
theorem of_no_opening {openings : Language Char}
    (hnone : ∀ word ∈ openings, ¬ word <+: input) : Reaches (openings * language) input 0 := by
  refine .inr ⟨rfl, ?_⟩
  intro word hword hstart
  obtain ⟨first, hfirst, second, hsecond, rfl⟩ := Language.mem_mul.1 hword
  exact hnone first hfirst ((List.prefix_append first second).trans hstart)

/-- Behind a fixed opening, characters are taken as long as they are in the class. -/
theorem run_behind {text : String} {isIn : Char → Bool} {reach : List Char → Nat}
    (hbehind : ∀ rest, reach (text.toList ++ rest) =
      text.toList.length + (rest.takeWhile isIn).length)
    (hnone : ¬ text.toList <+: input → reach input = 0) :
    Reaches (exactly text * (oneOf isIn)∗) input (reach input) := by
  by_cases hopening : text.toList <+: input
  · obtain ⟨rest, rfl⟩ := hopening
    rw [hbehind, ← List.length_append]
    have honly : ∀ word ∈ exactly text, word <+: text.toList ++ rest → word = text.toList :=
      fun word hword _ => mem_exactly.1 hword
    exact ((Longest.run isIn rest).mul (mem_exactly.2 rfl) honly).reaches
  · rw [hnone hopening]
    exact of_no_opening fun word hword => mem_exactly.1 hword ▸ hopening

end Reaches

/-! ### Number runs -/

namespace Number

/-- What a number run may begin with: a digit, or a dot with a digit behind it. -/
def opening : Language Char := oneOf Char.isDigit + exactly "." * oneOf Char.isDigit

/-- What a number run goes on with, step by step: a digit, a dot or an underscore, or a comma
with a digit behind it. -/
def step : Language Char := oneOf isInner + exactly "," * oneOf Char.isDigit

theorem mem_opening {word : List Char} : word ∈ opening ↔
    ∃ digit, digit.isDigit ∧ (word = [digit] ∨ word = ['.', digit]) := by
  rw [opening, Language.mem_add, Language.mem_mul]
  constructor
  · rintro (⟨digit, hdigit, rfl⟩ | ⟨_, rfl, _, ⟨digit, hdigit, rfl⟩, rfl⟩)
    · exact ⟨digit, hdigit, .inl rfl⟩
    · exact ⟨digit, hdigit, .inr rfl⟩
  · rintro ⟨digit, hdigit, rfl | rfl⟩
    · exact .inl ⟨digit, hdigit, rfl⟩
    · exact .inr ⟨_, rfl, _, ⟨digit, hdigit, rfl⟩, rfl⟩

theorem mem_step {word : List Char} : word ∈ step ↔
    (∃ c, isInner c ∧ word = [c]) ∨ ∃ digit, digit.isDigit ∧ word = [',', digit] := by
  rw [step, Language.mem_add, Language.mem_mul]
  constructor
  · rintro (hinner | ⟨_, rfl, _, ⟨digit, hdigit, rfl⟩, rfl⟩)
    · exact .inl hinner
    · exact .inr ⟨digit, hdigit, rfl⟩
  · rintro (hinner | ⟨digit, hdigit, rfl⟩)
    · exact .inl hinner
    · exact .inr ⟨_, rfl, _, ⟨digit, hdigit, rfl⟩, rfl⟩

theorem mem_steps_cons {c : Char} {rest : List Char} : c :: rest ∈ step∗ ↔
    isInner c ∧ rest ∈ step∗ ∨
      c = ',' ∧ ∃ digit after, rest = digit :: after ∧ digit.isDigit ∧ after ∈ step∗ := by
  rw [mem_kstar_cons]
  constructor
  · rintro ⟨front, back, hfront, hback, rfl⟩
    rcases mem_step.1 hfront with ⟨d, hd, heq⟩ | ⟨digit, hdigit, heq⟩
    · obtain ⟨rfl, rfl⟩ := List.cons.inj heq
      exact .inl ⟨hd, hback⟩
    · obtain ⟨rfl, rfl⟩ := List.cons.inj heq
      exact .inr ⟨rfl, digit, back, rfl, hdigit, hback⟩
  · rintro (⟨hc, hrest⟩ | ⟨rfl, digit, after, rfl, hdigit, hafter⟩)
    · exact ⟨[], rest, mem_step.2 (.inl ⟨c, hc, rfl⟩), hrest, rfl⟩
    · exact ⟨[digit], after, mem_step.2 (.inr ⟨digit, hdigit, rfl⟩), hafter, rfl⟩

/-- No opening goes on as another one. -/
theorem opening_eq_of_prefix {word other rest : List Char} (hword : word ∈ opening)
    (hother : other ∈ opening) (hstart : word <+: other ++ rest) : word = other := by
  have hdot : ¬ ('.').isDigit := by decide
  obtain ⟨digit, hdigit, rfl | rfl⟩ := mem_opening.1 hword <;>
    obtain ⟨second, hsecond, rfl | rfl⟩ := mem_opening.1 hother
  · simpa using hstart
  · have heq : digit = '.' := by simpa using hstart
    exact absurd (heq ▸ hdigit) hdot
  · have heq : '.' = second := (List.cons_prefix_cons.1 hstart).1
    exact absurd (heq ▸ hsecond) hdot
  · simpa using hstart

/-- A text that a number run reaches into begins with an opening. -/
theorem exists_opening {input : List Char} (hreach : reach input ≠ 0) :
    ∃ word ∈ opening, word <+: input := by
  cases input with
  | nil => exact absurd rfl hreach
  | cons c rest =>
      by_cases hc : c.isDigit
      · exact ⟨[c], mem_opening.2 ⟨c, hc, .inl rfl⟩, by simp⟩
      · by_cases hdot : c = '.'
        · subst hdot
          cases rest with
          | nil => exact absurd rfl hreach
          | cons digit after =>
              have hdigit : digit.isDigit := by
                by_contra hdigit
                simp [reach, hc, hdigit] at hreach
              exact ⟨['.', digit], mem_opening.2 ⟨digit, hdigit, .inr rfl⟩, by simp⟩
        · simp [reach, hc, hdot] at hreach

/-- What begins a text and is made of steps is empty, or its first step is told from the first
character of the text. -/
theorem steps_prefix_cons {c : Char} {rest word : List Char} (hword : word ∈ step∗)
    (hstart : word <+: c :: rest) :
    word = [] ∨ (isInner c ∧ ∃ more ∈ step∗, more <+: rest ∧ word = c :: more) ∨
      c = ',' ∧ ∃ digit after, rest = digit :: after ∧ digit.isDigit ∧
        ∃ more ∈ step∗, more <+: after ∧ word = ',' :: digit :: more := by
  rcases List.prefix_cons_iff.1 hstart with rfl | ⟨more, rfl, hmore⟩
  · exact .inl rfl
  · rcases mem_steps_cons.1 hword with ⟨hinner, hsteps⟩ | ⟨rfl, digit, others, rfl, hdigit, hsteps⟩
    · exact .inr (.inl ⟨hinner, more, hsteps, hmore, rfl⟩)
    · obtain ⟨after, rfl⟩ := hmore
      exact .inr (.inr ⟨rfl, digit, others ++ after, rfl, hdigit, others, hsteps,
        List.prefix_append others after, rfl⟩)

theorem longest_nil {input : List Char} (hnone : ∀ word ∈ step∗, word <+: input → word = []) :
    Longest step∗ input [] := by
  refine ⟨Language.nil_mem_kstar step, List.nil_prefix, ?_⟩
  intro word hword hstart
  rw [hnone word hword hstart]

theorem longest_stop {c : Char} {rest : List Char} (hinner : ¬ isInner c)
    (hcomma : c = ',' → ∀ digit ∈ rest.head?, ¬ digit.isDigit) :
    Longest step∗ (c :: rest) [] := by
  apply longest_nil
  intro word hword hstart
  refine (steps_prefix_cons hword hstart).resolve_right ?_
  rintro (⟨hc, -⟩ | ⟨hc, digit, after, rfl, hdigit, -⟩)
  · exact hinner hc
  · exact hcomma hc digit rfl hdigit

theorem longest_inner {c : Char} {rest front : List Char} (hinner : isInner c)
    (hfront : Longest step∗ rest front) : Longest step∗ (c :: rest) (c :: front) where
  mem := mem_steps_cons.2 (.inl ⟨hinner, hfront.mem⟩)
  start := List.cons_prefix_cons.2 ⟨rfl, hfront.start⟩
  bound := by
    intro word hword hstart
    rcases steps_prefix_cons hword hstart with rfl | ⟨-, more, hsteps, hmore, rfl⟩ | ⟨rfl, -⟩
    · exact Nat.zero_le _
    · exact Nat.succ_le_succ (hfront.bound more hsteps hmore)
    · exact absurd hinner (by decide)

theorem longest_comma {digit : Char} {after front : List Char} (hdigit : digit.isDigit)
    (hfront : Longest step∗ after front) :
    Longest step∗ (',' :: digit :: after) (',' :: digit :: front) where
  mem := mem_steps_cons.2 (.inr ⟨rfl, digit, front, rfl, hdigit, hfront.mem⟩)
  start := by simpa using hfront.start
  bound := by
    intro word hword hstart
    rcases steps_prefix_cons hword hstart with
      rfl | ⟨hinner, -⟩ | ⟨-, other, others, heq, -, more, hsteps, hmore, rfl⟩
    · exact Nat.zero_le _
    · exact absurd hinner (by decide)
    · obtain ⟨rfl, rfl⟩ := List.cons.inj heq
      exact Nat.succ_le_succ (Nat.succ_le_succ (hfront.bound more hsteps hmore))

/-- A number run goes on for as long as its steps reach. -/
theorem reachFrom_longest (taken : Nat) (input : List Char) :
    ∃ front, Longest step∗ input front ∧ reachFrom taken input = taken + front.length := by
  fun_induction reachFrom taken input with
  | case1 taken => exact ⟨[], longest_nil fun word _ hstart => List.prefix_nil.1 hstart, rfl⟩
  | case2 taken c rest hinner ih =>
      obtain ⟨front, hfront, hreach⟩ := ih
      refine ⟨c :: front, longest_inner hinner hfront, ?_⟩
      rw [hreach, List.length_cons]
      omega
  | case3 taken digit after hdigit hcomma ih =>
      obtain ⟨front, hfront, hreach⟩ := ih
      refine ⟨',' :: digit :: front, longest_comma hdigit hfront, ?_⟩
      rw [hreach, List.length_cons, List.length_cons]
      omega
  | case4 taken digit after hdigit hcomma =>
      exact ⟨[], longest_stop hcomma fun _ => by simpa using hdigit, rfl⟩
  | case5 taken hcomma => exact ⟨[], longest_stop hcomma (by simp), rfl⟩
  | case6 taken c rest hinner hcomma =>
      exact ⟨[], longest_stop hinner fun hc => absurd hc hcomma, rfl⟩

end Number

/-! ### The forms -/

namespace Pattern

/-- The texts that have the form. -/
def language : Pattern → Language Char
  | symbol kind => {text | kind.spelling.map String.toList = some text}
  | comment => exactly "//" * (oneOf (· ≠ '\n'))∗
  | number => Number.opening * Number.step∗
  | string => exactly "\"" * ((oneOf isStringPart)∗ * exactly "\"")
  | openString => exactly "\"" * (oneOf isStringPart)∗
  | word => oneOf isWordStart * (oneOf isWordPart)∗

variable {text input : List Char}

theorem mem_symbol {kind : Kind} : text ∈ (symbol kind).language ↔
    ∃ spelling, kind.spelling = some spelling ∧ spelling.toList = text :=
  Option.map_eq_some_iff

theorem mem_comment : text ∈ comment.language ↔
    ∃ rest, (∀ c ∈ rest, c ≠ '\n') ∧ text = '/' :: '/' :: rest := by
  rw [language, Language.mem_mul]
  constructor
  · rintro ⟨_, rfl, rest, hrest, rfl⟩
    exact ⟨rest, by simpa using mem_kstar_oneOf.1 hrest, rfl⟩
  · rintro ⟨rest, hrest, rfl⟩
    exact ⟨_, rfl, rest, mem_kstar_oneOf.2 (by simpa using hrest), rfl⟩

theorem mem_number : text ∈ number.language ↔
    ∃ digit rest, digit.isDigit ∧ rest ∈ Number.step∗ ∧
      (text = digit :: rest ∨ text = '.' :: digit :: rest) := by
  rw [language, Language.mem_mul]
  constructor
  · rintro ⟨opening, hopening, rest, hrest, rfl⟩
    obtain ⟨digit, hdigit, rfl | rfl⟩ := Number.mem_opening.1 hopening
    · exact ⟨digit, rest, hdigit, hrest, .inl rfl⟩
    · exact ⟨digit, rest, hdigit, hrest, .inr rfl⟩
  · rintro ⟨digit, rest, hdigit, hrest, rfl | rfl⟩
    · exact ⟨[digit], Number.mem_opening.2 ⟨digit, hdigit, .inl rfl⟩, rest, hrest, rfl⟩
    · exact ⟨['.', digit], Number.mem_opening.2 ⟨digit, hdigit, .inr rfl⟩, rest, hrest, rfl⟩

theorem mem_string : text ∈ string.language ↔
    ∃ body, (∀ c ∈ body, isStringPart c) ∧ text = '"' :: (body ++ ['"']) := by
  rw [language, Language.mem_mul]
  constructor
  · rintro ⟨_, rfl, _, hclosed, rfl⟩
    obtain ⟨body, hbody, _, rfl, rfl⟩ := Language.mem_mul.1 hclosed
    exact ⟨body, mem_kstar_oneOf.1 hbody, rfl⟩
  · rintro ⟨body, hbody, rfl⟩
    exact ⟨_, rfl, _, Language.append_mem_mul (mem_kstar_oneOf.2 hbody) rfl, rfl⟩

theorem mem_openString : text ∈ openString.language ↔
    ∃ body, (∀ c ∈ body, isStringPart c) ∧ text = '"' :: body := by
  rw [language, Language.mem_mul]
  constructor
  · rintro ⟨_, rfl, body, hbody, rfl⟩
    exact ⟨body, mem_kstar_oneOf.1 hbody, rfl⟩
  · rintro ⟨body, hbody, rfl⟩
    exact ⟨_, rfl, body, mem_kstar_oneOf.2 hbody, rfl⟩

theorem mem_word : text ∈ word.language ↔
    ∃ c rest, isWordStart c ∧ (∀ d ∈ rest, isWordPart d) ∧ text = c :: rest := by
  rw [language, Language.mem_mul]
  constructor
  · rintro ⟨_, ⟨c, hc, rfl⟩, rest, hrest, rfl⟩
    exact ⟨c, rest, hc, mem_kstar_oneOf.1 hrest, rfl⟩
  · rintro ⟨c, rest, hc, hrest, rfl⟩
    exact ⟨_, ⟨c, hc, rfl⟩, rest, mem_kstar_oneOf.2 hrest, rfl⟩

theorem number_chars (htext : text ∈ number.language) {c : Char} (hc : c ∈ text) :
    Number.isInner c ∨ c = ',' := by
  have hsteps : ∀ {rest}, rest ∈ Number.step∗ → c ∈ rest → Number.isInner c ∨ c = ',' := by
    rintro rest hrest hc
    obtain ⟨words, rfl, hwords⟩ := Language.mem_kstar.1 hrest
    obtain ⟨word, hword, hc⟩ := List.mem_flatten.1 hc
    rcases Number.mem_step.1 (hwords word hword) with ⟨d, hd, rfl⟩ | ⟨digit, hdigit, rfl⟩
    · exact .inl (List.mem_singleton.1 hc ▸ hd)
    · rcases List.mem_cons.1 hc with rfl | hc
      · exact .inr rfl
      · left
        rw [List.mem_singleton.1 hc]
        simp [Number.isInner, hdigit]
  obtain ⟨digit, rest, hdigit, hrest, rfl | rfl⟩ := mem_number.1 htext
  · rcases List.mem_cons.1 hc with rfl | hc
    · simp [Number.isInner, hdigit]
    · exact hsteps hrest hc
  · rcases List.mem_cons.1 hc with rfl | hc
    · exact .inl rfl
    · rcases List.mem_cons.1 hc with rfl | hc
      · simp [Number.isInner, hdigit]
      · exact hsteps hrest hc

/-! ### How far the forms reach -/

theorem symbol_reaches (kind : Kind) (input : List Char) :
    Reaches (symbol kind).language input ((symbol kind).reach input) := by
  cases hspelling : kind.spelling with
  | none =>
      have hreach : (symbol kind).reach input = 0 := by simp only [reach, hspelling]
      rw [hreach]
      refine .inr ⟨rfl, ?_⟩
      intro word hword
      obtain ⟨spelling, hsome, -⟩ := mem_symbol.1 hword
      exact absurd (hspelling.symm.trans hsome) (Option.some_ne_none spelling).symm
  | some spelling =>
      have hreach : (symbol kind).reach input =
          if spelling.toList.isPrefixOf input then spelling.toList.length else 0 := by
        simp only [reach, hspelling]
      have honly : ∀ word ∈ (symbol kind).language, word = spelling.toList := by
        intro word hword
        obtain ⟨other, hother, rfl⟩ := mem_symbol.1 hword
        rw [Option.some.inj (hspelling.symm.trans hother)]
      by_cases hstart : spelling.toList <+: input
      · rw [hreach, if_pos (List.isPrefixOf_iff_prefix.2 hstart)]
        apply Longest.reaches
        refine ⟨mem_symbol.2 ⟨spelling, hspelling, rfl⟩, hstart, ?_⟩
        intro word hword _
        rw [honly word hword]
      · rw [hreach, if_neg fun hprefix => hstart (List.isPrefixOf_iff_prefix.1 hprefix)]
        refine .inr ⟨rfl, ?_⟩
        intro word hword
        rwa [honly word hword]

theorem comment_reaches (input : List Char) :
    Reaches comment.language input (comment.reach input) := by
  apply Reaches.run_behind
  · exact fun rest => rfl
  · intro hopening
    unfold reach
    split <;> simp_all

theorem number_reaches (input : List Char) :
    Reaches number.language input (number.reach input) := by
  by_cases hopening : ∃ word ∈ Number.opening, word <+: input
  · obtain ⟨word, hword, rest, rfl⟩ := hopening
    obtain ⟨front, hfront, hlength⟩ := Number.reachFrom_longest word.length rest
    have hreach : number.reach (word ++ rest) = (word ++ front).length := by
      rw [List.length_append, ← hlength]
      obtain ⟨digit, hdigit, rfl | rfl⟩ := Number.mem_opening.1 hword
      · simp [reach, Number.reach, hdigit]
      · simp [reach, Number.reach, hdigit, show ('.').isDigit = false from rfl]
    rw [hreach]
    apply (hfront.mul hword ?_).reaches
    exact fun other hother hstart => Number.opening_eq_of_prefix hother hword hstart
  · have hnone : ∀ word ∈ Number.opening, ¬ word <+: input :=
      fun word hword hstart => hopening ⟨word, hword, hstart⟩
    have hreach : number.reach input = 0 := by
      by_contra hpos
      obtain ⟨word, hword, hstart⟩ := Number.exists_opening hpos
      exact hnone word hword hstart
    rw [hreach]
    exact Reaches.of_no_opening hnone

/-- The quote that closes a string is the first one behind the opening one. -/
theorem closing_quote {body : List Char} (hbody : ∀ c ∈ body, isStringPart c)
    (back : List Char) :
    (body ++ '"' :: back).takeWhile isStringPart = body ∧
      (body ++ '"' :: back).dropWhile isStringPart = '"' :: back := by
  have hquote : ¬ isStringPart '"' := by decide
  rw [List.takeWhile_append_of_pos hbody, List.dropWhile_append_of_pos hbody,
    List.takeWhile_cons_of_neg hquote, List.dropWhile_cons_of_neg hquote, List.append_nil]
  exact ⟨rfl, rfl⟩

/-- A text that a string reaches into begins with one. -/
theorem exists_string {input : List Char} (hreach : string.reach input ≠ 0) :
    ∃ word ∈ string.language, word <+: input := by
  cases input with
  | nil => exact absurd rfl hreach
  | cons c rest =>
      by_cases hc : c = '"'
      · subst hc
        have hquote : (rest.dropWhile isStringPart).head? = some '"' := by
          by_contra hquote
          simp [reach, hquote] at hreach
        obtain ⟨back, hback⟩ := List.head?_eq_some_iff.1 hquote
        refine ⟨'"' :: (rest.takeWhile isStringPart ++ ['"']), mem_string.2 ?_, back, ?_⟩
        · exact ⟨_, fun d hd => List.mem_takeWhile_imp hd, rfl⟩
        · have hrest := List.takeWhile_append_dropWhile (p := isStringPart) (l := rest)
          rw [hback] at hrest
          simpa using hrest
      · simp [reach, hc] at hreach

theorem string_reaches (input : List Char) :
    Reaches string.language input (string.reach input) := by
  have hclosed : ∀ word ∈ string.language, word <+: input → ∃ body back,
      (∀ c ∈ body, isStringPart c) ∧ word = '"' :: (body ++ ['"']) ∧
        input = '"' :: (body ++ '"' :: back) := by
    rintro word hword ⟨back, rfl⟩
    obtain ⟨body, hbody, rfl⟩ := mem_string.1 hword
    exact ⟨body, back, hbody, rfl, by simp⟩
  by_cases hword : ∃ word ∈ string.language, word <+: input
  · obtain ⟨word, hword, hstart⟩ := hword
    obtain ⟨body, back, hbody, rfl, rfl⟩ := hclosed word hword hstart
    obtain ⟨htake, hdrop⟩ := closing_quote hbody back
    have hreach : string.reach ('"' :: (body ++ '"' :: back)) =
        ('"' :: (body ++ ['"'])).length := by
      simp [reach, htake, hdrop]
      omega
    rw [hreach]
    refine Longest.reaches ⟨hword, hstart, ?_⟩
    intro other hother hother_start
    obtain ⟨second, more, hsecond, rfl, hinput⟩ := hclosed other hother hother_start
    have hsame := congrArg (List.takeWhile isStringPart) (List.cons.inj hinput).2
    rw [htake, (closing_quote hsecond more).1] at hsame
    rw [hsame]
  · have hreach : string.reach input = 0 := by
      by_contra hpos
      exact hword (exists_string hpos)
    rw [hreach]
    exact .inr ⟨rfl, fun word hmem hstart => hword ⟨word, hmem, hstart⟩⟩

theorem openString_reaches (input : List Char) :
    Reaches openString.language input (openString.reach input) := by
  apply Reaches.run_behind
  · exact fun rest => rfl
  · intro hopening
    unfold reach
    split <;> simp_all

theorem word_reaches (input : List Char) :
    Reaches word.language input (word.reach input) := by
  by_cases hopening : ∃ text ∈ oneOf isWordStart, text <+: input
  · obtain ⟨_, ⟨c, hc, rfl⟩, rest, rfl⟩ := hopening
    have honly : ∀ text ∈ oneOf isWordStart, text <+: [c] ++ rest → text = [c] := by
      rintro text ⟨d, -, rfl⟩ hstart
      simpa using hstart
    have hreach : word.reach ([c] ++ rest) = ([c] ++ rest.takeWhile isWordPart).length := by
      simp [reach, hc, Nat.add_comm]
    rw [hreach]
    exact ((Longest.run isWordPart rest).mul (show [c] ∈ oneOf isWordStart from ⟨c, hc, rfl⟩)
      honly).reaches
  · have hnone : ∀ text ∈ oneOf isWordStart, ¬ text <+: input :=
      fun text htext hstart => hopening ⟨text, htext, hstart⟩
    have hreach : word.reach input = 0 := by
      cases input with
      | nil => rfl
      | cons c rest =>
          have hc : ¬ isWordStart c := fun hc => hnone [c] ⟨c, hc, rfl⟩ (by simp)
          simp [reach, hc]
    rw [hreach]
    exact Reaches.of_no_opening hnone

/-- Every pattern reaches as far as the longest prefix of the text that has its form. -/
theorem reaches (pattern : Pattern) (input : List Char) :
    Reaches pattern.language input (pattern.reach input) := by
  cases pattern with
  | symbol kind => exact symbol_reaches kind input
  | comment => exact comment_reaches input
  | number => exact number_reaches input
  | string => exact string_reaches input
  | openString => exact openString_reaches input
  | word => exact word_reaches input

/-! ### What words are made of -/

theorem isWordPart_of_isWordStart {c : Char} (hc : isWordStart c) : isWordPart c := by
  rw [isWordStart, Bool.or_eq_true] at hc
  rcases hc with halpha | hscore
  · simp [isWordPart, Char.isAlphanum, halpha]
  · simp [isWordPart, of_decide_eq_true hscore]

theorem not_isDigit_of_isWordStart {c : Char} (hc : isWordStart c) : ¬ c.isDigit := by
  intro hdigit
  rw [isWordStart, Bool.or_eq_true] at hc
  rcases hc with halpha | hscore
  · change (decide ('A'.val ≤ c.val ∧ c.val ≤ 'Z'.val) ||
      (decide ('a'.val ≤ c.val) && decide (c.val ≤ 'z'.val))) = true at halpha
    change (decide ('0'.val ≤ c.val) && decide (c.val ≤ '9'.val)) = true at hdigit
    grind
  · rw [of_decide_eq_true hscore] at hdigit
    exact absurd hdigit (by decide)

/-- The one form that a text can have, told from its beginning. -/
def formOf? (text : List Char) : Option Pattern :=
  if "//".toList <+: text then some comment
  else match text with
    | [] => none
    | c :: rest =>
        if c = '"' then some (if '"' ∈ rest then string else openString)
        else if c.isDigit ∨ c = '.' ∧ rest ≠ [] then some number
        else if isWordStart c then some word
        else (Kind.symbols.find? fun kind => kind.spelling = some (String.ofList text)).map symbol

/-- A number run is told from its first digit, whatever follows it. -/
theorem formOf?_of_number (htext : text ∈ number.language) (more : List Char) :
    formOf? (text ++ more) = some number := by
  obtain ⟨digit, rest, hdigit, -, rfl | rfl⟩ := mem_number.1 htext
  · have hslash : digit ≠ '/' := by rintro rfl; exact absurd hdigit (by decide)
    have hquote : digit ≠ '"' := by rintro rfl; exact absurd hdigit (by decide)
    simp [formOf?, hslash.symm, hquote, hdigit]
  · simp [formOf?]

/-- No text has two forms. -/
theorem formOf?_eq {pattern : Pattern} (hmem : pattern ∈ all) (htext : text ∈ pattern.language) :
    formOf? text = some pattern := by
  have hsymbols : ∀ kind ∈ Kind.symbols, ∀ spelling ∈ kind.spelling,
      formOf? spelling.toList = some (symbol kind) := by
    decide +kernel
  cases pattern with
  | symbol kind =>
      obtain ⟨spelling, hspelling, rfl⟩ := mem_symbol.1 htext
      exact hsymbols kind (symbol_mem_all hmem) spelling hspelling
  | comment =>
      obtain ⟨rest, -, rfl⟩ := mem_comment.1 htext
      exact if_pos (by simp)
  | number => simpa using formOf?_of_number htext []
  | string =>
      obtain ⟨body, -, rfl⟩ := mem_string.1 htext
      simp [formOf?]
  | openString =>
      obtain ⟨body, hbody, rfl⟩ := mem_openString.1 htext
      have hquote : '"' ∉ body := fun hquote => absurd (hbody _ hquote) (by decide)
      simp [formOf?, hquote]
  | word =>
      obtain ⟨c, rest, hc, -, rfl⟩ := mem_word.1 htext
      have hslash : c ≠ '/' := by rintro rfl; exact absurd hc (by decide)
      have hquote : c ≠ '"' := by rintro rfl; exact absurd hc (by decide)
      have hdot : c ≠ '.' := by rintro rfl; exact absurd hc (by decide)
      have hdigit : ¬ c.isDigit := not_isDigit_of_isWordStart hc
      simp [formOf?, hslash.symm, hquote, hdot, hdigit, hc]

theorem ne_nil_of_mem {pattern : Pattern} (hmem : pattern ∈ all)
    (htext : text ∈ pattern.language) : text ≠ [] := by
  rintro rfl
  have hform := formOf?_eq hmem htext
  simp [formOf?] at hform

/-- Only comments and strings have spaces within them, and nothing has a line break. -/
theorem of_isSpace_mem {pattern : Pattern} (hmem : pattern ∈ all)
    (htext : text ∈ pattern.language) {c : Char} (hc : c ∈ text) (hspace : Source.isSpace c) :
    c ≠ '\n' ∧ (pattern = comment ∨ pattern = string ∨ pattern = openString) := by
  have hcases : c = ' ' ∨ c = '\t' ∨ c = '\r' ∨ c = '\n' := by
    simpa [Source.isSpace, Lexeme.isBlank, or_assoc] using hspace
  have hsymbols : ∀ kind ∈ Kind.symbols, ∀ spelling ∈ kind.spelling,
      spelling.toList.any Source.isSpace = false := by
    decide +kernel
  have hplain : ¬ Number.isInner c ∧ ¬ isWordPart c ∧ c ≠ '/' ∧ c ≠ '"' ∧ c ≠ '.' ∧ c ≠ ',' := by
    rcases hcases with rfl | rfl | rfl | rfl <;> decide
  cases pattern with
  | symbol kind =>
      obtain ⟨spelling, hspelling, rfl⟩ := mem_symbol.1 htext
      have hnone := hsymbols kind (symbol_mem_all hmem) spelling hspelling
      exact absurd hspace (List.any_eq_false.1 hnone c hc)
  | comment =>
      obtain ⟨rest, hrest, rfl⟩ := mem_comment.1 htext
      have hmore : c ∈ rest := by simpa [hplain] using hc
      exact ⟨hrest c hmore, .inl rfl⟩
  | number =>
      rcases number_chars htext hc with hinner | hcomma
      · exact absurd hinner hplain.1
      · exact absurd hcomma hplain.2.2.2.2.2
  | string =>
      obtain ⟨body, hbody, rfl⟩ := mem_string.1 htext
      have hmore : c ∈ body := by simpa [hplain] using hc
      have hpart := hbody c hmore
      refine ⟨?_, .inr (.inl rfl)⟩
      rintro rfl
      exact absurd hpart (by decide)
  | openString =>
      obtain ⟨body, hbody, rfl⟩ := mem_openString.1 htext
      have hmore : c ∈ body := by simpa [hplain] using hc
      have hpart := hbody c hmore
      refine ⟨?_, .inr (.inr rfl)⟩
      rintro rfl
      exact absurd hpart (by decide)
  | word =>
      obtain ⟨d, rest, hd, hrest, rfl⟩ := mem_word.1 htext
      rcases List.mem_cons.1 hc with rfl | hmore
      · exact absurd (isWordPart_of_isWordStart hd) hplain.2.1
      · exact absurd (hrest c hmore) hplain.2.1

end Pattern

end OriSyntax
