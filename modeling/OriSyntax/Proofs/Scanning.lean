import Mathlib.Data.List.TakeWhile
import Mathlib.Data.String.Basic
import OriSyntax.Source

/-!
How a text is cut into lexemes.  The pattern that is chosen reaches as far as any, a
lexeme begins where it is looked for, and the tokens of a text are those of its lines one
after the other.
-/

namespace OriSyntax

namespace Pattern

/-- How far a candidate reaches; no candidate reaches nowhere. -/
def reachOf (best : Option (Pattern × Nat)) : Nat := (best.map Prod.snd).getD 0

/-- `best` is one of the `seen` patterns, and none of them reaches further. -/
structure Leads (best : Option (Pattern × Nat)) (seen : List Pattern)
    (input : List Char) : Prop where
  bound : ∀ pattern ∈ seen, pattern.reach input ≤ reachOf best
  chosen : ∀ {pattern length}, best = some (pattern, length) →
    pattern ∈ seen ∧ pattern.reach input = length ∧ 0 < length

theorem Leads.further {best : Option (Pattern × Nat)} {seen : List Pattern}
    {input : List Char} (hbest : Leads best seen input) (pattern : Pattern) :
    Leads (further best pattern input) (seen ++ [pattern]) input := by
  by_cases hreach : reachOf best < pattern.reach input
  · have hnew : Pattern.further best pattern input = some (pattern, pattern.reach input) :=
      if_pos hreach
    rw [hnew]
    constructor
    · intro other hother
      rcases List.mem_append.1 hother with hother | hother
      · exact Nat.le_of_lt (Nat.lt_of_le_of_lt (hbest.bound other hother) hreach)
      · rw [List.mem_singleton.1 hother]
        exact Nat.le_refl _
    · intro other length hsome
      obtain ⟨rfl, rfl⟩ := Prod.mk.inj (Option.some.inj hsome)
      exact ⟨by simp, rfl, Nat.zero_lt_of_lt hreach⟩
  · have hold : Pattern.further best pattern input = best := if_neg hreach
    rw [hold]
    constructor
    · intro other hother
      rcases List.mem_append.1 hother with hother | hother
      · exact hbest.bound other hother
      · rw [List.mem_singleton.1 hother]
        exact Nat.le_of_not_lt hreach
    · intro other length hsome
      have hseen := hbest.chosen hsome
      exact ⟨by simp [hseen.1], hseen.2⟩

theorem Leads.foldl {best : Option (Pattern × Nat)} {seen : List Pattern}
    {input : List Char} (hbest : Leads best seen input) (patterns : List Pattern) :
    Leads (patterns.foldl (fun found pattern => Pattern.further found pattern input) best)
      (seen ++ patterns) input := by
  induction patterns generalizing best seen with
  | nil => simpa using hbest
  | cons pattern rest ih => simpa using ih (hbest.further pattern)

theorem furthest_leads (input : List Char) : Leads (furthest input) all input := by
  have hnone : Leads none [] input := ⟨by simp, by simp⟩
  simpa [furthest] using hnone.foldl all

/-- The choice depends on nothing but how far each pattern reaches. -/
theorem furthest_congr {first second : List Char}
    (hreach : ∀ pattern ∈ all, pattern.reach first = pattern.reach second) :
    furthest first = furthest second := by
  have hfold : ∀ (patterns : List Pattern) (best : Option (Pattern × Nat)),
      (∀ pattern ∈ patterns, pattern.reach first = pattern.reach second) →
      patterns.foldl (fun found pattern => further found pattern first) best =
        patterns.foldl (fun found pattern => further found pattern second) best := by
    intro patterns
    induction patterns with
    | nil => intro best _; rfl
    | cons pattern rest ih =>
        intro best hpatterns
        have hhead : further best pattern first = further best pattern second := by
          simp only [further, hpatterns pattern List.mem_cons_self]
        rw [List.foldl_cons, List.foldl_cons, hhead]
        exact ih _ fun other hother => hpatterns other (List.mem_cons_of_mem _ hother)
  exact hfold all none hreach

theorem symbol_mem_all {kind : Kind} (hmem : symbol kind ∈ all) : kind ∈ Kind.symbols := by
  simpa [all] using hmem

end Pattern

theorem Number.classify_mem (run : List Char) :
    Number.classify run ∈ [Kind.illegal, .intLit, .floatLit] := by
  unfold Number.classify
  dsimp only
  split_ifs
  all_goals simp

theorem Kind.ofWord?_mem {text : String} {kind : Kind} (hword : ofWord? text = some kind) :
    kind = .boolLit ∨ kind.isKeyword = true := by
  unfold ofWord? at hword
  split at hword
  · exact .inl (Option.some.inj hword).symm
  · have hfound := List.find?_some hword
    rw [Bool.and_eq_true] at hfound
    exact .inr hfound.1

namespace Pattern

theorem kindOf_ne_eof {pattern : Pattern} (hmem : pattern ∈ all) (text : List Char) :
    pattern.kindOf text ≠ .eof := by
  cases pattern with
  | symbol kind =>
      intro heof
      have hkind : kind = .eof := heof
      subst hkind
      exact absurd (symbol_mem_all hmem) (by decide)
  | number =>
      intro heof
      have hclass := Number.classify_mem text
      rw [show Number.classify text = .eof from heof] at hclass
      exact absurd hclass (by decide)
  | word =>
      intro heof
      change (Kind.ofWord? (String.ofList text)).getD .ident = .eof at heof
      cases hword : Kind.ofWord? (String.ofList text) with
      | none => simp [hword] at heof
      | some kind =>
          rw [hword, Option.getD_some] at heof
          subst heof
          rcases Kind.ofWord?_mem hword with hbool | hkeyword
          · exact absurd hbool (by decide)
          · exact absurd hkeyword (by decide)
  | comment | string | openString => exact Kind.noConfusion

theorem kindOf_eq_comment {pattern : Pattern} (hmem : pattern ∈ all) {text : List Char}
    (hcomment : pattern.kindOf text = .comment) : pattern = .comment := by
  cases pattern with
  | comment => rfl
  | symbol kind =>
      have hkind : kind = .comment := hcomment
      subst hkind
      exact absurd (symbol_mem_all hmem) (by decide)
  | number =>
      have hclass := Number.classify_mem text
      rw [show Number.classify text = .comment from hcomment] at hclass
      exact absurd hclass (by decide)
  | word =>
      change (Kind.ofWord? (String.ofList text)).getD .ident = .comment at hcomment
      cases hword : Kind.ofWord? (String.ofList text) with
      | none => simp [hword] at hcomment
      | some kind =>
          rw [hword, Option.getD_some] at hcomment
          subst hcomment
          rcases Kind.ofWord?_mem hword with hbool | hkeyword
          · exact absurd hbool (by decide)
          · exact absurd hkeyword (by decide)
  | string | openString => exact Kind.noConfusion hcomment

/-- A comment begins with two slashes and reaches to the end of its line. -/
theorem reach_comment_pos {input : List Char} (hreach : 0 < comment.reach input) :
    ∃ rest, input = '/' :: '/' :: rest ∧
      comment.reach input = 2 + (rest.takeWhile (· ≠ '\n')).length := by
  unfold reach at hreach ⊢
  split at hreach <;> simp_all

end Pattern

namespace Lexeme

/-- The lexeme at the head of a text is the one that the furthest pattern cuts off, or a
single character that no pattern accepts. -/
theorem head_cases (c : Char) (rest : List Char) :
    (∃ pattern ∈ Pattern.all, ∃ length, pattern.reach (c :: rest) = length + 1 ∧
        (∀ other ∈ Pattern.all, other.reach (c :: rest) ≤ length + 1) ∧
        (head c rest).text = c :: rest.take length ∧
        (head c rest).kind = pattern.kindOf (c :: rest.take length) ∧
        tail c rest = rest.drop length) ∨
      (∀ other ∈ Pattern.all, other.reach (c :: rest) = 0) ∧
        head c rest = ⟨.illegal, [c]⟩ ∧ tail c rest = rest := by
  have hleads := Pattern.furthest_leads (c :: rest)
  unfold head tail
  cases hfurthest : Pattern.furthest (c :: rest) with
  | none =>
      refine .inr ⟨?_, rfl, rfl⟩
      intro other hother
      have hbound := hleads.bound other hother
      rw [hfurthest] at hbound
      exact Nat.le_zero.1 hbound
  | some best =>
      obtain ⟨pattern, reach⟩ := best
      obtain ⟨hmem, hreach, hpos⟩ := hleads.chosen hfurthest
      obtain ⟨length, rfl⟩ := Nat.exists_eq_add_of_lt hpos
      rw [Nat.zero_add] at hreach
      refine .inl ⟨pattern, hmem, length, hreach, ?_, ?_⟩
      · intro other hother
        have hbound := hleads.bound other hother
        rwa [hfurthest, Pattern.reachOf, Option.map_some, Option.getD_some,
          Nat.zero_add] at hbound
      · simp

theorem head_kind_ne_eof (c : Char) (rest : List Char) : (head c rest).kind ≠ .eof := by
  rcases head_cases c rest with
    ⟨pattern, hmem, length, _, _, _, hkind, _⟩ | ⟨_, hhead, _⟩
  · rw [hkind]
    exact Pattern.kindOf_ne_eof hmem _
  · rw [hhead]
    exact Kind.noConfusion

/-- A comment takes up the rest of its line. -/
theorem head_of_comment {c : Char} {rest : List Char} (hline : '\n' ∉ c :: rest)
    (hcomment : (head c rest).kind = .comment) :
    ∃ more, c = '/' ∧ rest = '/' :: more ∧ (head c rest).text = c :: rest ∧
      tail c rest = [] := by
  rcases head_cases c rest with
    ⟨pattern, hmem, length, hreach, _, htext, hkind, htail⟩ | ⟨_, hhead, _⟩
  · rw [hkind] at hcomment
    have hpattern := Pattern.kindOf_eq_comment hmem hcomment
    subst hpattern
    obtain ⟨more, hinput, hlength⟩ :=
      Pattern.reach_comment_pos (Nat.lt_of_lt_of_eq (Nat.succ_pos length) hreach.symm)
    obtain ⟨rfl, rfl⟩ := List.cons.inj hinput
    have hwhole : more.takeWhile (· ≠ '\n') = more := by
      rw [List.takeWhile_eq_self_iff]
      intro d hd
      simp only [List.mem_cons, not_or] at hline
      simpa using fun heq : d = '\n' => hline.2.2 (heq ▸ hd)
    rw [hwhole] at hlength
    have hlength' : length = ('/' :: more).length := by
      rw [List.length_cons]
      omega
    refine ⟨more, rfl, rfl, ?_, ?_⟩
    · rw [htext, hlength', List.take_length]
    · rw [htail, hlength', List.drop_length]
  · rw [hhead] at hcomment
    exact Kind.noConfusion hcomment

/-- Some characters of a lexeme are cut off its value: none, or the carriage return that a
comment ends with. -/
theorem exists_value_append {c : Char} {rest : List Char} (hline : '\n' ∉ c :: rest) :
    ∃ more cut, (head c rest).value.toList = c :: more ∧
      (head c rest).text = c :: more ++ cut ∧
      (cut = [] ∨ cut = ['\r'] ∧ (head c rest).kind = .comment) := by
  by_cases hcut : (head c rest).kind = .comment ∧ (head c rest).text.getLast? = some '\r'
  · obtain ⟨more, rfl, rfl, htext, _⟩ := head_of_comment hline hcut.1
    have hvalue : (head '/' ('/' :: more)).value =
        String.ofList (head '/' ('/' :: more)).text.dropLast := if_pos hcut
    have hlast := List.dropLast_append_getLast? _ hcut.2
    rw [htext, List.dropLast_cons_cons] at hlast
    refine ⟨('/' :: more).dropLast, ['\r'], ?_, ?_, .inr ⟨rfl, hcut.1⟩⟩
    · rw [hvalue, String.toList_ofList, htext, List.dropLast_cons_cons]
    · rw [htext, hlast]
  · have hvalue : (head c rest).value = String.ofList (head c rest).text := if_neg hcut
    have htext : ∃ more, (head c rest).text = c :: more := by
      rcases head_cases c rest with ⟨_, _, length, _, _, htext, _⟩ | ⟨_, hhead, _⟩
      · exact ⟨_, htext⟩
      · exact ⟨[], by rw [hhead]⟩
    obtain ⟨more, htext⟩ := htext
    exact ⟨more, [], by rw [hvalue, String.toList_ofList, htext], by simp [htext], .inl rfl⟩

end Lexeme

namespace Source

/-- The tokens of what is left of a line, in order. -/
def lineTokens (line before : Nat) (input : List Char) : List Token :=
  match input with
  | [] => []
  | c :: rest =>
      if Lexeme.isBlank c then lineTokens line (before + c.utf8Size) rest
      else
        ⟨(Lexeme.head c rest).kind, (Lexeme.head c rest).value, line, column before⟩ ::
          lineTokens line (before + Lexeme.byteLength (Lexeme.head c rest).text)
            (Lexeme.tail c rest)
termination_by input.length
decreasing_by
  · simp
  · exact Nat.lt_succ_of_le (Lexeme.tail_length_le c rest)

@[simp] theorem lineTokens_nil (line before : Nat) : lineTokens line before [] = [] := by
  rw [lineTokens]

theorem lineTokens_blank (line before : Nat) {c : Char} (hblank : Lexeme.isBlank c)
    (rest : List Char) :
    lineTokens line before (c :: rest) = lineTokens line (before + c.utf8Size) rest := by
  rw [lineTokens, if_pos hblank]

theorem lineTokens_lexeme (line before : Nat) {c : Char} (hblank : ¬ Lexeme.isBlank c)
    (rest : List Char) :
    lineTokens line before (c :: rest) =
      ⟨(Lexeme.head c rest).kind, (Lexeme.head c rest).value, line, column before⟩ ::
        lineTokens line (before + Lexeme.byteLength (Lexeme.head c rest).text)
          (Lexeme.tail c rest) := by
  rw [lineTokens, if_neg hblank]

/-- The scanner keeps the tokens of a line latest first. -/
theorem scanLine_eq (line before : Nat) (input : List Char) (found : List Token) :
    scanLine line before input found = (lineTokens line before input).reverse ++ found := by
  induction before, input, found using scanLine.induct line with
  | case1 before found => simp [scanLine]
  | case2 before found c rest hblank ih =>
      rw [scanLine, if_pos hblank, ih, lineTokens_blank _ _ hblank]
  | case3 before found c rest hblank lexeme ih =>
      rw [scanLine, if_neg hblank, lineTokens_lexeme _ _ hblank]
      simpa using ih

/-- The tokens of a text whose first line has number `line`, in order. -/
def tokensFrom (line : Nat) (text : List Char) : List Token :=
  (scanLines line [] (lines text)).reverse

theorem tokens_eq (source : String) : tokens source = tokensFrom 1 source.toList := rfl

theorem scanLines_append (line : Nat) (found : List Token) (lines : List (List Char)) :
    scanLines line found lines = scanLines line [] lines ++ found := by
  induction lines generalizing line found with
  | nil => rfl
  | cons first rest ih =>
      cases rest with
      | nil => simp [scanLines, scanLine_eq]
      | cons second others =>
          have hstep : ∀ found, scanLines line found (first :: second :: others) =
              scanLines (line + 1) (scanLine line 0 first found) (second :: others) :=
            fun _ => rfl
          rw [hstep, hstep, ih, ih (line + 1) (scanLine line 0 first [])]
          simp [scanLine_eq]

theorem tokensFrom_last (line : Nat) {last : List Char} (hlast : '\n' ∉ last) :
    tokensFrom line last =
      lineTokens line 0 last ++ [⟨.eof, "", line, column (Lexeme.byteLength last)⟩] := by
  simp [tokensFrom, lines, Text.pieces_of_not_mem hlast, scanLines, scanLine_eq]

/-- The tokens of a line come before those of the lines below it. -/
theorem tokensFrom_line (line : Nat) {first : List Char} (hfirst : '\n' ∉ first)
    (rest : List Char) :
    tokensFrom line (first ++ '\n' :: rest) =
      lineTokens line 0 first ++ tokensFrom (line + 1) rest := by
  obtain ⟨second, others, hrest⟩ := List.exists_cons_of_ne_nil (Text.pieces_ne_nil '\n' rest)
  rw [tokensFrom, tokensFrom, lines, lines, Text.pieces_append_separator hfirst, hrest,
    scanLines, scanLines_append, scanLine_eq]
  · simp
  · simp

/-- Texts are made of lines: a last one, and others with their line feeds before it. -/
@[elab_as_elim]
theorem lines_induction {motive : List Char → Prop}
    (last : ∀ line, '\n' ∉ line → motive line)
    (line : ∀ first rest, '\n' ∉ first → motive rest → motive (first ++ '\n' :: rest))
    (text : List Char) : motive text := by
  induction hlength : text.length using Nat.strong_induction_on generalizing text with
  | h length ih =>
      by_cases htext : '\n' ∈ text
      · obtain ⟨first, rest, rfl, hfirst⟩ := List.eq_append_cons_of_mem htext
        refine line first rest hfirst (ih rest.length ?_ rest rfl)
        rw [← hlength, List.length_append, List.length_cons]
        omega
      · exact last text htext

end Source

end OriSyntax
