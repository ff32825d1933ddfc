import OriSyntax.Proofs.LineBreaks
import OriSyntax.Proofs.Quoting
import OriSyntax.Report

/-!
Token listings show all there is to know: a line for each token, from which it can be read
back, and for each illegal token a diagnostic whose code tells what is wrong with the lexeme.
-/

namespace OriSyntax

namespace Text

/-- Code points, in closed ranges, of characters that show as they are: ASCII, letters and
signs of European scripts, digits, Japanese and Chinese characters, full-width forms, the
replacement character, emoji. -/
def shownRanges : List (Nat × Nat) :=
  [(0x20, 0x7e), (0xa1, 0xac), (0xae, 0x2ff), (0x38e, 0x3a1), (0x3a3, 0x482), (0x660, 0x669),
    (0x3041, 0x3096), (0x309b, 0x30ff), (0x3400, 0xa48c), (0xac00, 0xd7a3), (0xff01, 0xff9f),
    (0xfffc, 0xfffd), (0x1f300, 0x1f64f)]

/-- Further code points, in closed ranges, of characters that do not: controls, a space that
does not break, a soft hyphen, combining and unassigned characters, characters without
width, separators, private use, tags, and the last code point. -/
def hiddenRanges : List (Nat × Nat) :=
  [(0x0, 0x1f), (0x7f, 0xa0), (0xad, 0xad), (0x300, 0x36f), (0x378, 0x379), (0x200b, 0x200f),
    (0x2028, 0x202f), (0xe000, 0xf8ff), (0xfeff, 0xfeff), (0xe0000, 0xe01ef),
    (0xf0000, 0x10ffff)]

/-- Whether a code point lies in one of some closed ranges. -/
def Among (ranges : List (Nat × Nat)) (code : Nat) : Prop :=
  ∃ range ∈ ranges, range.1 ≤ code ∧ code ≤ range.2

theorem among_of_inRanges {code : Nat} {ranges : List (Nat × Nat)}
    (hcode : inRanges code ranges) : Among ranges code := by
  induction ranges with
  | nil => simp [inRanges] at hcode
  | cons range rest ih =>
      simp only [inRanges, Bool.and_eq_true, Bool.or_eq_true, decide_eq_true_eq] at hcode
      obtain ⟨hlow, hhigh | hrest⟩ := hcode
      · exact ⟨range, List.mem_cons_self, hlow, hhigh⟩
      · obtain ⟨other, hother, hwithin⟩ := ih hrest
        exact ⟨other, List.mem_cons_of_mem range hother, hwithin⟩

/-- One range begins before another one. -/
def Before (range later : Nat × Nat) : Prop := range.1 ≤ later.1

instance (range later : Nat × Nat) : Decidable (Before range later) :=
  inferInstanceAs (Decidable (_ ≤ _))

instance : Trans Before Before Before := ⟨Nat.le_trans⟩

/-- In increasing ranges a code point is found if it lies in one of them. -/
theorem inRanges_of_among {code : Nat} {ranges : List (Nat × Nat)}
    (hincreasing : ranges.Pairwise Before) (hcode : Among ranges code) :
    inRanges code ranges := by
  induction ranges with
  | nil =>
      obtain ⟨range, hrange, -⟩ := hcode
      exact nomatch hrange
  | cons range rest ih =>
      obtain ⟨hfirst, hrest⟩ := List.pairwise_cons.1 hincreasing
      obtain ⟨found, hfound, hlow, hhigh⟩ := hcode
      rcases List.mem_cons.1 hfound with rfl | hfound
      · simp [inRanges, hlow, hhigh]
      · have hbefore := (hfirst found hfound).trans hlow
        simp [inRanges, hbefore, ih hrest ⟨found, hfound, hlow, hhigh⟩]

theorem isMarked_of_among {c : Char} (hc : Among shownRanges c.toNat) : isMarked c := by
  have hapart : ∀ shown ∈ shownRanges, ∀ hidden ∈ unmarkedBasic ++ unmarkedBeyond,
      shown.2 < hidden.1 ∨ hidden.2 < shown.1 := by
    decide +kernel
  obtain ⟨shown, hshown, hlow, hhigh⟩ := hc
  have hnowhere {ranges : List (Nat × Nat)}
      (hranges : ∀ hidden ∈ ranges, hidden ∈ unmarkedBasic ++ unmarkedBeyond) :
      inRanges c.toNat ranges = false := by
    apply Bool.eq_false_iff.2
    intro hfound
    obtain ⟨hidden, hhidden, hwithin⟩ := among_of_inRanges hfound
    have := hapart shown hshown hidden (hranges hidden hhidden)
    omega
  rw [isMarked, hnowhere fun _ => List.mem_append_left _,
    hnowhere fun _ => List.mem_append_right _]
  rfl

theorem not_isMarked_of_among {c : Char} (hc : Among hiddenRanges c.toNat) :
    isMarked c = false := by
  have hwithin : ∀ hidden ∈ hiddenRanges,
      (∃ range ∈ unmarkedBasic, range.1 ≤ hidden.1 ∧ hidden.2 ≤ range.2) ∨
        ∃ range ∈ unmarkedBeyond, range.1 ≤ hidden.1 ∧ hidden.2 ≤ range.2 := by
    decide +kernel
  have hbasic : unmarkedBasic.IsChain Before := by decide +kernel
  have hbeyond : unmarkedBeyond.IsChain Before := by decide +kernel
  rw [List.isChain_iff_pairwise] at hbasic hbeyond
  obtain ⟨hidden, hhidden, hlow, hhigh⟩ := hc
  rw [isMarked, Bool.not_eq_false', Bool.or_eq_true]
  rcases hwithin hidden hhidden with ⟨range, hrange, hless⟩ | ⟨range, hrange, hless⟩
  · exact .inl (inRanges_of_among hbasic ⟨range, hrange, by omega, by omega⟩)
  · exact .inr (inRanges_of_among hbeyond ⟨range, hrange, by omega, by omega⟩)

instance (ranges : List (Nat × Nat)) (code : Nat) : Decidable (Among ranges code) :=
  inferInstanceAs (Decidable (∃ range ∈ ranges, _))

theorem escape_of_hidden {c : Char} (hc : Among hiddenRanges c.toNat) : escape c ≠ [c] := by
  have hmarked := not_isMarked_of_among hc
  have hspelled := escape_spelled c
  generalize escape c = text at hspelled ⊢
  cases hspelled with
  | short _ => simp
  | plain _ hplain => exact absurd (hplain.symm.trans hmarked) (by decide)
  | code _ _ => simp

theorem escape_of_shown {c : Char} (hc : Among shownRanges c.toNat) (hquote : c ≠ '"')
    (hbackslash : c ≠ '\\') : escape c = [c] := by
  have hmarked := isMarked_of_among hc
  have hspelled := escape_spelled c
  generalize escape c = text at hspelled ⊢
  cases hspelled with
  | short hletter =>
      have hcontrols : ∀ entry ∈ shortSpellings, entry.1 = '"' ∨ entry.1 = '\\' ∨
          ¬ Among shownRanges entry.1.toNat := by
        decide +kernel
      rcases hcontrols _ hletter with hfirst | hfirst | hhidden
      · exact absurd hfirst hquote
      · exact absurd hfirst hbackslash
      · exact absurd hc hhidden
  | plain _ _ => rfl
  | code _ hhidden => exact absurd (hmarked.symm.trans hhidden) (by decide)

end Text

/-- What a code of the first phase says of a lexeme: it is an open string, a number run, or a
character that no form begins with. -/
def ErrorCode.Explains (code : ErrorCode) (text : List Char) : Prop :=
  (code = .unterminatedString ∧ text ∈ Pattern.openString.language) ∨
    (code = .malformedNumber ∧ text ∈ Pattern.number.language) ∨
      (code = .invalidCharacter ∧ ∃ c, text = [c] ∧ [c] ∉ Pattern.forms)

namespace Pattern

variable {text : List Char}

theorem openString_forms (htext : text ∈ openString.language) : text ∈ forms :=
  ⟨openString, by decide, htext⟩

theorem number_forms (htext : text ∈ number.language) : text ∈ forms :=
  ⟨number, by decide, htext⟩

/-- Only an open string and a number run can be illegal. -/
theorem eq_of_hasKind_illegal {pattern : Pattern} (hpattern : pattern ∈ all)
    (hkind : pattern.HasKind text .illegal) : pattern = openString ∨ pattern = number := by
  cases pattern with
  | symbol kind =>
      rw [HasKind] at hkind
      exact absurd (symbol_mem_all hpattern) (by rw [← hkind]; decide)
  | comment => simp [HasKind] at hkind
  | number => exact .inr rfl
  | string => simp [HasKind] at hkind
  | openString => exact .inl rfl
  | word =>
      rcases hkind with (⟨hkeyword, -⟩ | ⟨hbool, -⟩) | ⟨hident, -⟩
      · exact absurd hkeyword (by decide)
      · exact absurd hbool (by decide)
      · exact absurd hident (by decide)

end Pattern

namespace ErrorCode.Explains

variable {code : ErrorCode} {text : List Char}

/-- A lexeme is explained by one code only. -/
theorem eq_iff (hexplains : code.Explains text) :
    (code = .unterminatedString ↔ text ∈ Pattern.openString.language) ∧
      (code = .malformedNumber ↔ text ∈ Pattern.number.language) ∧
      (code = .invalidCharacter ↔ ∃ c, text = [c] ∧ [c] ∉ Pattern.forms) := by
  have hopen (htext : text ∈ Pattern.openString.language) :
      Pattern.formOf? text = some .openString := Pattern.formOf?_eq (by decide) htext
  have hnumber (htext : text ∈ Pattern.number.language) :
      Pattern.formOf? text = some .number := Pattern.formOf?_eq (by decide) htext
  have hstray : (∃ c, text = [c] ∧ [c] ∉ Pattern.forms) → text ∉ Pattern.forms := by
    rintro ⟨c, rfl, hnone⟩
    exact hnone
  have hopen' := @Pattern.openString_forms text
  have hnumber' := @Pattern.number_forms text
  rcases hexplains with ⟨rfl, htext⟩ | ⟨rfl, htext⟩ | ⟨rfl, htext⟩ <;> grind

end ErrorCode.Explains

namespace Lexeme.Cut

variable {input : List Char} {lexeme : Lexeme}

/-- The code that is guessed from the first character of an illegal lexeme explains it. -/
theorem explained (hcut : Cut input lexeme) (hkind : lexeme.kind = .illegal) :
    (Diagnostic.lexicalCause lexeme.value).Explains lexeme.value.toList := by
  have hvalue : lexeme.value = String.ofList lexeme.text := if_neg (by simp [hkind])
  rw [hvalue, String.toList_ofList]
  cases hcut with
  | @formed pattern text kind _ hpattern hform hhas =>
      dsimp only at hkind ⊢
      subst hkind
      rcases Pattern.eq_of_hasKind_illegal hpattern hhas with rfl | rfl
      · refine .inl ⟨?_, hform⟩
        obtain ⟨body, -, rfl⟩ := Pattern.mem_openString.1 hform
        simp [Diagnostic.lexicalCause]
      · refine .inr (.inl ⟨?_, hform⟩)
        obtain ⟨digit, rest, hdigit, -, rfl | rfl⟩ := Pattern.mem_number.1 hform
        · have hquote : digit ≠ '"' := by rintro rfl; exact absurd hdigit (by decide)
          simp [Diagnostic.lexicalCause, hdigit, hquote]
        · simp [Diagnostic.lexicalCause]
  | @stray c rest hinput hnone =>
      have hc : [c] ∉ Pattern.forms := fun hmem => hnone [c] hmem (by simp [hinput])
      have hquote : c ≠ '"' := by
        rintro rfl
        exact hc (Pattern.openString_forms (Pattern.mem_openString.2 ⟨[], by simp, rfl⟩))
      have hdigit : ¬ c.isDigit := fun hdigit => hc (Pattern.number_forms
        (Pattern.mem_number.2 ⟨c, [], hdigit, Language.nil_mem_kstar _, .inl rfl⟩))
      have hdot : c ≠ '.' := by
        rintro rfl
        exact hc ⟨.symbol .dot, by decide, Pattern.mem_symbol.2 ⟨".", rfl, rfl⟩⟩
      refine .inr (.inr ⟨?_, c, rfl, hc⟩)
      simp [Diagnostic.lexicalCause, hquote, hdigit, hdot]

end Lexeme.Cut

theorem Source.Lexes.explained {before text : List Char} {found : List Token}
    (hfound : Lexes before found text) {token : Token} (htoken : token ∈ found)
    (hkind : token.kind = .illegal) :
    (Diagnostic.illegal token).code.Explains token.value.toList := by
  induction hfound with
  | finish =>
      rw [List.mem_singleton.1 htoken] at hkind
      exact nomatch hkind
  | space _ _ ih => exact ih htoken
  | lexeme _ _ hcut _ ih =>
      rcases List.mem_cons.1 htoken with rfl | htoken
      · exact hcut.explained hkind
      · exact ih htoken

namespace FileReport

theorem tokenLine_eq (token : Token) : tokenLine token = token.listed ++ "\n" := rfl

theorem listed_eq (token : Token) : token.listed =
    s!"{token.line}:{token.column} {token.kind.name} " ++ Text.quoted token.value := by
  apply String.toList_inj.1
  simp [Token.toList_listed, Position.toList_text, Token.position]
  rfl

theorem mem_diagnostics {path source : String} {diagnostic : Diagnostic}
    (hdiagnostic : diagnostic ∈ (ofTokens path source).diagnostics) :
    ∃ token ∈ Source.tokens source, token.kind = .illegal ∧ diagnostic = .illegal token := by
  obtain ⟨token, htoken, rfl⟩ := List.mem_map.1 hdiagnostic
  obtain ⟨hfound, hkind⟩ := List.mem_filter.1 htoken
  exact ⟨token, hfound, of_decide_eq_true hkind, rfl⟩

/-- The lines of a listing are the tokens, and an empty line stands behind the last one. -/
theorem lines_ofTokens (path source : String) :
    Source.lines (ofTokens path source).output.toList =
      ((Source.tokens source).map fun token => token.listed.toList) ++ [[]] := by
  have houtput : (ofTokens path source).output.toList =
      (Source.tokens source).flatMap fun token => token.listed.toList ++ ['\n'] := by
    have hjoin := Text.toList_foldl_append id ((Source.tokens source).map tokenLine) ""
    have hlines : (ofTokens path source).output =
        ((Source.tokens source).map tokenLine).foldl (fun written item => written ++ id item) "" :=
      rfl
    rw [hlines, hjoin, List.flatMap_map]
    simp [tokenLine_eq]
  rw [houtput, Source.lines, Text.pieces_flatMap fun token _ => token.newline_notMem_listed]

/-- A token listing encodes the tokens faithfully.  It has exactly one line for each token, in
order, so equal listings are listings of equal tokens.  Its diagnostics are one for each
illegal token, in order, and the code tells apart open strings, number runs and stray
characters.  In quoted values a character has a short spelling, or stands as it is, or is
spelled by its code point; controls and the other characters of `hiddenRanges` are always
spelled, and of those of `shownRanges` only the quote and the backslash are. -/
theorem ofTokens_faithful (path source : String) :
    Source.lines (ofTokens path source).output.toList =
        ((Source.tokens source).map fun token =>
          (s!"{token.line}:{token.column} {token.kind.name} " ++
            Text.quoted token.value).toList) ++ [[]] ∧
      (∀ path' source', (ofTokens path source).output = (ofTokens path' source').output →
        Source.tokens source = Source.tokens source') ∧
      (ofTokens path source).diagnostics.map (·.got) =
        (Source.tokens source).filter (·.kind = .illegal) ∧
      (∀ diagnostic ∈ (ofTokens path source).diagnostics,
        (diagnostic.code.text = "E0001" ↔
          diagnostic.got.value.toList ∈ Pattern.openString.language) ∧
        (diagnostic.code.text = "E0003" ↔
          diagnostic.got.value.toList ∈ Pattern.number.language) ∧
        (diagnostic.code.text = "E0002" ↔
          ∃ c, diagnostic.got.value.toList = [c] ∧ [c] ∉ Pattern.forms)) ∧
      (∀ c, Text.Spelled c (Text.escape c)) ∧
      (∀ c, Text.Among Text.hiddenRanges c.toNat → Text.escape c ≠ [c]) ∧
      ∀ c, Text.Among Text.shownRanges c.toNat → c ≠ '"' → c ≠ '\\' → Text.escape c = [c] := by
  have hlines := lines_ofTokens path source
  refine ⟨?_, fun path' source' hsame => ?_, ?_, fun diagnostic hdiagnostic => ?_,
    Text.escape_spelled, fun c => Text.escape_of_hidden, fun c => Text.escape_of_shown⟩
  · simpa only [listed_eq] using hlines
  · rw [hsame, lines_ofTokens path' source'] at hlines
    have htokens := List.append_cancel_right hlines
    exact (List.map_injective_iff.2 (fun first second hline =>
      Token.listed_inj (String.toList_inj.1 hline)) htokens).symm
  · simp [ofTokens, Function.comp_def, Diagnostic.illegal]
  · obtain ⟨token, htoken, hkind, rfl⟩ := mem_diagnostics hdiagnostic
    have hexplains := (Source.tokens_lexes source).explained htoken hkind
    obtain ⟨hopen, hnumber, hstray⟩ := hexplains.eq_iff
    have htext (code : ErrorCode) : (Diagnostic.illegal token).code.text = code.text ↔
        (Diagnostic.illegal token).code = code := ErrorCode.text_eq_iff
    exact ⟨(htext .unterminatedString).trans hopen, (htext .malformedNumber).trans hnumber,
      (htext .invalidCharacter).trans hstray⟩

end FileReport

end OriSyntax
