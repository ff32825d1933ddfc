import Mathlib.Tactic.SplitIfs
import OriSyntax.Outline
import OriSyntax.Text.Split

/-!
Quoted texts can be read back.  The spelling of a character ends where it says, so the
closing quote of a text is the first quote that belongs to no spelling; and whatever a text
holds, its quoted form is one line.  So tokens can be read from the lines that show them.
-/

namespace OriSyntax

/-- Two runs of a class that are followed by characters outside it end at the same place. -/
theorem run_append_inj {isIn : Char → Bool} {run run' rest rest' : List Char} {c c' : Char}
    (hrun : ∀ d ∈ run, isIn d) (hrun' : ∀ d ∈ run', isIn d) (hc : isIn c = false)
    (hc' : isIn c' = false) (hsame : run ++ c :: rest = run' ++ c' :: rest') :
    run = run' ∧ c :: rest = c' :: rest' := by
  have htaken := congrArg (List.takeWhile isIn) hsame
  rw [List.takeWhile_append_of_pos hrun, List.takeWhile_append_of_pos hrun',
    List.takeWhile_cons_of_neg (by simp [hc]), List.takeWhile_cons_of_neg (by simp [hc']),
    List.append_nil, List.append_nil] at htaken
  subst htaken
  exact ⟨rfl, List.append_cancel_left hsame⟩

namespace Digits

variable {base number other : Nat}

theorem digitChar_inj : ∀ first < 16, ∀ second < 16,
    first.digitChar = second.digitChar → first = second := by
  decide

/-- Numbers in the same base differ in their digits. -/
theorem toDigits_inj (hbase : 1 < base) (hdigits : base ≤ 16)
    (hsame : base.toDigits number = base.toDigits other) : number = other := by
  induction number using Nat.strongRecOn generalizing other with
  | _ number ih =>
      have hdigit (first : Nat) : first % base < 16 :=
        Nat.lt_of_lt_of_le (Nat.mod_lt first (Nat.zero_lt_of_lt hbase)) hdigits
      rcases Nat.lt_or_ge number base with hsmall | hlarge
      · rcases Nat.lt_or_ge other base with hsmall' | hlarge'
        · rw [Nat.toDigits_of_lt_base hsmall, Nat.toDigits_of_lt_base hsmall'] at hsame
          exact digitChar_inj _ (by omega) _ (by omega) (List.cons.inj hsame).1
        · rw [Nat.toDigits_of_lt_base hsmall, Nat.toDigits_of_base_le hbase hlarge'] at hsame
          have hlength := congrArg List.length hsame
          simp at hlength
      · rcases Nat.lt_or_ge other base with hsmall' | hlarge'
        · rw [Nat.toDigits_of_base_le hbase hlarge, Nat.toDigits_of_lt_base hsmall'] at hsame
          have hlength := congrArg List.length hsame
          simp at hlength
        · rw [Nat.toDigits_of_base_le hbase hlarge,
            Nat.toDigits_of_base_le hbase hlarge'] at hsame
          obtain ⟨hfront, hend⟩ := List.append_inj' hsame rfl
          have hquotient := ih (number / base)
            (Nat.div_lt_self (by omega) hbase) hfront
          have hremainder := digitChar_inj _ (hdigit number) _ (hdigit other)
            (List.cons.inj hend).1
          rw [← Nat.div_add_mod number base, ← Nat.div_add_mod other base, hquotient,
            hremainder]

theorem digitChar_isAlphanum : ∀ digit < 16, digit.digitChar.isAlphanum := by
  decide

theorem isAlphanum_of_mem (hbase : 1 < base) (hdigits : base ≤ 16) {c : Char}
    (hc : c ∈ base.toDigits number) : c.isAlphanum := by
  induction number using Nat.strongRecOn with
  | _ number ih =>
      rcases Nat.lt_or_ge number base with hsmall | hlarge
      · rw [Nat.toDigits_of_lt_base hsmall, List.mem_singleton] at hc
        exact hc ▸ digitChar_isAlphanum number (by omega)
      · rw [Nat.toDigits_of_base_le hbase hlarge, List.mem_append, List.mem_singleton] at hc
        rcases hc with hc | rfl
        · exact ih (number / base) (Nat.div_lt_self (by omega) hbase) hc
        · have hless := Nat.mod_lt number (Nat.zero_lt_of_lt hbase)
          exact digitChar_isAlphanum _ (by omega)

end Digits

namespace Text

/-- The characters with a spelling of two characters, and what stands behind its
backslash. -/
def shortSpellings : List (Char × Char) :=
  [('"', '"'), ('\\', '\\'), ('\t', 't'), ('\n', 'n'), ('\r', 'r'), ('\x00', '0')]

/-- How a character is spelled between quotes: by a short spelling if it has one, as it is if
it shows as a mark, and by its code point otherwise. -/
inductive Spelled (c : Char) : List Char → Prop where
  | short {letter : Char} (hletter : (c, letter) ∈ shortSpellings) : Spelled c ['\\', letter]
  | plain (hlong : ∀ letter, (c, letter) ∉ shortSpellings) (hmarked : isMarked c) :
      Spelled c [c]
  | code (hlong : ∀ letter, (c, letter) ∉ shortSpellings) (hmarked : isMarked c = false) :
      Spelled c (['\\', 'u', '\x7b'] ++ hexCode c ++ ['\x7d'])

theorem escape_spelled (c : Char) : Spelled c (escape c) := by
  unfold escape
  split_ifs with hquote hbackslash htab hfeed hreturn hnull hmarked
  · exact .short (by simp [hquote, shortSpellings])
  · exact .short (by simp [hbackslash, shortSpellings])
  · exact .short (by simp [htab, shortSpellings])
  · exact .short (by simp [hfeed, shortSpellings])
  · exact .short (by simp [hreturn, shortSpellings])
  · exact .short (by simp [hnull, shortSpellings])
  · exact .plain (by simp_all [shortSpellings]) hmarked
  · exact .code (by simp_all [shortSpellings]) (by simpa using hmarked)

variable {c d : Char} {text text' rest rest' : List Char}

theorem hexCode_inj (hsame : hexCode c = hexCode d) : c = d := by
  have hcode := Digits.toDigits_inj (by decide) (by decide) hsame
  exact Char.toNat_inj.1 hcode

theorem shortSpellings_letter :
    ∀ entry ∈ shortSpellings, ∀ other ∈ shortSpellings,
      entry.2 = other.2 → entry.1 = other.1 := by
  decide

theorem shortSpellings_plain : ∀ entry ∈ shortSpellings, entry.2 ≠ 'u' ∧ entry.2 ≠ '\n' := by
  decide

namespace Spelled

theorem ne_backslash (hlong : ∀ letter, (c, letter) ∉ shortSpellings) : c ≠ '\\' := by
  rintro rfl
  exact hlong '\\' (by decide)

/-- No spelling is the beginning of another one. -/
theorem append_inj (hspelled : Spelled c text) (hspelled' : Spelled d text')
    (hsame : text ++ rest = text' ++ rest') : c = d ∧ rest = rest' := by
  cases hspelled with
  | @short letter hletter =>
      cases hspelled' with
      | @short letter' hletter' =>
          simp only [List.cons_append, List.nil_append, List.cons.injEq, true_and] at hsame
          exact ⟨shortSpellings_letter _ hletter _ hletter' hsame.1, hsame.2⟩
      | plain hlong _ =>
          simp only [List.cons_append, List.nil_append, List.cons.injEq] at hsame
          exact absurd hsame.1.symm (ne_backslash hlong)
      | code _ _ =>
          simp only [List.cons_append, List.nil_append, List.cons.injEq] at hsame
          exact absurd hsame.2.1 (shortSpellings_plain _ hletter).1
  | plain hlong _ =>
      cases hspelled' with
      | short _ =>
          simp only [List.cons_append, List.nil_append, List.cons.injEq] at hsame
          exact absurd hsame.1 (ne_backslash hlong)
      | plain _ _ => simpa using hsame
      | code _ _ =>
          simp only [List.cons_append, List.nil_append, List.cons.injEq] at hsame
          exact absurd hsame.1 (ne_backslash hlong)
  | code _ _ =>
      cases hspelled' with
      | @short letter hletter =>
          simp only [List.cons_append, List.nil_append, List.cons.injEq] at hsame
          exact absurd hsame.2.1.symm (shortSpellings_plain _ hletter).1
      | plain hlong _ =>
          simp only [List.cons_append, List.nil_append, List.cons.injEq] at hsame
          exact absurd hsame.1.symm (ne_backslash hlong)
      | code _ _ =>
          simp only [List.cons_append, List.nil_append, List.append_assoc, List.cons.injEq,
            true_and] at hsame
          have halphanum (e : Char) : ∀ digit ∈ hexCode e, digit.isAlphanum :=
            fun _ hdigit => Digits.isAlphanum_of_mem (by decide) (by decide) hdigit
          obtain ⟨hcode, hrest⟩ :=
            run_append_inj (halphanum c) (halphanum d) (by decide) (by decide) hsame
          exact ⟨hexCode_inj hcode, (List.cons.inj hrest).2⟩

theorem head_ne_quote (hspelled : Spelled c text) : text ++ rest ≠ '"' :: rest' := by
  cases hspelled with
  | short _ => simp
  | plain hlong _ =>
      intro hsame
      rw [(List.cons.inj hsame).1] at hlong
      exact hlong '"' (by decide)
  | code _ _ => simp

theorem newline_notMem (hspelled : Spelled c text) : '\n' ∉ text := by
  cases hspelled with
  | short hletter =>
      have hplain := (shortSpellings_plain _ hletter).2
      simpa using hplain.symm
  | plain hlong _ =>
      intro hmem
      rw [← List.mem_singleton.1 hmem] at hlong
      exact hlong 'n' (by decide)
  | code _ _ =>
      have hhex : '\n' ∉ hexCode c := fun hmem =>
        absurd (Digits.isAlphanum_of_mem (by decide) (by decide) hmem) (by decide)
      simpa using hhex

end Spelled

theorem toList_quoted (text : String) :
    (quoted text).toList = '"' :: (text.toList.flatMap escape ++ ['"']) := by
  simp [quoted]

theorem flatMap_escape_inj {text text' : List Char}
    (hsame : text.flatMap escape ++ '"' :: rest = text'.flatMap escape ++ '"' :: rest') :
    text = text' ∧ rest = rest' := by
  induction text generalizing text' with
  | nil =>
      cases text' with
      | nil => exact ⟨rfl, (List.cons.inj hsame).2⟩
      | cons d more =>
          rw [List.flatMap_cons, List.append_assoc] at hsame
          exact absurd hsame.symm (escape_spelled d).head_ne_quote
  | cons c text ih =>
      cases text' with
      | nil =>
          rw [List.flatMap_cons, List.append_assoc] at hsame
          exact absurd hsame (escape_spelled c).head_ne_quote
      | cons d more =>
          rw [List.flatMap_cons, List.flatMap_cons, List.append_assoc, List.append_assoc] at hsame
          obtain ⟨rfl, hmore⟩ := (escape_spelled c).append_inj (escape_spelled d) hsame
          obtain ⟨rfl, hrest⟩ := ih hmore
          exact ⟨rfl, hrest⟩

/-- Behind equal quoted texts stand equal rests. -/
theorem quoted_append_inj {first second : String}
    (hsame : (quoted first).toList ++ rest = (quoted second).toList ++ rest') :
    first = second ∧ rest = rest' := by
  rw [toList_quoted, toList_quoted, List.cons_append, List.cons_append, List.append_assoc,
    List.append_assoc] at hsame
  obtain ⟨htext, hrest⟩ := flatMap_escape_inj (List.cons.inj hsame).2
  exact ⟨String.toList_inj.1 htext, hrest⟩

theorem quoted_inj {first second : String} (hsame : quoted first = quoted second) :
    first = second := by
  have hchars : (quoted first).toList ++ [] = (quoted second).toList ++ [] := by rw [hsame]
  exact (quoted_append_inj hchars).1

theorem newline_notMem_quoted (text : String) : '\n' ∉ (quoted text).toList := by
  have hescape : '\n' ∉ text.toList.flatMap escape := by
    intro hmem
    obtain ⟨c, -, hc⟩ := List.mem_flatMap.1 hmem
    exact (escape_spelled c).newline_notMem hc
  rw [toList_quoted]
  simpa using hescape

theorem toList_foldl_append {α : Type} (write : α → String) (items : List α)
    (written : String) :
    (items.foldl (fun written item => written ++ write item) written).toList =
      written.toList ++ items.flatMap fun item => (write item).toList := by
  induction items generalizing written with
  | nil => simp
  | cons item rest ih => simp [ih]

/-- Lines that are written one behind the other are the pieces between the line breaks. -/
theorem pieces_flatMap {α : Type} {line : α → List Char} {items : List α}
    (hline : ∀ item ∈ items, '\n' ∉ line item) :
    pieces '\n' (items.flatMap fun item => line item ++ ['\n']) = items.map line ++ [[]] := by
  induction items with
  | nil => rfl
  | cons item rest ih =>
      have hrest := ih fun other hother => hline other (List.mem_cons_of_mem item hother)
      rw [List.flatMap_cons, List.append_assoc, List.singleton_append,
        pieces_append_separator (hline item List.mem_cons_self), hrest]
      rfl

end Text

namespace Position

variable {first second : Position} {c d : Char} {rest rest' : List Char}

theorem toList_text (position : Position) :
    position.text.toList =
      Nat.toDigits 10 position.line ++ ':' :: Nat.toDigits 10 position.column := by
  simp [text]
  rfl

/-- Places that are followed by no digit can be told apart. -/
theorem text_append_inj (hc : c.isAlphanum = false) (hd : d.isAlphanum = false)
    (hsame : first.text.toList ++ c :: rest = second.text.toList ++ d :: rest') :
    first = second ∧ c :: rest = d :: rest' := by
  have halphanum (number : Nat) : ∀ digit ∈ Nat.toDigits 10 number, digit.isAlphanum :=
    fun _ hdigit => Digits.isAlphanum_of_mem (by decide) (by decide) hdigit
  rw [toList_text, toList_text, List.append_assoc, List.append_assoc, List.cons_append,
    List.cons_append] at hsame
  obtain ⟨hline, hbehind⟩ := run_append_inj (halphanum _) (halphanum _) (by decide) (by decide)
    hsame
  obtain ⟨hcolumn, hrest⟩ := run_append_inj (halphanum _) (halphanum _) hc hd
    (List.cons.inj hbehind).2
  obtain ⟨line, column⟩ := first
  obtain ⟨line', column'⟩ := second
  have hlines : line = line' := Digits.toDigits_inj (by decide) (by decide) hline
  have hcolumns : column = column' := Digits.toDigits_inj (by decide) (by decide) hcolumn
  exact ⟨by rw [hlines, hcolumns], hrest⟩

theorem newline_notMem_text (position : Position) : '\n' ∉ position.text.toList := by
  have hdigits (number : Nat) : '\n' ∉ Nat.toDigits 10 number := fun hmem =>
    absurd (Digits.isAlphanum_of_mem (by decide) (by decide) hmem) (by decide)
  simp [toList_text, hdigits]

end Position

namespace Kind

theorem name_isAlphanum : ∀ kind ∈ all, ∀ c ∈ kind.name.toList, c.isAlphanum := by
  have hall : ∀ kind ∈ all, kind.name.toList.all Char.isAlphanum := by decide
  exact fun kind hkind => List.all_eq_true.1 (hall kind hkind)

theorem ofName?_name : ∀ kind ∈ all, ofName? kind.name = some kind := by
  decide +kernel

/-- Names that are followed by no letter can be told apart. -/
theorem name_append_inj {first second : Kind} {c d : Char} {rest rest' : List Char}
    (hc : c.isAlphanum = false) (hd : d.isAlphanum = false)
    (hsame : first.name.toList ++ c :: rest = second.name.toList ++ d :: rest') :
    first = second ∧ c :: rest = d :: rest' := by
  obtain ⟨hname, hrest⟩ := run_append_inj (name_isAlphanum first (mem_all first))
    (name_isAlphanum second (mem_all second)) hc hd hsame
  have hfirst := ofName?_name first (mem_all first)
  rw [String.toList_inj.1 hname, ofName?_name second (mem_all second)] at hfirst
  exact ⟨(Option.some.inj hfirst).symm, hrest⟩

end Kind

namespace Token

variable {first second : Token}

/-- A token as a listing shows it: place, kind and quoted text. -/
def listed (token : Token) : String := token.position.text ++ " " ++ token.describe

theorem eq_of_parts (hkind : first.kind = second.kind) (hvalue : first.value = second.value)
    (hposition : first.position = second.position) : first = second := by
  obtain ⟨kind, value, line, column⟩ := first
  obtain ⟨kind', value', line', column'⟩ := second
  obtain ⟨hline, hcolumn⟩ := Position.mk.inj hposition
  dsimp only at hkind hvalue hline hcolumn
  rw [hkind, hvalue, hline, hcolumn]

theorem toList_listed (token : Token) :
    token.listed.toList = token.position.text.toList ++
      ' ' :: (token.kind.name.toList ++ ' ' :: (Text.quoted token.value).toList) := by
  simp [listed, describe]

/-- What a listing shows of a token is all of it. -/
theorem listed_inj (hsame : first.listed = second.listed) : first = second := by
  have hchars := congrArg String.toList hsame
  rw [toList_listed, toList_listed] at hchars
  obtain ⟨hposition, hbehind⟩ := Position.text_append_inj (by decide) (by decide) hchars
  obtain ⟨hkind, hvalue⟩ := Kind.name_append_inj (by decide) (by decide)
    (List.cons.inj hbehind).2
  have hvalue := Text.quoted_inj (String.toList_inj.1 (List.cons.inj hvalue).2)
  exact eq_of_parts hkind hvalue hposition

theorem newline_notMem_listed (token : Token) : '\n' ∉ token.listed.toList := by
  have hname : '\n' ∉ token.kind.name.toList := fun hmem =>
    absurd (Kind.name_isAlphanum _ (Kind.mem_all _) _ hmem) (by decide)
  simp [toList_listed, Position.newline_notMem_text, Text.newline_notMem_quoted, hname]

theorem toList_display (token : Token) :
    token.display.toList = (Text.quoted token.value).toList ++
      ' ' :: '@' :: (token.position.text.toList ++
        ' ' :: ("(kind=".toList ++ (Nat.toDigits 10 token.kind.index ++ [')']))) := by
  simp [display, Position.toList_text, position]
  rfl

/-- The same for tree listings. -/
theorem display_inj (hsame : first.display = second.display) : first = second := by
  have hchars := congrArg String.toList hsame
  rw [toList_display, toList_display] at hchars
  obtain ⟨hvalue, hbehind⟩ := Text.quoted_append_inj hchars
  simp only [List.cons.injEq, true_and] at hbehind
  obtain ⟨hposition, hkind⟩ := Position.text_append_inj (by decide) (by decide) hbehind
  have hindex := List.append_cancel_right
    (List.append_cancel_left (List.cons.inj hkind).2)
  have hkind := Kind.index_injective (Digits.toDigits_inj (by decide) (by decide) hindex)
  exact eq_of_parts hkind hvalue hposition

theorem newline_notMem_display (token : Token) : '\n' ∉ token.display.toList := by
  have hdigits : '\n' ∉ Nat.toDigits 10 token.kind.index := fun hmem =>
    absurd (Digits.isAlphanum_of_mem (by decide) (by decide) hmem) (by decide)
  simp [toList_display, Position.newline_notMem_text, Text.newline_notMem_quoted, hdigits]

end Token

end OriSyntax
