import Mathlib.Data.String.Basic
import OriSyntax.Files

/-!
The order of paths, and what a path's names say.  Paths are compared name by name, and names
byte by byte.  A character takes one to four bytes, more of them the greater it is, and the
first byte tells how many; so names stand in the same order whether their characters or their
bytes are compared.
-/

namespace OriSyntax

namespace Text

/-- The bytes of a text. -/
def bytes (text : String) : List UInt8 := text.toUTF8.data.toList

theorem bytes_eq (text : String) :
    bytes text = text.toList.flatMap String.utf8EncodeChar := by
  have htext : text.toUTF8 = text.toList.utf8Encode := by
    rw [String.toUTF8_eq_toByteArray, ← String.toByteArray_ofList, String.ofList_toList]
  rw [bytes, htext, List.utf8Encode, List.toList_data_toByteArray]

/-- Rows of bytes are ordered by the first byte in which they differ. -/
theorem ofNat_cons_lt {first second : Nat} {rest more : List UInt8} (hsecond : second < 256)
    (hle : first ≤ second) (hrest : first = second → rest < more) :
    UInt8.ofNat first :: rest < UInt8.ofNat second :: more := by
  rw [List.cons_lt_cons_iff, UInt8.lt_iff_toNat_lt, UInt8.toNat_ofNat', UInt8.toNat_ofNat',
    Nat.mod_eq_of_lt hsecond, Nat.mod_eq_of_lt (Nat.lt_of_le_of_lt hle hsecond)]
  rcases Nat.lt_or_eq_of_le hle with hless | rfl
  · exact .inl hless
  · exact .inr ⟨rfl, hrest rfl⟩

/-- The bytes of two characters differ before either has no more of them. -/
theorem utf8EncodeChar_append_lt {c d : Char} (hless : c < d) (rest more : List UInt8) :
    String.utf8EncodeChar c ++ rest < String.utf8EncodeChar d ++ more := by
  have hvalue : c.val.toNat < d.val.toNat := UInt32.lt_iff_toNat_lt.1 hless
  have hvalid : d.val.toNat < 55296 ∨ 57343 < d.val.toNat ∧ d.val.toNat < 1114112 := d.valid
  unfold String.utf8EncodeChar
  generalize c.val.toNat = v at hvalue ⊢
  generalize d.val.toNat = w at hvalue hvalid ⊢
  dsimp only
  split_ifs
  all_goals simp only [List.cons_append, List.nil_append]
  -- byte by byte: this one decides, or both have the same here
  all_goals repeat' refine ofNat_cons_lt (by omega) (by omega) fun _ => ?_
  all_goals omega

theorem bytes_lt_of_lt {first second : String} (hless : first < second) :
    bytes first < bytes second := by
  rw [String.lt_iff_toList_lt] at hless
  rw [bytes_eq, bytes_eq]
  generalize first.toList = one at hless ⊢
  generalize second.toList = other at hless ⊢
  induction one generalizing other with
  | nil =>
      cases other with
      | nil => exact absurd hless (List.lt_irrefl [])
      | cons d more =>
          have hsome : 0 < (String.utf8EncodeChar d).length := by
            rw [String.length_utf8EncodeChar]
            exact d.utf8Size_pos
          obtain ⟨byte, others, hbytes⟩ := List.exists_cons_of_length_pos hsome
          rw [List.flatMap_cons, hbytes]
          exact List.nil_lt_cons _ _
  | cons c rest ih =>
      cases other with
      | nil => exact absurd hless (List.not_lt_nil _)
      | cons d more =>
          rw [List.flatMap_cons, List.flatMap_cons]
          rcases List.cons_lt_cons_iff.1 hless with hhead | ⟨rfl, htail⟩
          · exact utf8EncodeChar_append_lt hhead _ _
          · exact List.append_left_lt (ih _ htail)

end Text

namespace Path

/-- Names that an entry of a directory can have. -/
structure IsName (name : String) : Prop where
  ne_empty : name ≠ ""
  ne_dot : name ≠ "."
  ne_dots : name ≠ ".."
  slash_notMem : '/' ∉ name.toList

instance (name : String) : Decidable (IsName name) :=
  decidable_of_iff (name ≠ "" ∧ name ≠ "." ∧ name ≠ ".." ∧ '/' ∉ name.toList)
    ⟨fun ⟨hempty, hdot, hdots, hslash⟩ => ⟨hempty, hdot, hdots, hslash⟩,
      fun hname => ⟨hname.ne_empty, hname.ne_dot, hname.ne_dots, hname.slash_notMem⟩⟩

/-- The names through which a path leads. -/
def names (path : String) : List String :=
  (parts path).filter fun part => part ≠ "" && part ≠ "."

/-- The path that leads on from a directory through these names. -/
def descend (dir : String) (names : List String) : String := names.foldl join dir

/-- Earlier paths come first: they are compared name by name, and names byte by byte. -/
def Before (first second : String) : Prop :=
  (names first).map Text.bytes < (names second).map Text.bytes

/-- The name is a stem, which is not empty, with this extension behind a dot. -/
def HasExtension (extension name : String) : Prop :=
  ∃ stem, stem ≠ "" ∧ name = stem ++ "." ++ extension ∧ '.' ∉ extension.toList

/-- The name ends as those of directories with code of others do. -/
def EndsInVendor (name : String) : Prop := ∃ stem, name = stem ++ ".vendor"

theorem suffix_iff {ending name : String} :
    ending.toList.isSuffixOf name.toList ↔ ∃ stem, name = stem ++ ending := by
  rw [List.isSuffixOf_iff_suffix]
  constructor
  · rintro ⟨stem, hstem⟩
    refine ⟨String.ofList stem, ?_⟩
    rw [← String.toList_inj, String.toList_append, String.toList_ofList, hstem]
  · rintro ⟨stem, rfl⟩
    rw [String.toList_append]
    exact List.suffix_append _ _

theorem isVendor_iff {name : String} : isVendor name ↔ EndsInVendor name := suffix_iff

theorem hasEnding_iff {ending extension name : String} (hending : ending = "." ++ extension)
    (hextension : '.' ∉ extension.toList) :
    hasEnding ending name ↔ HasExtension extension name := by
  rw [hasEnding, Bool.and_eq_true, suffix_iff, decide_eq_true_eq, hending]
  constructor
  · rintro ⟨⟨stem, rfl⟩, hstem⟩
    refine ⟨stem, ?_, String.append_assoc.symm, hextension⟩
    rintro rfl
    exact hstem String.empty_append
  · rintro ⟨stem, hstem, rfl, -⟩
    refine ⟨⟨stem, String.append_assoc⟩, fun hsame => hstem ?_⟩
    rw [String.append_assoc, ← String.toList_inj, String.toList_append] at hsame
    exact String.toList_eq_nil_iff.1
      (List.append_cancel_right (hsame.trans (List.nil_append _).symm))

theorem isSource_iff {name : String} :
    isSource name ↔ HasExtension "ori" name ∨ HasExtension "mod" name := by
  rw [isSource, Bool.or_eq_true]
  exact or_congr (hasEnding_iff (by decide) (by decide)) (hasEnding_iff (by decide) (by decide))

theorem parts_of_slash {path name : String} {front : List Char} (hname : '/' ∉ name.toList)
    (hpath : path.toList = front ++ '/' :: name.toList) :
    parts path = (Text.pieces '/' front).map String.ofList ++ [name] := by
  rw [parts, hpath, Text.pieces_append, Text.pieces_of_not_mem hname, List.map_append,
    List.map_singleton, String.ofList_toList]

/-- An entry's path leads through the names of its directory's path and then its own. -/
theorem names_join {name : String} (hname : IsName name) (dir : String) :
    names (join dir name) = names dir ++ [name] := by
  have hkept : [name].filter (fun part => part ≠ "" && part ≠ ".") = [name] := by
    simp [hname.ne_empty, hname.ne_dot]
  rw [join]
  split
  · next hends =>
      rw [Bool.or_eq_true, decide_eq_true_eq, String.isEmpty_iff] at hends
      rcases hends with rfl | hslash
      · rw [String.empty_append, names, names, parts, Text.pieces_of_not_mem hname.slash_notMem,
          List.map_singleton, String.ofList_toList, hkept]
        rfl
      · -- the path ends in an empty part, in the place of which the name comes
        obtain ⟨front, hfront⟩ := List.getLast?_eq_some_iff.1 hslash
        have hdir : parts dir = (Text.pieces '/' front).map String.ofList ++ [""] :=
          parts_of_slash (by decide) hfront
        have hall : parts (dir ++ name) = (Text.pieces '/' front).map String.ofList ++ [name] :=
          parts_of_slash hname.slash_notMem (by simp [hfront])
        rw [names, names, hdir, hall, List.filter_append, List.filter_append, hkept]
        simp
  · have hall : parts (dir ++ "/" ++ name) = parts dir ++ [name] :=
      parts_of_slash hname.slash_notMem (by simp)
    rw [names, names, hall, List.filter_append, hkept]

theorem names_descend {steps : List String} (hsteps : ∀ step ∈ steps, IsName step)
    (dir : String) : names (descend dir steps) = names dir ++ steps := by
  induction steps generalizing dir with
  | nil => rw [descend, List.foldl_nil, List.append_nil]
  | cons step rest ih =>
      rw [List.forall_mem_cons] at hsteps
      have hrest := ih hsteps.2 (join dir step)
      rw [names_join hsteps.1, List.append_assoc, List.singleton_append] at hrest
      exact hrest

theorem descend_inj {dir : String} {steps others : List String}
    (hsteps : ∀ step ∈ steps, IsName step) (hothers : ∀ step ∈ others, IsName step)
    (hsame : descend dir steps = descend dir others) : steps = others := by
  have hnames := congrArg names hsame
  rw [names_descend hsteps, names_descend hothers] at hnames
  exact List.append_cancel_left hnames

theorem not_before_self (path : String) : ¬ Before path path := List.lt_irrefl _

/-- Whatever lies below an earlier entry comes before all that lies below a later one. -/
theorem before_descend {dir first second : String} {steps others : List String}
    (hfirst : ∀ step ∈ first :: steps, IsName step)
    (hsecond : ∀ step ∈ second :: others, IsName step) (hless : first < second) :
    Before (descend dir (first :: steps)) (descend dir (second :: others)) := by
  rw [Before, names_descend hfirst, names_descend hsecond, List.map_append, List.map_append]
  apply List.append_left_lt
  rw [List.map_cons, List.map_cons, List.cons_lt_cons_iff]
  exact .inl (Text.bytes_lt_of_lt hless)

end Path

end OriSyntax
