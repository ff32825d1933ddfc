/-!
Cutting a text at each occurrence of a character.
-/

namespace OriSyntax.Text

/-- The pieces of a text between the occurrences of `separator`, in order.  There
is always one piece more than there are separators. -/
def pieces (separator : Char) (text : List Char) : List (List Char) :=
  text.foldr
    (fun c below =>
      if c = separator then [] :: below
      else match below with
        | [] => [[c]]
        | piece :: rest => (c :: piece) :: rest)
    [[]]

@[simp] theorem pieces_nil (separator : Char) : pieces separator [] = [[]] := rfl

theorem pieces_cons_separator (separator : Char) (rest : List Char) :
    pieces separator (separator :: rest) = [] :: pieces separator rest := by
  simp [pieces]

theorem pieces_ne_nil (separator : Char) (text : List Char) :
    pieces separator text ≠ [] := by
  cases text with
  | nil => simp
  | cons c rest =>
      rw [pieces, List.foldr_cons]
      split
      · simp
      · split <;> simp

/-- Any other character than the separator belongs to the first piece. -/
theorem pieces_cons_of_ne {separator c : Char} (hc : c ≠ separator) {text piece : List Char}
    {others : List (List Char)} (hpieces : pieces separator text = piece :: others) :
    pieces separator (c :: text) = (c :: piece) :: others := by
  rw [pieces] at hpieces ⊢
  rw [List.foldr_cons, if_neg hc, hpieces]

theorem pieces_of_not_mem {separator : Char} {text : List Char}
    (htext : separator ∉ text) : pieces separator text = [text] := by
  induction text with
  | nil => rfl
  | cons c rest ih =>
      rw [List.mem_cons, not_or] at htext
      exact pieces_cons_of_ne (Ne.symm htext.1) (ih htext.2)

/-- The pieces of a text are those before a separator and those behind it. -/
theorem pieces_append (separator : Char) (first rest : List Char) :
    pieces separator (first ++ separator :: rest) =
      pieces separator first ++ pieces separator rest := by
  induction first with
  | nil => exact pieces_cons_separator separator rest
  | cons c more ih =>
      rw [List.cons_append]
      by_cases hc : c = separator
      · subst hc
        rw [pieces_cons_separator, pieces_cons_separator, ih, List.cons_append]
      · obtain ⟨piece, others, hpieces⟩ :=
          List.exists_cons_of_ne_nil (pieces_ne_nil separator more)
        rw [hpieces, List.cons_append] at ih
        rw [pieces_cons_of_ne hc ih, pieces_cons_of_ne hc hpieces, List.cons_append]

/-- Up to its first separator a text is a piece of its own. -/
theorem pieces_append_separator {separator : Char} {first : List Char}
    (hfirst : separator ∉ first) (rest : List Char) :
    pieces separator (first ++ separator :: rest) = first :: pieces separator rest := by
  rw [pieces_append, pieces_of_not_mem hfirst, List.singleton_append]

end OriSyntax.Text
