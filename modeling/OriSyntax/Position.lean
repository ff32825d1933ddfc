/-!
Places in a source text, counted in lines and bytes from one, and their order
along the text.
-/

namespace OriSyntax

/-- Coordinates are 32-bit numbers; whatever lies further along is counted here. -/
def maxCoordinate : Nat := 4294967295

/-- A line and a column.  Both count from one; a column counts bytes. -/
structure Position where
  line : Nat
  column : Nat
deriving DecidableEq, Repr, Inhabited

namespace Position

/-- The place of a token that stands nowhere in the text. -/
def nowhere : Position := ⟨0, 0⟩

/-- Earlier lines come first, and within a line earlier columns. -/
instance : LT Position where
  lt first second := first.line < second.line ∨
    first.line = second.line ∧ first.column < second.column

instance : LE Position where
  le first second := first.line < second.line ∨
    first.line = second.line ∧ first.column ≤ second.column

instance (first second : Position) : Decidable (first < second) :=
  inferInstanceAs (Decidable (_ ∨ _))

instance (first second : Position) : Decidable (first ≤ second) :=
  inferInstanceAs (Decidable (_ ∨ _))

/-- Which of two places comes first. -/
def order (first second : Position) : Ordering :=
  if first < second then .lt else if first = second then .eq else .gt

/-- The usual form, line and column joined by a colon. -/
def text (position : Position) : String :=
  s!"{position.line}:{position.column}"

theorem lt_def {first second : Position} : first < second ↔
    first.line < second.line ∨
      first.line = second.line ∧ first.column < second.column := Iff.rfl

theorem le_def {first second : Position} : first ≤ second ↔
    first.line < second.line ∨
      first.line = second.line ∧ first.column ≤ second.column := Iff.rfl

theorem not_lt {first second : Position} : ¬ first < second ↔ second ≤ first := by
  rw [lt_def, le_def]
  omega

end Position

end OriSyntax
