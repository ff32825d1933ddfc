import OriSyntax.Lexeme.Pattern

/-!
Lexemes: the longest match at the head of a text, or a single character that no
pattern accepts.
-/

namespace OriSyntax

/-- A piece of a text with its kind. -/
structure Lexeme where
  kind : Kind
  text : List Char
deriving DecidableEq, Repr

namespace Lexeme

/-- Characters between lexemes within a line. -/
def isBlank (c : Char) : Bool := c = ' ' || c = '\t' || c = '\r'

/-- The lexeme at the head of the text `c :: rest`. -/
def head (c : Char) (rest : List Char) : Lexeme :=
  match Pattern.furthest (c :: rest) with
  | some (pattern, length) =>
      let text := c :: rest.take (length - 1)
      ⟨pattern.kindOf text, text⟩
  | none => ⟨.illegal, [c]⟩

/-- What follows the lexeme at the head of the text `c :: rest`. -/
def tail (c : Char) (rest : List Char) : List Char :=
  match Pattern.furthest (c :: rest) with
  | some (_, length) => rest.drop (length - 1)
  | none => rest

/-- Number of bytes that a piece of text takes up. -/
def byteLength (text : List Char) : Nat :=
  text.foldl (fun bytes c => bytes + c.utf8Size) 0

/-- The text that a token shows: the lexeme itself, except that the carriage
return of a line ending is no part of a comment. -/
def value (lexeme : Lexeme) : String :=
  if lexeme.kind = .comment ∧ lexeme.text.getLast? = some '\r' then
    String.ofList lexeme.text.dropLast
  else String.ofList lexeme.text

@[simp] theorem byteLength_nil : byteLength [] = 0 := rfl

theorem byteLength_append (front back : List Char) :
    byteLength (front ++ back) = byteLength front + byteLength back := by
  have hstart : ∀ (text : List Char) (start : Nat),
      text.foldl (fun bytes c => bytes + c.utf8Size) start =
        start + byteLength text := by
    intro text
    induction text with
    | nil => intro start; rfl
    | cons c rest ih =>
        intro start
        rw [byteLength, List.foldl_cons, List.foldl_cons, ih, ih]
        omega
  rw [byteLength, List.foldl_append, hstart]
  rfl

@[simp] theorem byteLength_cons (c : Char) (rest : List Char) :
    byteLength (c :: rest) = c.utf8Size + byteLength rest := by
  rw [← List.singleton_append, byteLength_append]
  simp [byteLength]

theorem tail_length_le (c : Char) (rest : List Char) :
    (tail c rest).length ≤ rest.length := by
  unfold tail
  split
  · simp
  · exact Nat.le_refl _

/-- A lexeme and what follows it make up the text. -/
theorem head_append_tail (c : Char) (rest : List Char) :
    (head c rest).text ++ tail c rest = c :: rest := by
  unfold head tail
  split <;> simp

end Lexeme

end OriSyntax
