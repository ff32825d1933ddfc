import OriSyntax.Lexeme
import OriSyntax.Text.Split
import OriSyntax.Token

/-!
The tokens of a source text.  No lexeme crosses a line break, so each line is
read by itself; blanks and line breaks leave no token, and one end-of-file token
closes the list.
-/

namespace OriSyntax.Source

/-- The lines of a text, without their line feeds.  There is always a last line,
which may be empty. -/
def lines (text : List Char) : List (List Char) := Text.pieces '\n' text

/-- The column of a byte, given the bytes of its line before it. -/
def column (before : Nat) : Nat := min (before + 1) maxCoordinate

/-- The tokens of what is left of line `line`, latest first and ahead of `found`;
`before` counts the bytes of the line already read. -/
def scanLine (line before : Nat) (input : List Char) (found : List Token) :
    List Token :=
  match input with
  | [] => found
  | c :: rest =>
      if Lexeme.isBlank c then scanLine line (before + c.utf8Size) rest found
      else
        let lexeme := Lexeme.head c rest
        scanLine line (before + Lexeme.byteLength lexeme.text) (Lexeme.tail c rest)
          (⟨lexeme.kind, lexeme.value, line, column before⟩ :: found)
termination_by input.length
decreasing_by
  · simp
  · exact Nat.lt_succ_of_le (Lexeme.tail_length_le c rest)

/-- The tokens of the lines from number `line` on, latest first and ahead of
`found`; the end-of-file token stands behind the last line. -/
def scanLines (line : Nat) (found : List Token) : List (List Char) → List Token
  | [] => found
  | [last] =>
      ⟨.eof, "", line, column (Lexeme.byteLength last)⟩ ::
        scanLine line 0 last found
  | first :: rest => scanLines (line + 1) (scanLine line 0 first found) rest

/-- The tokens of a source text in order, comments included. -/
def tokens (source : String) : List Token :=
  (scanLines 1 [] (lines source.toList)).reverse

end OriSyntax.Source
