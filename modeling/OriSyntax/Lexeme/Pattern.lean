import OriSyntax.Kind.Spelling
import OriSyntax.Lexeme.Number

/-!
The patterns of lexemes and how far each one reaches into a text.  Of all patterns
that match at a place, the one that reaches furthest wins.
-/

namespace OriSyntax

/-- A form that a lexeme can have. -/
inductive Pattern where
  /-- One of the fixed spellings that are no words. -/
  | symbol (kind : Kind)
  /-- Two slashes and the rest of the line. -/
  | comment
  /-- A run of digits, dots and separators. -/
  | number
  /-- Text between double quotes, on one line and without escapes. -/
  | string
  /-- A double quote that is not closed on its line. -/
  | openString
  /-- A letter or underscore, then letters, digits and underscores. -/
  | word
deriving DecidableEq, Repr

namespace Pattern

/-- Every pattern. -/
def all : List Pattern :=
  Kind.symbols.map symbol ++ [comment, number, string, openString, word]

/-- Characters that may open a word. -/
def isWordStart (c : Char) : Bool := c.isAlpha || c = '_'

/-- Characters that may continue a word. -/
def isWordPart (c : Char) : Bool := c.isAlphanum || c = '_'

/-- Characters that may stand between the quotes of a string. -/
def isStringPart (c : Char) : Bool := c ≠ '"' && c ≠ '\r' && c ≠ '\n'

/-- The length of the longest prefix of a text that has the form; zero if no
prefix has it. -/
def reach : Pattern → List Char → Nat
  | symbol kind, input =>
      match kind.spelling with
      | some text => if text.toList.isPrefixOf input then text.toList.length else 0
      | none => 0
  | comment, '/' :: '/' :: rest => 2 + (rest.takeWhile (· ≠ '\n')).length
  | comment, _ => 0
  | number, input => Number.reach input
  | string, '"' :: rest =>
      if (rest.dropWhile isStringPart).head? = some '"' then
        2 + (rest.takeWhile isStringPart).length
      else 0
  | string, _ => 0
  | openString, '"' :: rest => 1 + (rest.takeWhile isStringPart).length
  | openString, _ => 0
  | word, c :: rest =>
      if isWordStart c then 1 + (rest.takeWhile isWordPart).length else 0
  | word, [] => 0

/-- The better of two candidates: the one that reaches further, the first of
two that reach equally far. -/
def further (best : Option (Pattern × Nat)) (pattern : Pattern) (input : List Char) :
    Option (Pattern × Nat) :=
  let length := pattern.reach input
  if length > (best.map Prod.snd).getD 0 then some (pattern, length) else best

/-- The pattern that reaches furthest into a text, with its reach. -/
def furthest (input : List Char) : Option (Pattern × Nat) :=
  all.foldl (fun best pattern => further best pattern input) none

/-- The kind of a lexeme that has the form. -/
def kindOf : Pattern → List Char → Kind
  | symbol kind, _ => kind
  | comment, _ => .comment
  | number, text => Number.classify text
  | string, _ => .stringLit
  | openString, _ => .illegal
  | word, text => (Kind.ofWord? (String.ofList text)).getD .ident

end Pattern

end OriSyntax
