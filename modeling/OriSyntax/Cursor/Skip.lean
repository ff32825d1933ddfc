import OriSyntax.Cursor
import OriSyntax.KindSet

/-!
Skips: ways to read past tokens that belong to no construct.  Each is a rule that
looks at the next token, at whether it opens a line, and at how many delimiters
are open, and tells whether to stop before it, to stop behind it, or to go on.
Every skip ends at the end of the file at the latest.
-/

namespace OriSyntax

/-- What to do with the next token of a skip. -/
inductive Skip where
  /-- Leave it and end the skip. -/
  | stop
  /-- Read it and end the skip. -/
  | finish
  /-- Read it and go on with `depth` open delimiters. -/
  | proceed (depth : Nat)
deriving DecidableEq, Repr

namespace Skip

/-- A rule for skips: from the number of open delimiters, whether the next token
opens a line, and its kind. -/
abbrev Rule := Nat → Bool → Kind → Skip

/-- Go on, and count the braces. -/
def countBraces (depth : Nat) (kind : Kind) : Skip :=
  if kind = .lbrace then proceed (depth + 1)
  else if kind = .rbrace then proceed (depth - 1)
  else proceed depth

/-- Up to a kind of the set outside braces.  A closing brace without an opening
one counts as outside. -/
def toSet (set : KindSet) : Rule := fun depth _ kind =>
  if depth = 0 && set.contains kind then stop else countBraces depth kind

/-- Up to the end of a statement: outside braces a semicolon, a closing brace or a
new line. -/
def statement : Rule := fun depth opensLine kind =>
  if depth = 0 && (KindSet.stmtEnd.contains kind || opensLine) then stop
  else countBraces depth kind

/-- Up to the end of an expression: outside all delimiters a comma, a colon, an
opening brace, a kind that closes something, or a new line. -/
def expression : Rule := fun depth opensLine kind =>
  if depth = 0 &&
      (kind.isClosing || opensLine || kind ∈ [.comma, .colon, .lbrace]) then stop
  else if kind ∈ [.lparen, .lbracket, .lbrace] then proceed (depth + 1)
  else if kind ∈ [.rparen, .rbracket, .rbrace] then proceed (depth - 1)
  else proceed depth

/-- Past the parenthesis that closes a list.  Outside inner parentheses a brace or
a semicolon belongs to what surrounds the list and ends the skip before it. -/
def list : Rule := fun depth _ kind =>
  if kind = .rparen then if depth = 0 then finish else proceed (depth - 1)
  else if kind = .lparen then proceed (depth + 1)
  else if depth = 0 && kind ∈ [.lbrace, .rbrace, .semicolon] then stop
  else proceed depth

/-- Past the brace that closes a body whose opening brace was read. -/
def block : Rule := fun depth _ kind =>
  if kind = .lbrace then proceed (depth + 1)
  else if kind = .rbrace then if depth = 0 then finish else proceed (depth - 1)
  else proceed depth

/-- Past the body of a construct whose header is broken; before the body a closing
brace or a new line ends the skip.  A depth of zero means that the body was not
reached. -/
def compound : Rule := fun depth opensLine kind =>
  if depth = 0 then
    if kind = .rbrace then stop
    else if kind = .lbrace then proceed 1
    else if opensLine then stop
    else proceed 0
  else if kind = .lbrace then proceed (depth + 1)
  else if kind = .rbrace then if depth = 1 then finish else proceed (depth - 1)
  else proceed depth

end Skip

namespace Cursor

/-- The cursor past the tokens of `ahead` that a rule skips. -/
def skipAlong (rule : Skip.Rule) : List Token → Nat → Cursor → Cursor
  | [], _, cursor => cursor
  | token :: rest, depth, cursor =>
      match rule depth cursor.opensLine token.kind with
      | .stop => cursor
      | .finish => cursor.next
      | .proceed depth => skipAlong rule rest depth cursor.next

/-- The cursor past what a rule skips. -/
def skip (rule : Skip.Rule) (cursor : Cursor) : Cursor :=
  skipAlong rule cursor.ahead 0 cursor

/-- The cursor at the next kind of the set outside braces, or at the end of the
file if there is none. -/
def synchronize (set : KindSet) (cursor : Cursor) : Cursor :=
  cursor.skip (Skip.toSet set)

/-- Whether `synchronize` comes to a kind of the set. -/
def synchronizes (set : KindSet) (cursor : Cursor) : Bool :=
  !(cursor.synchronize set).atEof

end Cursor

end OriSyntax
