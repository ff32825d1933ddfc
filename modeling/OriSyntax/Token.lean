import OriSyntax.Kind.Spelling
import OriSyntax.Position
import OriSyntax.Text.Quoted

/-!
Tokens: a kind, the text it was read from and the place of its first byte.
-/

namespace OriSyntax

/-- A lexeme with its kind and place.  The text of a string literal keeps its
quotes, that of a comment its slashes. -/
structure Token where
  kind : Kind
  value : String
  line : Nat
  column : Nat
deriving DecidableEq, Repr, Inhabited

namespace Token

/-- The token that stands for none. -/
def absent : Token := ⟨.illegal, "", 0, 0⟩

/-- Where the token begins. -/
def position (token : Token) : Position := ⟨token.line, token.column⟩

/-- Whether the token stands nowhere in the text. -/
def isAbsent (token : Token) : Bool := token.position = .nowhere

/-- The place just past the last byte of the token, on its own line. -/
def endPosition (token : Token) : Position :=
  if token.isAbsent then .nowhere
  else ⟨token.line, min (token.column + token.value.utf8ByteSize) maxCoordinate⟩

/-- The form that tree listings show: quoted text, place, number of the kind. -/
def display (token : Token) : String :=
  Text.quoted token.value ++
    s!" @{token.line}:{token.column} (kind={token.kind.index})"

/-- The form that token listings and reports show: kind and quoted text. -/
def describe (token : Token) : String :=
  token.kind.name ++ " " ++ Text.quoted token.value

end Token

/-- Names that begin with an ASCII capital are visible outside their package. -/
def isPublicName (name : String) : Bool :=
  name.toList.head?.any Char.isUpper

end OriSyntax
