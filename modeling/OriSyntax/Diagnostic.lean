import OriSyntax.Diagnostic.Code
import OriSyntax.Token

/-!
Diagnostics: what was found to be wrong, the token at which it was found, and the
lines that explain it.
-/

namespace OriSyntax

/-- How grave a diagnostic is. -/
inductive Severity where
  | error
deriving DecidableEq, Repr, Inhabited

/-- The word for a severity. -/
def Severity.text : Severity → String
  | error => "error"

/-- A single report.  Its place is that of the token `got`. -/
structure Diagnostic where
  code : ErrorCode
  severity : Severity := .error
  message : String
  got : Token
  notes : List String := []
deriving DecidableEq, Repr

namespace Diagnostic

/-- Whether the diagnostic makes a run fail. -/
def isError (diagnostic : Diagnostic) : Bool := diagnostic.severity = .error

/-- One line: place, message and the token found there. -/
def text (diagnostic : Diagnostic) : String :=
  diagnostic.got.position.text ++ " " ++ diagnostic.message ++ " (got " ++
    diagnostic.got.describe ++ ")"

/-- Something else was expected where `got` stands. -/
def expected (code : ErrorCode) (what : String) (got : Token) : Diagnostic where
  code := code
  message := "expected " ++ what
  got := got

/-- What makes a lexeme illegal, which its first character tells. -/
def lexicalCause (value : String) : ErrorCode :=
  match value.toList.head? with
  | some c =>
      if c = '"' then .unterminatedString
      else if c.isDigit || c = '.' then .malformedNumber
      else .invalidCharacter
  | none => .invalidCharacter

/-- The token `got` is no token of the language. -/
def illegal (got : Token) : Diagnostic where
  code := lexicalCause got.value
  message :=
    match lexicalCause got.value with
    | .unterminatedString => "unterminated string literal"
    | .malformedNumber => "malformed number literal"
    | _ => "invalid character"
  got := got

/-- A type of this kind may not stand here. -/
def unsupportedType (what : String) (got : Token) : Diagnostic where
  code := .unsupportedType
  message := "unsupported " ++ what
  got := got

/-- The commas of a list are wrong in the way that `message` tells. -/
def malformedList (message : String) (got : Token) : Diagnostic where
  code := .malformedList
  message := message
  got := got

/-- The operator `op` compares the outcome of a comparison. -/
def chainedComparison (op : Token) : Diagnostic where
  code := .chainedComparison
  message := "use && (e.g. a < b && b < c)"
  got := op
  notes := ["chained comparison needs parentheses or &&"]

/-- The operator `op` assigns where a condition stands. -/
def assignmentInCondition (op : Token) : Diagnostic where
  code := .assignmentInCondition
  message := "assignment not allowed in if condition; use =="
  got := op

/-- The statement `keyword` makes sense only inside a loop. -/
def outsideLoop (keyword : Token) : Diagnostic where
  code := .outsideLoop
  message := "expected '" ++ keyword.value ++ "' inside 'for' loop"
  got := keyword

/-- Something follows the statement `keyword` on its line. -/
def afterBranch (keyword got : Token) : Diagnostic where
  code := .misplacedBranch
  message := "unexpected token after '" ++ keyword.value ++ "'"
  got := got

/-- Statements follow a `fallthrough`. -/
def misplacedFallThrough (got : Token) : Diagnostic where
  code := .misplacedBranch
  message := "'fallthrough' must be the last statement in a case"
  got := got

/-- A switch has a second `default` clause. -/
def repeatedDefault (keyword : Token) : Diagnostic where
  code := .repeatedDefault
  message := "multiple defaults in switch"
  got := keyword

/-- The statement at `got` cannot be the clause `what` of a loop header. -/
def invalidForClause (what : String) (got : Token) : Diagnostic where
  code := .invalidForClause
  message := "invalid for " ++ what ++ " statement"
  got := got

/-- An expression at `got` that does nothing stands as a statement. -/
def unsupportedStatement (got : Token) : Diagnostic where
  code := .unsupportedStatement
  message := "unsupported statement"
  got := got

/-- No declaration begins with `got`. -/
def unexpectedAtFileScope (got : Token) : Diagnostic where
  code := .misplacedDeclaration
  message := "unexpected '" ++ got.value ++ "' at file scope"
  got := got

/-- A variable is declared outside every function. -/
def variableAtFileScope (keyword : Token) : Diagnostic where
  code := .misplacedDeclaration
  message := "unsupported statement"
  got := keyword
  notes := ["variables must be declared inside a function"]

/-- The type `name`, of the sort `what`, has no variant before `closing`. -/
def emptyType (what : String) (name closing : Token) : Diagnostic where
  code := .emptyType
  message := what ++ " '" ++ name.value ++ "' must have at least one variant"
  got := closing

/-- More than `limit` constructs are nested in each other at `got`. -/
def nestingTooDeep (limit : Nat) (got : Token) : Diagnostic where
  code := .nestingTooDeep
  message := s!"nesting deeper than {limit} levels"
  got := got

end Diagnostic

end OriSyntax
