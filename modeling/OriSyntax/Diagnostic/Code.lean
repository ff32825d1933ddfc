/-!
Codes of diagnostics.  The first digit tells the phase: 0 for lexemes, 1 for
syntax.
-/

namespace OriSyntax

/-- What kind of mistake a diagnostic reports. -/
inductive ErrorCode where
  -- Lexemes.
  | unterminatedString | invalidCharacter | malformedNumber
  -- Syntax.
  | unexpectedToken | missingExpression | missingName | unsupportedType
  | malformedList | chainedComparison | assignmentInCondition | outsideLoop
  | misplacedBranch | repeatedDefault | invalidForClause | unsupportedStatement
  | misplacedDeclaration | emptyType | nestingTooDeep
deriving DecidableEq, Repr, Inhabited

namespace ErrorCode

/-- Every code once, in order. -/
def all : List ErrorCode :=
  [.unterminatedString, .invalidCharacter, .malformedNumber, .unexpectedToken,
    .missingExpression, .missingName, .unsupportedType, .malformedList,
    .chainedComparison, .assignmentInCondition, .outsideLoop, .misplacedBranch,
    .repeatedDefault, .invalidForClause, .unsupportedStatement,
    .misplacedDeclaration, .emptyType, .nestingTooDeep]

/-- The code as it is printed. -/
def text : ErrorCode → String
  | .unterminatedString => "E0001"
  | .invalidCharacter => "E0002"
  | .malformedNumber => "E0003"
  | .unexpectedToken => "E1001"
  | .missingExpression => "E1002"
  | .missingName => "E1003"
  | .unsupportedType => "E1004"
  | .malformedList => "E1005"
  | .chainedComparison => "E1006"
  | .assignmentInCondition => "E1007"
  | .outsideLoop => "E1008"
  | .misplacedBranch => "E1009"
  | .repeatedDefault => "E1010"
  | .invalidForClause => "E1011"
  | .unsupportedStatement => "E1012"
  | .misplacedDeclaration => "E1013"
  | .emptyType => "E1014"
  | .nestingTooDeep => "E1015"

/-- The code with a given text; ASCII letters may be of either case. -/
def ofText? (text : String) : Option ErrorCode :=
  all.find? fun code =>
    code.text.toList.map Char.toUpper = text.toList.map Char.toUpper

/-- Reading back what was printed gives the code. -/
theorem ofText?_text (code : ErrorCode) : ofText? code.text = some code := by
  cases code <;> decide

/-- Every code has a text of its own. -/
theorem text_eq_iff {code wanted : ErrorCode} : code.text = wanted.text ↔ code = wanted := by
  refine ⟨fun htext => ?_, congrArg text⟩
  have hcode := ofText?_text code
  rw [htext, ofText?_text wanted] at hcode
  exact (Option.some.inj hcode).symm

end ErrorCode

end OriSyntax
