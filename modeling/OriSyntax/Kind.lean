/-!
Kinds of tokens in Ori sources, in the order that numbers them, and the classes
of kinds that the grammar asks about.
-/

namespace OriSyntax

/-- What a token is.  A kind's place in this list is its number in a tree
listing, and every reserved word comes after every other kind. -/
inductive Kind where
  -- A lexeme that is no token; also the kind of the token that stands for none.
  | illegal | eof | comment
  -- Names and literals; a string literal keeps its quotes.
  | ident | intLit | floatLit | stringLit | boolLit
  -- Delimiters and separators.
  | lparen | rparen | lbrace | rbrace | lbracket | rbracket | comma
  | semicolon | colon | dot | pipe
  -- Assignment.
  | assign | define | plusEq | minusEq | starEq | slashEq
  -- Arithmetic, comparison, logic.
  | plus | minus | star | slash | modulo | inc | dec | eq | neq | lt | lte
  | gt | gte | and | or | not
  -- Reserved words.
  | packageKw | importKw | funcKw | varKw | constKw | typeKw | structKw
  | interfaceKw | enumKw | sumKw | implementsKw | ifKw | elseKw | forKw
  | rangeKw | breakKw | continueKw | switchKw | caseKw | defaultKw
  | fallthroughKw | returnKw
  -- Reserved words that name a builtin type.
  | boolTy | intTy | int8Ty | int32Ty | int64Ty | uintTy | uint8Ty | uint32Ty
  | uint64Ty | floatTy | float32Ty | float64Ty | stringTy
deriving DecidableEq, Repr, Inhabited

namespace Kind

/-- Every kind once, in order. -/
def all : List Kind :=
  [.illegal, .eof, .comment, .ident, .intLit, .floatLit, .stringLit,
   .boolLit, .lparen, .rparen, .lbrace, .rbrace, .lbracket, .rbracket,
   .comma, .semicolon, .colon, .dot, .pipe, .assign, .define, .plusEq,
   .minusEq, .starEq, .slashEq, .plus, .minus, .star, .slash, .modulo, .inc,
   .dec, .eq, .neq, .lt, .lte, .gt, .gte, .and, .or, .not, .packageKw,
   .importKw, .funcKw, .varKw, .constKw, .typeKw, .structKw, .interfaceKw,
   .enumKw, .sumKw, .implementsKw, .ifKw, .elseKw, .forKw, .rangeKw,
   .breakKw, .continueKw, .switchKw, .caseKw, .defaultKw, .fallthroughKw,
   .returnKw, .boolTy, .intTy, .int8Ty, .int32Ty, .int64Ty, .uintTy,
   .uint8Ty, .uint32Ty, .uint64Ty, .floatTy, .float32Ty, .float64Ty,
   .stringTy]

/-- The number of a kind, as tree listings write it. -/
def index (kind : Kind) : Nat := kind.ctorIdx

theorem all_getElem?_index (kind : Kind) : all[kind.index]? = some kind := by
  cases kind <;> rfl

theorem mem_all (kind : Kind) : kind ∈ all :=
  List.mem_of_getElem? (all_getElem?_index kind)

theorem index_injective {first second : Kind}
    (hindex : first.index = second.index) : first = second := by
  have hfirst := all_getElem?_index first
  rw [hindex, all_getElem?_index second] at hfirst
  exact (Option.some.inj hfirst).symm

/-- Reserved words, the builtin type names among them. -/
def isKeyword (kind : Kind) : Bool := index .packageKw ≤ kind.index

/-- The builtin number types. -/
def isNumericType (kind : Kind) : Bool :=
  kind ∈ [.intTy, .int8Ty, .int32Ty, .int64Ty, .uintTy, .uint8Ty, .uint32Ty,
    .uint64Ty, .floatTy, .float32Ty, .float64Ty]

/-- Kinds that may stand as the type of a constant, a variable or a field. -/
def isValueType (kind : Kind) : Bool :=
  kind.isNumericType || kind ∈ [.stringTy, .boolTy, .interfaceKw, .ident]

/-- Kinds that may stand as the type of a parameter or a result. -/
def isParamType (kind : Kind) : Bool := kind.isValueType || kind = .funcKw

/-- Operators that assign. -/
def isAssignOp (kind : Kind) : Bool :=
  kind ∈ [.assign, .define, .plusEq, .minusEq, .starEq, .slashEq]

/-- The increment and the decrement. -/
def isIncDec (kind : Kind) : Bool := kind ∈ [.inc, .dec]

/-- Operators that compare two values. -/
def isComparison (kind : Kind) : Bool :=
  kind ∈ [.eq, .neq, .lt, .lte, .gt, .gte]

/-- Kinds that end a construct; recovery never steps over one by itself. -/
def isClosing (kind : Kind) : Bool :=
  kind ∈ [.rparen, .rbracket, .rbrace, .semicolon, .eof]

end Kind

end OriSyntax
