import OriSyntax.Kind

/-!
How kinds are written: the name that reports use, the fixed spelling in source
text, and the table of reserved words.
-/

namespace OriSyntax

namespace Kind

/-- The name of a kind in reports. -/
def name : Kind → String
  | .illegal => "Illegal"
  | .eof => "EOF"
  | .comment => "Comment"
  | .ident => "Ident"
  | .intLit => "IntLit"
  | .floatLit => "FloatLit"
  | .stringLit => "StringLit"
  | .boolLit => "BoolLit"
  | .lparen => "LParen"
  | .rparen => "RParen"
  | .lbrace => "LBrace"
  | .rbrace => "RBrace"
  | .lbracket => "LBracket"
  | .rbracket => "RBracket"
  | .comma => "Comma"
  | .semicolon => "Semicolon"
  | .colon => "Colon"
  | .dot => "Dot"
  | .pipe => "Pipe"
  | .assign => "Assign"
  | .define => "Define"
  | .plusEq => "PlusEq"
  | .minusEq => "MinusEq"
  | .starEq => "StarEq"
  | .slashEq => "SlashEq"
  | .plus => "Plus"
  | .minus => "Minus"
  | .star => "Star"
  | .slash => "Slash"
  | .modulo => "Modulo"
  | .inc => "Inc"
  | .dec => "Dec"
  | .eq => "Eq"
  | .neq => "Neq"
  | .lt => "Lt"
  | .lte => "Lte"
  | .gt => "Gt"
  | .gte => "Gte"
  | .and => "And"
  | .or => "Or"
  | .not => "Not"
  | .packageKw => "Package"
  | .importKw => "Import"
  | .funcKw => "Func"
  | .varKw => "Var"
  | .constKw => "Const"
  | .typeKw => "Type"
  | .structKw => "Struct"
  | .interfaceKw => "Interface"
  | .enumKw => "Enum"
  | .sumKw => "Sum"
  | .implementsKw => "Implements"
  | .ifKw => "If"
  | .elseKw => "Else"
  | .forKw => "For"
  | .rangeKw => "Range"
  | .breakKw => "Break"
  | .continueKw => "Continue"
  | .switchKw => "Switch"
  | .caseKw => "Case"
  | .defaultKw => "Default"
  | .fallthroughKw => "Fallthrough"
  | .returnKw => "Return"
  | .boolTy => "Bool"
  | .intTy => "Int"
  | .int8Ty => "Int8"
  | .int32Ty => "Int32"
  | .int64Ty => "Int64"
  | .uintTy => "Uint"
  | .uint8Ty => "Uint8"
  | .uint32Ty => "Uint32"
  | .uint64Ty => "Uint64"
  | .floatTy => "Float"
  | .float32Ty => "Float32"
  | .float64Ty => "Float64"
  | .stringTy => "String"

/-- The source text of a kind that is always written the same way. -/
def spelling : Kind → Option String
  | .lparen => some "("
  | .rparen => some ")"
  | .lbrace => some "\x7b"
  | .rbrace => some "\x7d"
  | .lbracket => some "["
  | .rbracket => some "]"
  | .comma => some ","
  | .semicolon => some ";"
  | .colon => some ":"
  | .dot => some "."
  | .pipe => some "|"
  | .assign => some "="
  | .define => some ":="
  | .plusEq => some "+="
  | .minusEq => some "-="
  | .starEq => some "*="
  | .slashEq => some "/="
  | .plus => some "+"
  | .minus => some "-"
  | .star => some "*"
  | .slash => some "/"
  | .modulo => some "%"
  | .inc => some "++"
  | .dec => some "--"
  | .eq => some "=="
  | .neq => some "!="
  | .lt => some "<"
  | .lte => some "<="
  | .gt => some ">"
  | .gte => some ">="
  | .and => some "&&"
  | .or => some "||"
  | .not => some "!"
  | .packageKw => some "package"
  | .importKw => some "import"
  | .funcKw => some "func"
  | .varKw => some "var"
  | .constKw => some "const"
  | .typeKw => some "type"
  | .structKw => some "struct"
  | .interfaceKw => some "interface"
  | .enumKw => some "enum"
  | .sumKw => some "sum"
  | .implementsKw => some "implements"
  | .ifKw => some "if"
  | .elseKw => some "else"
  | .forKw => some "for"
  | .rangeKw => some "range"
  | .breakKw => some "break"
  | .continueKw => some "continue"
  | .switchKw => some "switch"
  | .caseKw => some "case"
  | .defaultKw => some "default"
  | .fallthroughKw => some "fallthrough"
  | .returnKw => some "return"
  | .boolTy => some "bool"
  | .intTy => some "int"
  | .int8Ty => some "int8"
  | .int32Ty => some "int32"
  | .int64Ty => some "int64"
  | .uintTy => some "uint"
  | .uint8Ty => some "uint8"
  | .uint32Ty => some "uint32"
  | .uint64Ty => some "uint64"
  | .floatTy => some "float"
  | .float32Ty => some "float32"
  | .float64Ty => some "float64"
  | .stringTy => some "string"
  | .illegal | .eof | .comment | .ident | .intLit | .floatLit | .stringLit
  | .boolLit => none

/-- The kind with a given name. -/
def ofName? (text : String) : Option Kind := all.find? (·.name = text)

/-- The kinds with a fixed spelling that is no word. -/
def symbols : List Kind :=
  all.filter fun kind => kind.spelling.isSome && !kind.isKeyword

/-- The kind of a reserved word, if `text` is one.  The two truth values are
reserved as well, and are literals. -/
def ofWord? (text : String) : Option Kind :=
  if text = "true" ∨ text = "false" then some .boolLit
  else all.find? fun kind => kind.isKeyword && kind.spelling = some text

end Kind

end OriSyntax
