import OriSyntax.Token

/-!
Trees of types and expressions.  A node keeps the tokens that delimit it, and a
construct that could not be read is a bad node of its category.
-/

namespace OriSyntax

/-- What stands for a construct that could not be read: the first and the last
token of what was given up, and why. -/
structure BadNode where
  first : Token
  last : Token
  reason : String
deriving DecidableEq, Repr, Inhabited

/-- Items between an opening and a closing delimiter. -/
structure Enclosed (α : Type) where
  opening : Token
  items : List α
  closing : Token
deriving DecidableEq, Repr

/-- A reference to a type, always by one name. -/
inductive TypeExpr where
  | named (name : Token)
  | bad (node : BadNode)
deriving DecidableEq, Repr

/-- The four sorts of literals. -/
inductive LiteralSort where
  | int | float | bool | string
deriving DecidableEq, Repr

/-- Expressions. -/
inductive Expr where
  | ident (name : Token)
  | literal (sort : LiteralSort) (value : Token)
  | paren (opening : Token) (inner : Expr) (closing : Token)
  | unary (op : Token) (operand : Expr)
  | binary (left : Expr) (op : Token) (right : Expr)
  | selector (base : Expr) (dot : Token) (name : Token)
  | index (base : Expr) (opening : Token) (inner : Expr) (closing : Token)
  | call (callee : Expr) (args : Enclosed Expr)
  | bad (node : BadNode)

namespace TypeExpr

/-- The first token of a type. -/
def first : TypeExpr → Token
  | named name => name
  | bad node => node.first

/-- The last token of a type. -/
def last : TypeExpr → Token
  | named name => name
  | bad node => node.last

/-- What a listing calls the node. -/
def nodeName : TypeExpr → String
  | named _ => "NameType"
  | bad _ => "BadType"

end TypeExpr

namespace Expr

/-- The first token of an expression, that of its leftmost part. -/
def first : Expr → Token
  | ident name => name
  | literal _ value => value
  | paren opening _ _ => opening
  | unary op _ => op
  | binary left _ _ => left.first
  | selector base _ _ => base.first
  | index base _ _ _ => base.first
  | call callee _ => callee.first
  | bad node => node.first

/-- The last token of an expression, that of its rightmost part. -/
def last : Expr → Token
  | ident name => name
  | literal _ value => value
  | paren _ _ closing => closing
  | unary _ operand => operand.last
  | binary _ _ right => right.last
  | selector _ _ name => name
  | index _ _ _ closing => closing
  | call _ args => args.closing
  | bad node => node.last

/-- Expressions that can be assigned to. -/
def isAssignable : Expr → Bool
  | ident _ | selector .. | index .. => true
  | _ => false

/-- Whether the expression is a call. -/
def isCall : Expr → Bool
  | call .. => true
  | _ => false

/-- Whether the expression could not be read. -/
def isBad : Expr → Bool
  | bad _ => true
  | _ => false

/-- The operator that joins the two halves of a binary expression. -/
def binaryOp? : Expr → Option Token
  | binary _ op _ => some op
  | _ => none

/-- Whether the expression itself compares two values. -/
def isComparison (expr : Expr) : Bool :=
  expr.binaryOp?.any (·.kind.isComparison)

/-- What a listing calls the node. -/
def nodeName : Expr → String
  | ident _ => "IdentExpr"
  | literal .int _ => "IntLitExpr"
  | literal .float _ => "FloatLitExpr"
  | literal .bool _ => "BoolLitExpr"
  | literal .string _ => "StringLitExpr"
  | paren .. => "ParenExpr"
  | unary .. => "UnaryExpr"
  | binary .. => "BinaryExpr"
  | selector .. => "SelectorExpr"
  | index .. => "IndexExpr"
  | call .. => "CallExpr"
  | bad _ => "BadExpr"

end Expr

end OriSyntax
