import OriSyntax.Tree.Expr

/-!
Trees of statements and declarations.  The two contain each other: a function has
a body of statements, and a type may be declared inside a body.
-/

namespace OriSyntax

/-- A constant or a variable with its initial value. -/
structure ValueDecl where
  keyword : Token
  name : Token
  type : Option TypeExpr
  eq : Token
  value : Expr

/-- A parameter or a result; only a result may be without a name. -/
structure Param where
  name : Option Token
  type : TypeExpr
deriving DecidableEq, Repr

/-- Parameters between parentheses. -/
abbrev ParamList := Enclosed Param

/-- What a function yields: one type, or a list in parentheses. -/
inductive Results where
  | single (type : TypeExpr)
  | list (params : ParamList)
deriving DecidableEq, Repr

/-- The package that a qualified name begins with, and the dot after it. -/
structure Qualifier where
  package : Token
  dot : Token
deriving DecidableEq, Repr

/-- A name, or a name within a package. -/
structure QualifiedName where
  qualifier : Option Qualifier
  name : Token
deriving DecidableEq, Repr

/-- The default value of a field, with the sign before it. -/
structure Default where
  eq : Token
  value : Expr

/-- A field of a structure. -/
structure FieldDecl where
  name : Token
  type : TypeExpr
  default : Option Default

/-- The signature of a method. -/
structure MethodSpec where
  name : Token
  params : ParamList
  results : Option Results
deriving DecidableEq, Repr

/-- A member of an interface: a method, or another interface taken in. -/
inductive InterfaceMember where
  | method (spec : MethodSpec)
  | embed (name : QualifiedName)
deriving DecidableEq, Repr

/-- A variant of a sum, with parameters or without. -/
structure SumVariant where
  name : Token
  params : Option ParamList
deriving DecidableEq, Repr

/-- A named type whose members stand in braces. -/
structure TypeDecl (α : Type) where
  typeKeyword : Token
  name : Token
  keyword : Token
  body : Enclosed α
deriving DecidableEq, Repr

/-- Types with fields. -/
abbrev StructDecl := TypeDecl FieldDecl

/-- Types that list what others must offer. -/
abbrev InterfaceDecl := TypeDecl InterfaceMember

/-- Types that list their values. -/
abbrev EnumDecl := TypeDecl Token

/-- Types that list their forms. -/
abbrev SumDecl := TypeDecl SumVariant

/-- The statement that a type offers what an interface asks. -/
structure ImplementsDecl where
  typeName : Token
  keyword : Token
  interface : QualifiedName
deriving DecidableEq, Repr

mutual

/-- Statements. -/
inductive Stmt where
  | block (body : Enclosed Stmt)
  | const (decl : ValueDecl)
  | var (decl : ValueDecl)
  | assign (left : Expr) (op : Token) (right : Expr)
  | incDec (target : Expr) (op : Token)
  /-- An expression evaluated for what it does. -/
  | effect (value : Expr)
  | returns (keyword : Token) (values : List Expr)
  /-- A condition with what follows if it holds, and if it does not. -/
  | ifElse (keyword : Token) (condition : Expr) (body : Enclosed Stmt)
      (otherwise : Option Stmt)
  /-- A loop with up to three clauses in its header. -/
  | forLoop (keyword : Token) (first : Option Stmt) (condition : Option Expr)
      (after : Option Stmt) (body : Enclosed Stmt)
  /-- A loop over the items of a value. -/
  | rangeLoop (keyword : Token) (key value : Option Expr) (op : Option Token)
      (rangeKeyword : Token) (subject : Expr) (body : Enclosed Stmt)
  | switch (keyword : Token) (first : Option Stmt) (tag : Option Expr)
      (cases : Enclosed Stmt)
  /-- A clause of a switch; it stands nowhere else. -/
  | clause (keyword : Token) (values : List Expr) (colon : Token)
      (body : List Stmt)
  | breakLoop (keyword : Token)
  | continueLoop (keyword : Token)
  | fallThrough (keyword : Token)
  /-- A type declared inside a body. -/
  | decl (decl : Decl)
  | bad (node : BadNode)

/-- Functions. -/
structure FuncDecl where
  keyword : Token
  name : Token
  params : ParamList
  results : Option Results
  body : Enclosed Stmt

/-- Declarations. -/
inductive Decl where
  | func (decl : FuncDecl)
  | struct (decl : StructDecl)
  | interface (decl : InterfaceDecl)
  | enum (decl : EnumDecl)
  | sum (decl : SumDecl)
  | implements (decl : ImplementsDecl)
  | bad (node : BadNode)

end

/-- Statements in braces. -/
abbrev Block := Enclosed Stmt

/-- Whether a named type is visible outside its package. -/
def TypeDecl.isPublic {α : Type} (decl : TypeDecl α) : Bool :=
  isPublicName decl.name.value

/-- Whether a field is visible outside its package. -/
def FieldDecl.isPublic (field : FieldDecl) : Bool :=
  isPublicName field.name.value

namespace Stmt

/-- Whether the statement evaluates a call for its effects. -/
def isCall : Stmt → Bool
  | effect value => value.isCall
  | _ => false

/-- Whether the statement could not be read. -/
def isBad : Stmt → Bool
  | bad _ => true
  | _ => false

/-- What a listing calls the node. -/
def nodeName : Stmt → String
  | block _ => "BlockStmt"
  | const _ => "ConstDecl"
  | var _ => "VarDecl"
  | assign .. => "AssignStmt"
  | incDec .. => "IncDecStmt"
  | effect _ => "ExprStmt"
  | returns .. => "ReturnStmt"
  | ifElse .. => "IfStmt"
  | forLoop .. => "ForStmt"
  | rangeLoop .. => "RangeStmt"
  | switch .. => "SwitchStmt"
  | clause .. => "CaseClause"
  | breakLoop _ => "BreakStmt"
  | continueLoop _ => "ContinueStmt"
  | fallThrough _ => "FallThroughStmt"
  | decl _ => "DeclStmt"
  | bad _ => "BadStmt"

end Stmt

namespace Decl

/-- Whether the declaration could not be read. -/
def isBad : Decl → Bool
  | bad _ => true
  | _ => false

/-- What a listing calls the node. -/
def nodeName : Decl → String
  | func _ => "FuncDecl"
  | struct _ => "StructType"
  | interface _ => "InterfaceType"
  | enum _ => "EnumType"
  | sum _ => "SumType"
  | implements _ => "ImplementsDecl"
  | bad _ => "BadDecl"

end Decl

end OriSyntax
