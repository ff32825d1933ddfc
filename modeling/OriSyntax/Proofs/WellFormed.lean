import OriSyntax.Grammar.Switch

/-!
Well-formed trees, told from the trees alone: tokens are of the kinds that their fields
name, operators bind as their levels demand, and every construct is of a shape that its
place allows.  Beside it stands how deeply a tree is nested, counted in expressions,
statements and further branches of conditions.
-/

namespace OriSyntax

/-- The kind of the literals of a sort. -/
def LiteralSort.kind : LiteralSort → Kind
  | int => .intLit
  | float => .floatLit
  | bool => .boolLit
  | string => .stringLit

/-- Operators that join two operands. -/
def Kind.isBinaryOp (kind : Kind) : Bool := kind.precedence ≠ .lowest && !kind.isSuffix

/-- Operators that stand before their operand. -/
def Kind.isUnaryOp (kind : Kind) : Bool := kind ∈ [.minus, .not]

/-- Kinds with which an expression begins. -/
def Kind.beginsExpr (kind : Kind) : Bool :=
  kind ∈ [.ident, .intLit, .floatLit, .boolLit, .stringLit, .lparen, .minus, .not]

/-- Expressions that a suffix may follow: all but those with an operator outside. -/
def Expr.isHead : Expr → Bool
  | ident _ | literal .. | paren .. | selector .. | index .. | call .. => true
  | unary .. | binary .. | bad _ => false

mutual

/-- Nothing in the expression is bad, and its outer operators bind at least as tightly as
`least`: those on the left of an operator no looser than it, those on the right tighter. -/
def Expr.Canonical : Precedence → Expr → Prop
  | _, .ident name => name.kind = .ident
  | _, .literal sort value => value.kind = sort.kind
  | _, .paren opening inner closing =>
      opening.kind = .lparen ∧ inner.Canonical .lowest ∧ closing.kind = .rparen
  | _, .unary op operand => op.kind.isUnaryOp ∧ operand.Canonical .suffix
  | least, .binary left op right =>
      op.kind.isBinaryOp ∧ least ≤ op.kind.precedence ∧
        left.Canonical op.kind.precedence ∧ right.Canonical op.kind.precedence.tighter ∧
        ¬ (op.kind.isComparison ∧ left.isComparison)
  | _, .selector base dot name =>
      base.isHead ∧ base.Canonical .suffix ∧ dot.kind = .dot ∧ name.kind = .ident
  | _, .index base opening inner closing =>
      base.isHead ∧ base.Canonical .suffix ∧ opening.kind = .lbracket ∧
        inner.Canonical .lowest ∧ closing.kind = .rbracket
  | _, .call callee ⟨opening, args, closing⟩ =>
      callee.isHead ∧ callee.Canonical .suffix ∧ opening.kind = .lparen ∧
        Expr.CanonicalAll args ∧ closing.kind = .rparen
  | _, .bad _ => False

/-- All expressions are canonical with operators of any level. -/
def Expr.CanonicalAll : List Expr → Prop
  | [] => True
  | expr :: rest => expr.Canonical .lowest ∧ Expr.CanonicalAll rest

end

theorem Expr.canonicalAll_iff {exprs : List Expr} :
    Expr.CanonicalAll exprs ↔ ∀ expr ∈ exprs, expr.Canonical .lowest := by
  induction exprs with
  | nil => simp [Expr.CanonicalAll]
  | cons expr rest ih => rw [Expr.CanonicalAll, ih, List.forall_mem_cons]

theorem Kind.beginsExpr_of_isUnaryOp {kind : Kind} (hkind : kind.isUnaryOp) :
    kind.beginsExpr := by
  revert hkind
  cases kind <;> decide

/-- A canonical expression begins with an operand. -/
theorem Expr.beginsExpr_first {least : Precedence} (expr : Expr)
    (hcanonical : expr.Canonical least) : expr.first.kind.beginsExpr := by
  match expr with
  | .ident _ =>
      simp only [Expr.Canonical] at hcanonical
      simp [Expr.first, hcanonical, Kind.beginsExpr]
  | .literal sort _ =>
      simp only [Expr.Canonical] at hcanonical
      cases sort <;> simp [Expr.first, hcanonical, LiteralSort.kind, Kind.beginsExpr]
  | .paren .. =>
      simp only [Expr.Canonical] at hcanonical
      simp [Expr.first, hcanonical.1, Kind.beginsExpr]
  | .unary .. =>
      simp only [Expr.Canonical] at hcanonical
      exact Kind.beginsExpr_of_isUnaryOp hcanonical.1
  | .binary left _ _ =>
      simp only [Expr.Canonical] at hcanonical
      exact left.beginsExpr_first hcanonical.2.2.1
  | .selector base _ _ | .index base _ _ _ | .call base ⟨_, _, _⟩ =>
      simp only [Expr.Canonical] at hcanonical
      exact base.beginsExpr_first hcanonical.2.1
  | .bad _ => simp [Expr.Canonical] at hcanonical

/-- A type by a name of an accepted kind. -/
def TypeExpr.Accepted (accepts : Kind → Bool) : TypeExpr → Prop
  | named name => accepts name.kind
  | bad _ => False

/-- A constant or a variable, as its keyword tells. -/
structure ValueDecl.WellFormed (keyword : Kind) (decl : ValueDecl) : Prop where
  keyword : decl.keyword.kind = keyword
  name : decl.name.kind = .ident
  type : ∀ type ∈ decl.type, type.Accepted Kind.isValueType
  eq : decl.eq.kind = .assign
  value : decl.value.Canonical .lowest

/-- A parameter with a name or without. -/
structure Param.WellFormed (named : Bool) (param : Param) : Prop where
  named : param.name.isSome = named
  name : ∀ name ∈ param.name, name.kind = .ident
  type : param.type.Accepted Kind.isParamType

/-- Parameters that all have names, or that all have none. -/
structure ParamList.WellFormed (named : Bool) (params : ParamList) : Prop where
  opening : params.opening.kind = .lparen
  items : ∀ param ∈ params.items, param.WellFormed named
  closing : params.closing.kind = .rparen

/-- A single type, or a list of bare types or of pairs of a name and a type. -/
def Results.WellFormed : Results → Prop
  | single type => type.Accepted Kind.isParamType
  | list params => ∃ named, ParamList.WellFormed named params

/-- A name, or a name within a package. -/
structure QualifiedName.WellFormed (name : QualifiedName) : Prop where
  qualifier : ∀ qualifier ∈ name.qualifier,
    qualifier.package.kind = .ident ∧ qualifier.dot.kind = .dot
  name : name.name.kind = .ident

/-- A field with its type and perhaps a default value. -/
structure FieldDecl.WellFormed (field : FieldDecl) : Prop where
  name : field.name.kind = .ident
  type : field.type.Accepted Kind.isValueType
  default : ∀ default ∈ field.default,
    default.eq.kind = .assign ∧ default.value.Canonical .lowest

/-- A method with named parameters, or another interface. -/
def InterfaceMember.WellFormed : InterfaceMember → Prop
  | method spec => spec.name.kind = .ident ∧ ParamList.WellFormed true spec.params ∧
      ∀ results ∈ spec.results, results.WellFormed
  | embed name => name.WellFormed

/-- A variant, whose parameters have names. -/
structure SumVariant.WellFormed (variant : SumVariant) : Prop where
  name : variant.name.kind = .ident
  params : ∀ params ∈ variant.params, ParamList.WellFormed true params

/-- A type of the sort that its keyword tells. -/
structure TypeDecl.WellFormed {α : Type} (keyword : Kind) (member : α → Prop)
    (decl : TypeDecl α) : Prop where
  typeKeyword : decl.typeKeyword.kind = .typeKw
  name : decl.name.kind = .ident
  keyword : decl.keyword.kind = keyword
  opening : decl.body.opening.kind = .lbrace
  items : ∀ item ∈ decl.body.items, member item
  closing : decl.body.closing.kind = .rbrace

/-- A well-formed structure. -/
def StructDecl.WellFormed (decl : StructDecl) : Prop :=
  TypeDecl.WellFormed .structKw FieldDecl.WellFormed decl

/-- A well-formed interface. -/
def InterfaceDecl.WellFormed (decl : InterfaceDecl) : Prop :=
  TypeDecl.WellFormed .interfaceKw InterfaceMember.WellFormed decl

/-- A well-formed enumeration, which has a variant. -/
def EnumDecl.WellFormed (decl : EnumDecl) : Prop :=
  TypeDecl.WellFormed .enumKw (fun variant => variant.kind = .ident) decl ∧
    decl.body.items ≠ []

/-- A well-formed sum, which has a variant. -/
def SumDecl.WellFormed (decl : SumDecl) : Prop :=
  TypeDecl.WellFormed .sumKw SumVariant.WellFormed decl ∧ decl.body.items ≠ []

/-- A type that is declared inside a body. -/
def Decl.WellFormedType : Decl → Prop
  | struct decl => StructDecl.WellFormed decl
  | interface decl => InterfaceDecl.WellFormed decl
  | enum decl => EnumDecl.WellFormed decl
  | sum decl => SumDecl.WellFormed decl
  | func _ | implements _ | bad _ => False

/-- The statement that a type offers an interface. -/
structure ImplementsDecl.WellFormed (decl : ImplementsDecl) : Prop where
  typeName : decl.typeName.kind = .ident
  keyword : decl.keyword.kind = .implementsKw
  interface : decl.interface.WellFormed

namespace Stmt

/-- Statements without keywords: assignments, increments, decrements and calls. -/
def isSimple : Stmt → Bool
  | assign .. | incDec .. | effect _ => true
  | _ => false

/-- Whether the statement is an assignment or a call. -/
def isForInit : Stmt → Bool
  | assign .. | effect _ => true
  | _ => false

theorem isSimple_of_isForInit (stmt : Stmt) (hstmt : stmt.isForInit) : stmt.isSimple := by
  cases stmt <;> simp_all [isForInit, isSimple]

/-- Whether the statement may follow `else`. -/
def isElse : Stmt → Bool
  | ifElse .. | block _ => true
  | _ => false

/-- Whether the statement is a body in braces. -/
def isBlock : Stmt → Bool
  | block _ => true
  | _ => false

/-- Whether the statement hands on to the next clause. -/
def isFallThrough : Stmt → Bool
  | fallThrough _ => true
  | _ => false

end Stmt

/-- A `case` has values, and a `default` has none. -/
def CaseValues (keyword : Token) (values : List Expr) : Prop :=
  keyword.kind = .caseKw ∧ values ≠ [] ∨ keyword.kind = .defaultKw ∧ values = []

/-- A loop over items has a key with an operator, or neither; only a key goes with a
value. -/
def RangeTargets (key value : Option Expr) (op : Option Token) : Prop :=
  (key = none ∧ value = none ∧ op = none) ∨
    (∃ target ∈ key, target.Canonical .lowest) ∧
      (∀ target ∈ value, target.Canonical .lowest) ∧
      ∃ sign ∈ op, sign.kind = .define ∨ sign.kind = .assign

mutual

/-- The statement may stand in a body, which may be that of a loop. -/
def Stmt.WellFormed (inLoop : Bool) : Stmt → Prop
  | .block body => Stmt.WellFormedBlock inLoop body
  | .const value => value.WellFormed .constKw
  | .var value => value.WellFormed .varKw
  | .assign left op right =>
      left.isAssignable ∧ left.Canonical .lowest ∧ op.kind.isAssignOp ∧
        right.Canonical .lowest
  | .incDec target op => target.isAssignable ∧ target.Canonical .lowest ∧ op.kind.isIncDec
  | .effect value => value.isCall ∧ value.Canonical .lowest
  | .returns keyword values => keyword.kind = .returnKw ∧ Expr.CanonicalAll values
  | .ifElse keyword condition body otherwise =>
      keyword.kind = .ifKw ∧ condition.Canonical .lowest ∧
        Stmt.WellFormedBlock inLoop body ∧ Stmt.WellFormedPart inLoop Stmt.isElse otherwise
  | .forLoop keyword first condition after body =>
      keyword.kind = .forKw ∧ Stmt.WellFormedPart inLoop Stmt.isForInit first ∧
        (∀ expr ∈ condition, expr.Canonical .lowest) ∧
        Stmt.WellFormedPart inLoop Stmt.isSimple after ∧ Stmt.WellFormedBlock true body
  | .rangeLoop keyword key value op rangeKeyword subject body =>
      keyword.kind = .forKw ∧ RangeTargets key value op ∧ rangeKeyword.kind = .rangeKw ∧
        subject.Canonical .lowest ∧ Stmt.WellFormedBlock true body
  | .switch keyword first tag ⟨opening, cases, closing⟩ =>
      keyword.kind = .switchKw ∧ Stmt.WellFormedPart inLoop Stmt.isSimple first ∧
        (∀ expr ∈ tag, expr.Canonical .lowest) ∧ opening.kind = .lbrace ∧
        Stmt.WellFormedClauses inLoop cases ∧ cases.countP Grammar.isDefaultClause ≤ 1 ∧
        closing.kind = .rbrace
  | .breakLoop keyword => inLoop ∧ keyword.kind = .breakKw
  | .continueLoop keyword => inLoop ∧ keyword.kind = .continueKw
  | .fallThrough keyword => keyword.kind = .fallthroughKw
  | .decl inner => inner.WellFormedType
  | .clause .. | .bad _ => False

/-- The statements in braces may stand there. -/
def Stmt.WellFormedBlock (inLoop : Bool) : Enclosed Stmt → Prop
  | ⟨opening, stmts, closing⟩ =>
      opening.kind = .lbrace ∧ Stmt.WellFormedAll inLoop stmts ∧ closing.kind = .rbrace

/-- The statements may stand there, and `fallthrough` is at most the last of them. -/
def Stmt.WellFormedAll (inLoop : Bool) : List Stmt → Prop
  | [] => True
  | stmt :: rest =>
      stmt.WellFormed inLoop ∧ (stmt.isFallThrough → rest = []) ∧
        Stmt.WellFormedAll inLoop rest

/-- A part of a statement that may be missing, of an allowed shape. -/
def Stmt.WellFormedPart (inLoop : Bool) (allowed : Stmt → Bool) : Option Stmt → Prop
  | none => True
  | some stmt => allowed stmt ∧ stmt.WellFormed inLoop

/-- All statements are clauses of a switch. -/
def Stmt.WellFormedClauses (inLoop : Bool) : List Stmt → Prop
  | [] => True
  | .clause keyword values colon body :: rest =>
      CaseValues keyword values ∧ Expr.CanonicalAll values ∧ colon.kind = .colon ∧
        Stmt.WellFormedAll inLoop body ∧ Stmt.WellFormedClauses inLoop rest
  | _ :: _ => False

end

/-- A function whose parameters have names. -/
def FuncDecl.WellFormed (decl : FuncDecl) : Prop :=
  decl.keyword.kind = .funcKw ∧ decl.name.kind = .ident ∧
    ParamList.WellFormed true decl.params ∧
    (∀ results ∈ decl.results, results.WellFormed) ∧ Stmt.WellFormedBlock false decl.body

/-- The greatest value of a measure among items; zero if there are none. -/
def greatest {α : Type} (measure : α → Nat) (items : List α) : Nat :=
  items.foldr (fun item deepest => max (measure item) deepest) 0

theorem greatest_le_iff {α : Type} {measure : α → Nat} {items : List α} {bound : Nat} :
    greatest measure items ≤ bound ↔ ∀ item ∈ items, measure item ≤ bound := by
  induction items with
  | nil => simp [greatest]
  | cons item rest ih =>
      simp only [greatest, List.foldr_cons, List.forall_mem_cons] at ih ⊢
      rw [Nat.max_le, ih]

mutual

/-- How many expressions are nested in each other inside an expression.  What operators
and suffixes are folded onto counts as no level of its own. -/
def Expr.inside : Expr → Nat
  | .ident _ | .literal .. | .bad _ => 0
  | .paren _ inner _ => inner.inside + 1
  | .unary _ operand => operand.inside + 1
  | .binary left _ right => max left.inside (right.inside + 1)
  | .selector base _ _ => base.inside
  | .index base _ inner _ => max base.inside (inner.inside + 1)
  | .call callee ⟨_, args, _⟩ => max callee.inside (Expr.nestingOfAll args)

/-- The greatest nesting among expressions. -/
def Expr.nestingOfAll : List Expr → Nat
  | [] => 0
  | expr :: rest => max (expr.inside + 1) (Expr.nestingOfAll rest)

end

/-- How many expressions are nested in each other, the outermost one included. -/
def Expr.nesting (expr : Expr) : Nat := expr.inside + 1

/-- The nesting of an expression that may be missing. -/
def Expr.nesting? (expr : Option Expr) : Nat := (expr.map Expr.nesting).getD 0

theorem Expr.nestingOfAll_eq (exprs : List Expr) :
    Expr.nestingOfAll exprs = greatest Expr.nesting exprs := by
  induction exprs with
  | nil => rfl
  | cons expr rest ih =>
      rw [Expr.nestingOfAll, ih]
      rfl

/-- The greatest nesting among the defaults of the fields of a structure. -/
def StructDecl.inside (decl : StructDecl) : Nat :=
  greatest (fun field => Expr.nesting? (field.default.map Default.value)) decl.body.items

mutual

/-- How many expressions, statements and further branches are nested in each other inside
a statement.  Clauses, and statements that are parts of a header, count as no level. -/
def Stmt.inside : Stmt → Nat
  | .block body => Stmt.insideBlock body
  | .const value | .var value => value.value.nesting
  | .assign left _ right => max left.nesting right.nesting
  | .incDec target _ => target.nesting
  | .effect value => value.nesting
  | .returns _ values => Expr.nestingOfAll values
  | .ifElse _ condition body otherwise =>
      max condition.nesting (max (Stmt.insideBlock body) (Stmt.insideElse otherwise))
  | .forLoop _ first condition after body =>
      max (max (Stmt.inside? first) (Expr.nesting? condition))
        (max (Stmt.inside? after) (Stmt.insideBlock body))
  | .rangeLoop _ key value _ _ subject body =>
      max (max (Expr.nesting? key) (Expr.nesting? value))
        (max subject.nesting (Stmt.insideBlock body))
  | .switch _ first tag ⟨_, cases, _⟩ =>
      max (max (Stmt.inside? first) (Expr.nesting? tag)) (Stmt.insideClauses cases)
  | .clause _ values _ body =>
      max (Expr.nestingOfAll values) (Stmt.nestingOfAll body)
  | .breakLoop _ | .continueLoop _ | .fallThrough _ | .bad _ => 0
  | .decl inner => inner.inside

/-- The greatest nesting among statements in braces. -/
def Stmt.insideBlock : Enclosed Stmt → Nat
  | ⟨_, stmts, _⟩ => Stmt.nestingOfAll stmts

/-- The greatest nesting among statements. -/
def Stmt.nestingOfAll : List Stmt → Nat
  | [] => 0
  | stmt :: rest => max (stmt.inside + 1) (Stmt.nestingOfAll rest)

/-- What is nested inside clauses. -/
def Stmt.insideClauses : List Stmt → Nat
  | [] => 0
  | clause :: rest => max clause.inside (Stmt.insideClauses rest)

/-- What is nested inside a statement that may be missing. -/
def Stmt.inside? : Option Stmt → Nat
  | none => 0
  | some stmt => stmt.inside

/-- The nesting of the second branch of a condition; a body in braces is no level. -/
def Stmt.insideElse : Option Stmt → Nat
  | none => 0
  | some stmt => if stmt.isBlock then stmt.inside else stmt.inside + 1

/-- What is nested inside a declaration. -/
def Decl.inside : Decl → Nat
  | .func ⟨_, _, _, _, body⟩ => Stmt.insideBlock body
  | .struct decl => StructDecl.inside decl
  | .interface _ | .enum _ | .sum _ | .implements _ | .bad _ => 0

end

/-- How many statements are nested in each other, the outermost one included. -/
def Stmt.nesting (stmt : Stmt) : Nat := stmt.inside + 1

namespace File

/-- How deeply a file is nested. -/
def nesting (file : File) : Nat :=
  max (greatest Stmt.inside file.consts)
    (max (greatest Decl.inside file.decls) (greatest StructDecl.inside file.structs))

/-- Every bucket of the file holds well-formed items of its own sort. -/
structure WellFormed (file : File) : Prop where
  package : file.package.kind = .packageKw
  name : file.name.kind = .ident
  consts : ∀ stmt ∈ file.consts, ∃ decl, stmt = .const decl ∧ decl.WellFormed .constKw
  decls : ∀ decl ∈ file.decls, ∃ function, decl = .func function ∧ function.WellFormed
  structs : ∀ decl ∈ file.structs, StructDecl.WellFormed decl
  interfaces : ∀ decl ∈ file.interfaces, InterfaceDecl.WellFormed decl
  enums : ∀ decl ∈ file.enums, EnumDecl.WellFormed decl
  sums : ∀ decl ∈ file.sums, SumDecl.WellFormed decl
  implements : ∀ decl ∈ file.implements, decl.WellFormed

end File

end OriSyntax
