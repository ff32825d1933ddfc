import OriSyntax.Proofs.WellFormed

/-!
Shapes of trees, whether everything in them could be read or not.  A bad node may stand in
place of any node of its category.  Every other node has tokens of the kinds that its fields
name and parts of the shapes that their places allow, so whoever walks a tree may rely on
them without looking at the diagnostics.
-/

namespace OriSyntax

/-- A type by a name of an accepted kind, or one that could not be read. -/
def TypeExpr.Shaped (accepts : Kind → Bool) : TypeExpr → Prop
  | named name => accepts name.kind
  | bad _ => True

theorem Kind.eq_lparen_of_isSuffix {kind : Kind} (hsuffix : kind.isSuffix) (hdot : kind ≠ .dot)
    (hbracket : kind ≠ .lbracket) : kind = .lparen := by
  simp_all [Kind.isSuffix]

mutual

/-- All tokens of the expression are of the kinds that its nodes ask for. -/
def Expr.Shaped : Expr → Prop
  | .ident name => name.kind = .ident
  | .literal sort value => value.kind = sort.kind
  | .paren opening inner closing =>
      opening.kind = .lparen ∧ inner.Shaped ∧ closing.kind = .rparen
  | .unary op operand => op.kind.isUnaryOp ∧ operand.Shaped
  | .binary left op right => left.Shaped ∧ op.kind.isBinaryOp ∧ right.Shaped
  | .selector base dot name => base.Shaped ∧ dot.kind = .dot ∧ name.kind = .ident
  | .index base opening inner closing =>
      base.Shaped ∧ opening.kind = .lbracket ∧ inner.Shaped ∧ closing.kind = .rbracket
  | .call callee ⟨opening, args, closing⟩ =>
      callee.Shaped ∧ opening.kind = .lparen ∧ Expr.ShapedAll args ∧ closing.kind = .rparen
  | .bad _ => True

/-- So are those of all expressions. -/
def Expr.ShapedAll : List Expr → Prop
  | [] => True
  | expr :: rest => expr.Shaped ∧ Expr.ShapedAll rest

end

@[simp] theorem Expr.shaped_bad (bad : BadNode) : (Expr.bad bad).Shaped := by
  simp [Expr.Shaped]

theorem Expr.shapedAll_iff {exprs : List Expr} :
    Expr.ShapedAll exprs ↔ ∀ expr ∈ exprs, expr.Shaped := by
  induction exprs with
  | nil => simp [Expr.ShapedAll]
  | cons expr rest ih => rw [Expr.ShapedAll, ih, List.forall_mem_cons]

/-- A constant or a variable, as its keyword tells. -/
structure ValueDecl.Shaped (keyword : Kind) (decl : ValueDecl) : Prop where
  keyword : decl.keyword.kind = keyword
  name : decl.name.kind = .ident
  type : ∀ type ∈ decl.type, type.Shaped Kind.isValueType
  eq : decl.eq.kind = .assign
  value : decl.value.Shaped

/-- A parameter with a name or without. -/
structure Param.Shaped (named : Bool) (param : Param) : Prop where
  named : param.name.isSome = named
  name : ∀ name ∈ param.name, name.kind = .ident
  type : param.type.Shaped Kind.isParamType

/-- Parameters that all have names, or that all have none. -/
structure ParamList.Shaped (named : Bool) (params : ParamList) : Prop where
  opening : params.opening.kind = .lparen
  items : ∀ param ∈ params.items, param.Shaped named
  closing : params.closing.kind = .rparen

/-- A single type, or a list of bare types or of pairs of a name and a type. -/
def Results.Shaped : Results → Prop
  | single type => type.Shaped Kind.isParamType
  | list params => ∃ named, ParamList.Shaped named params

/-- A field with its type and perhaps a default value. -/
structure FieldDecl.Shaped (field : FieldDecl) : Prop where
  name : field.name.kind = .ident
  type : field.type.Shaped Kind.isValueType
  default : ∀ default ∈ field.default, default.eq.kind = .assign ∧ default.value.Shaped

/-- A method with named parameters, or another interface. -/
def InterfaceMember.Shaped : InterfaceMember → Prop
  | method spec => spec.name.kind = .ident ∧ ParamList.Shaped true spec.params ∧
      ∀ results ∈ spec.results, results.Shaped
  | embed name => name.WellFormed

/-- A variant, whose parameters have names. -/
structure SumVariant.Shaped (variant : SumVariant) : Prop where
  name : variant.name.kind = .ident
  params : ∀ params ∈ variant.params, ParamList.Shaped true params

/-- A structure of fields. -/
def StructDecl.Shaped (decl : StructDecl) : Prop :=
  TypeDecl.WellFormed .structKw FieldDecl.Shaped decl

/-- An interface of methods and other interfaces. -/
def InterfaceDecl.Shaped (decl : InterfaceDecl) : Prop :=
  TypeDecl.WellFormed .interfaceKw InterfaceMember.Shaped decl

/-- A sum, which has a variant. -/
def SumDecl.Shaped (decl : SumDecl) : Prop :=
  TypeDecl.WellFormed .sumKw SumVariant.Shaped decl ∧ decl.body.items ≠ []

/-- A type that is declared inside a body. -/
def Decl.ShapedType : Decl → Prop
  | struct decl => StructDecl.Shaped decl
  | interface decl => InterfaceDecl.Shaped decl
  | enum decl => EnumDecl.WellFormed decl
  | sum decl => SumDecl.Shaped decl
  | func _ | implements _ | bad _ => False

namespace Stmt

/-- Whether the statement is a clause of a switch. -/
def isClause : Stmt → Bool
  | clause .. => true
  | _ => false

/-- Whether the statement may stand in a body: clauses stand only in a switch. -/
def inBody (stmt : Stmt) : Bool := !stmt.isClause

/-- Whether the statement may stand among the clauses of a switch. -/
def inSwitch (stmt : Stmt) : Bool := stmt.isClause || stmt.isBad

theorem inBody_of_isSimple {stmt : Stmt} (hstmt : stmt.isSimple) : stmt.inBody := by
  cases stmt <;> simp_all [isSimple, inBody, isClause]

theorem inBody_of_isElse {stmt : Stmt} (hstmt : stmt.isElse) : stmt.inBody := by
  cases stmt <;> simp_all [isElse, inBody, isClause]

end Stmt

/-- A loop over items has a key if and only if it has an operator, which assigns or defines,
and a value only together with a key. -/
structure RangeShaped (key value : Option Expr) (op : Option Token) : Prop where
  key_iff_op : key.isSome ↔ op.isSome
  key_of_value : value.isSome → key.isSome
  key : ∀ target ∈ key, target.Shaped
  value : ∀ target ∈ value, target.Shaped
  op : ∀ sign ∈ op, sign.kind = .assign ∨ sign.kind = .define

mutual

/-- The statement has the shape that its form asks for, wherever it stands. -/
def Stmt.Shaped : Stmt → Prop
  | .block body => Stmt.ShapedBlock body
  | .const value => value.Shaped .constKw
  | .var value => value.Shaped .varKw
  | .assign left op right =>
      left.isAssignable ∧ left.Shaped ∧ op.kind.isAssignOp ∧ right.Shaped
  | .incDec target op => target.isAssignable ∧ target.Shaped ∧ op.kind.isIncDec
  | .effect value => value.isCall ∧ value.Shaped
  | .returns keyword values => keyword.kind = .returnKw ∧ Expr.ShapedAll values
  | .ifElse keyword condition body otherwise =>
      keyword.kind = .ifKw ∧ condition.Shaped ∧ Stmt.ShapedBlock body ∧
        Stmt.ShapedPart Stmt.isElse otherwise
  | .forLoop keyword first condition after body =>
      keyword.kind = .forKw ∧ Stmt.ShapedPart Stmt.isForInit first ∧
        (∀ expr ∈ condition, expr.Shaped) ∧ Stmt.ShapedPart Stmt.isSimple after ∧
        Stmt.ShapedBlock body
  | .rangeLoop keyword key value op rangeKeyword subject body =>
      keyword.kind = .forKw ∧ RangeShaped key value op ∧ rangeKeyword.kind = .rangeKw ∧
        subject.Shaped ∧ Stmt.ShapedBlock body
  | .switch keyword first tag ⟨opening, cases, closing⟩ =>
      keyword.kind = .switchKw ∧ Stmt.ShapedPart Stmt.isSimple first ∧
        (∀ expr ∈ tag, expr.Shaped) ∧ opening.kind = .lbrace ∧
        Stmt.ShapedAll Stmt.inSwitch cases ∧ cases.countP Grammar.isDefaultClause ≤ 1 ∧
        closing.kind = .rbrace
  | .clause keyword values colon body =>
      CaseValues keyword values ∧ Expr.ShapedAll values ∧ colon.kind = .colon ∧
        Stmt.ShapedAll Stmt.inBody body
  | .breakLoop keyword => keyword.kind = .breakKw
  | .continueLoop keyword => keyword.kind = .continueKw
  | .fallThrough keyword => keyword.kind = .fallthroughKw
  | .decl inner => inner.ShapedType
  | .bad _ => True

/-- Statements in braces, none of which is a clause. -/
def Stmt.ShapedBlock : Enclosed Stmt → Prop
  | ⟨opening, stmts, closing⟩ =>
      opening.kind = .lbrace ∧ Stmt.ShapedAll Stmt.inBody stmts ∧ closing.kind = .rbrace

/-- All statements are allowed where they stand, and have their shapes. -/
def Stmt.ShapedAll (allowed : Stmt → Bool) : List Stmt → Prop
  | [] => True
  | stmt :: rest => allowed stmt ∧ stmt.Shaped ∧ Stmt.ShapedAll allowed rest

/-- A part of a statement that may be missing, of an allowed form. -/
def Stmt.ShapedPart (allowed : Stmt → Bool) : Option Stmt → Prop
  | none => True
  | some stmt => allowed stmt ∧ stmt.Shaped

end

@[simp] theorem Stmt.shaped_bad (bad : BadNode) : (Stmt.bad bad).Shaped := by
  simp [Stmt.Shaped]

theorem Stmt.shapedAll_iff {allowed : Stmt → Bool} {stmts : List Stmt} :
    Stmt.ShapedAll allowed stmts ↔ ∀ stmt ∈ stmts, allowed stmt ∧ stmt.Shaped := by
  induction stmts with
  | nil => simp [Stmt.ShapedAll]
  | cons stmt rest ih => rw [Stmt.ShapedAll, ih, List.forall_mem_cons, and_assoc]

theorem Stmt.shapedPart_iff {allowed : Stmt → Bool} {part : Option Stmt} :
    Stmt.ShapedPart allowed part ↔ ∀ stmt ∈ part, allowed stmt ∧ stmt.Shaped := by
  cases part <;> simp [Stmt.ShapedPart]

/-- A function whose parameters have names. -/
structure FuncDecl.Shaped (decl : FuncDecl) : Prop where
  keyword : decl.keyword.kind = .funcKw
  name : decl.name.kind = .ident
  params : ParamList.Shaped true decl.params
  results : ∀ results ∈ decl.results, results.Shaped
  body : Stmt.ShapedBlock decl.body

/-- What stands among the constants of a file: a constant, or a bad statement. -/
def Stmt.ShapedConst : Stmt → Prop
  | .const value => value.Shaped .constKw
  | .bad _ => True
  | _ => False

/-- What stands among the declarations of a file: a function, or a bad declaration. -/
def Decl.ShapedItem : Decl → Prop
  | .func decl => decl.Shaped
  | .bad _ => True
  | _ => False

/-- The header of a file stores a keyword and a name.  If the package clause could not be
read it stores no tokens, and the first declaration is the bad node of the clause. -/
def File.ShapedHeader (file : File) : Prop :=
  (file.package.kind = .packageKw ∧ file.name.kind = .ident) ∨
    (file.package = .absent ∧ file.name = .absent ∧
      ∃ node, file.decls.head? = some (.bad node))

/-- Every bucket of the file holds items of its own sort. -/
structure File.Shaped (file : File) : Prop where
  header : file.ShapedHeader
  consts : ∀ stmt ∈ file.consts, stmt.ShapedConst
  decls : ∀ decl ∈ file.decls, decl.ShapedItem
  structs : ∀ decl ∈ file.structs, StructDecl.Shaped decl
  interfaces : ∀ decl ∈ file.interfaces, InterfaceDecl.Shaped decl
  enums : ∀ decl ∈ file.enums, EnumDecl.WellFormed decl
  sums : ∀ decl ∈ file.sums, SumDecl.Shaped decl
  implements : ∀ decl ∈ file.implements, decl.WellFormed

end OriSyntax
