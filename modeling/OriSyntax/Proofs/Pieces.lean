import OriSyntax.Proofs.Delimiters
import OriSyntax.Tree.Extent
import OriSyntax.Tree.Visit

/-!
The pieces of a tree: the tokens it stores and the bad nodes in it, in the order of
its fields.  The bad nodes among the pieces are those that a walk meets, and the first
and the last token of a node belong to its first and its last piece.
-/

namespace OriSyntax

/-- A token that a tree stores, or a bad node in it.  The braces of a body are told
from other tokens. -/
inductive Piece where
  | token (stored : Token)
  | opens (stored : Token)
  | closes (stored : Token)
  | bad (node : BadNode)

namespace Piece

/-- The token, if the piece is one. -/
def token? : Piece → Option Token
  | token stored | opens stored | closes stored => some stored
  | bad _ => none

/-- The bad node, if the piece is one. -/
def bad? : Piece → Option BadNode
  | token _ | opens _ | closes _ => none
  | bad node => some node

/-- The first token of a piece. -/
def first : Piece → Token
  | token stored | opens stored | closes stored => stored
  | bad node => node.first

/-- The last token of a piece. -/
def last : Piece → Token
  | token stored | opens stored | closes stored => stored
  | bad node => node.last

/-- What a piece is among braces. -/
def brace : Piece → Brace
  | opens _ => .opening
  | closes _ => .closing
  | token _ | bad _ => .other

end Piece

/-- The pieces of what may be missing. -/
def piecesOf? {α : Type} (pieces : α → List Piece) : Option α → List Piece
  | none => []
  | some value => pieces value

/-- The pieces of a list in parentheses. -/
def Enclosed.listPieces {α : Type} (pieces : α → List Piece) (enclosed : Enclosed α) :
    List Piece :=
  .token enclosed.opening :: enclosed.items.flatMap pieces ++ [.token enclosed.closing]

/-- The pieces of a body in braces. -/
def Enclosed.bodyPieces {α : Type} (pieces : α → List Piece) (enclosed : Enclosed α) :
    List Piece :=
  .opens enclosed.opening :: enclosed.items.flatMap pieces ++ [.closes enclosed.closing]

/-- The pieces of a type. -/
def TypeExpr.pieces : TypeExpr → List Piece
  | named name => [.token name]
  | bad node => [.bad node]

mutual

/-- The pieces of an expression. -/
def Expr.pieces : Expr → List Piece
  | .ident name => [.token name]
  | .literal _ value => [.token value]
  | .paren opening inner closing => .token opening :: inner.pieces ++ [.token closing]
  | .unary op operand => .token op :: operand.pieces
  | .binary left op right => left.pieces ++ .token op :: right.pieces
  | .selector base dot name => base.pieces ++ [.token dot, .token name]
  | .index base opening inner closing =>
      base.pieces ++ .token opening :: inner.pieces ++ [.token closing]
  | .call callee ⟨opening, args, closing⟩ =>
      callee.pieces ++ .token opening :: Expr.piecesOfAll args ++ [.token closing]
  | .bad node => [.bad node]

/-- The pieces of expressions in a row. -/
def Expr.piecesOfAll : List Expr → List Piece
  | [] => []
  | expr :: rest => expr.pieces ++ Expr.piecesOfAll rest

end

@[simp] theorem Expr.piecesOfAll_eq (exprs : List Expr) :
    Expr.piecesOfAll exprs = exprs.flatMap Expr.pieces := by
  induction exprs with
  | nil => rfl
  | cons expr rest ih => rw [Expr.piecesOfAll, ih, List.flatMap_cons]

theorem Expr.pieces_call (callee : Expr) (args : Enclosed Expr) :
    (Expr.call callee args).pieces = callee.pieces ++ args.listPieces Expr.pieces := by
  simp [Expr.pieces, Enclosed.listPieces]

/-- The pieces of a value declaration. -/
def ValueDecl.pieces (decl : ValueDecl) : List Piece :=
  .token decl.keyword :: .token decl.name :: piecesOf? TypeExpr.pieces decl.type ++
    .token decl.eq :: decl.value.pieces

/-- The pieces of a parameter. -/
def Param.pieces (param : Param) : List Piece :=
  piecesOf? (fun name => [.token name]) param.name ++ param.type.pieces

/-- The pieces of results. -/
def Results.pieces : Results → List Piece
  | single type => type.pieces
  | list params => params.listPieces Param.pieces

/-- The pieces of a qualified name. -/
def QualifiedName.pieces (name : QualifiedName) : List Piece :=
  piecesOf? (fun qualifier => [.token qualifier.package, .token qualifier.dot])
    name.qualifier ++ [.token name.name]

/-- The pieces of a default value. -/
def Default.pieces (default : Default) : List Piece :=
  .token default.eq :: default.value.pieces

/-- The pieces of a field. -/
def FieldDecl.pieces (field : FieldDecl) : List Piece :=
  .token field.name :: field.type.pieces ++ piecesOf? Default.pieces field.default

/-- The pieces of a method. -/
def MethodSpec.pieces (method : MethodSpec) : List Piece :=
  .token method.name :: method.params.listPieces Param.pieces ++
    piecesOf? Results.pieces method.results

/-- The pieces of a member of an interface. -/
def InterfaceMember.pieces : InterfaceMember → List Piece
  | method spec => spec.pieces
  | embed name => name.pieces

/-- The pieces of a variant. -/
def SumVariant.pieces (variant : SumVariant) : List Piece :=
  .token variant.name :: piecesOf? (Enclosed.listPieces Param.pieces) variant.params

/-- The pieces of a type declaration. -/
def TypeDecl.pieces {α : Type} (pieces : α → List Piece) (decl : TypeDecl α) :
    List Piece :=
  .token decl.typeKeyword :: .token decl.name :: .token decl.keyword ::
    decl.body.bodyPieces pieces

/-- The pieces of an `implements` declaration. -/
def ImplementsDecl.pieces (decl : ImplementsDecl) : List Piece :=
  .token decl.typeName :: .token decl.keyword :: decl.interface.pieces

mutual

/-- The pieces of a statement. -/
def Stmt.pieces : Stmt → List Piece
  | .block body => Stmt.piecesOfBlock body
  | .const decl | .var decl => decl.pieces
  | .assign left op right => left.pieces ++ .token op :: right.pieces
  | .incDec target op => target.pieces ++ [.token op]
  | .effect value => value.pieces
  | .returns keyword values => .token keyword :: values.flatMap Expr.pieces
  | .ifElse keyword condition body otherwise =>
      .token keyword :: condition.pieces ++ Stmt.piecesOfBlock body ++
        Stmt.pieces? otherwise
  | .forLoop keyword first condition after body =>
      .token keyword :: Stmt.pieces? first ++ piecesOf? Expr.pieces condition ++
        Stmt.pieces? after ++ Stmt.piecesOfBlock body
  | .rangeLoop keyword key value op rangeKeyword subject body =>
      .token keyword :: piecesOf? Expr.pieces key ++ piecesOf? Expr.pieces value ++
        piecesOf? (fun op => [.token op]) op ++ .token rangeKeyword :: subject.pieces ++
        Stmt.piecesOfBlock body
  | .switch keyword first tag cases =>
      .token keyword :: Stmt.pieces? first ++ piecesOf? Expr.pieces tag ++
        Stmt.piecesOfBlock cases
  | .clause keyword values colon body =>
      .token keyword :: values.flatMap Expr.pieces ++ .token colon ::
        Stmt.piecesOfAll body
  | .breakLoop keyword | .continueLoop keyword | .fallThrough keyword =>
      [.token keyword]
  | .decl decl => decl.pieces
  | .bad node => [.bad node]

/-- The pieces of statements in braces. -/
def Stmt.piecesOfBlock : Enclosed Stmt → List Piece
  | ⟨opening, stmts, closing⟩ =>
      .opens opening :: Stmt.piecesOfAll stmts ++ [.closes closing]

/-- The pieces of a statement that may be missing. -/
def Stmt.pieces? : Option Stmt → List Piece
  | none => []
  | some stmt => stmt.pieces

/-- The pieces of statements in a row. -/
def Stmt.piecesOfAll : List Stmt → List Piece
  | [] => []
  | stmt :: rest => stmt.pieces ++ Stmt.piecesOfAll rest

/-- The pieces of a function. -/
def FuncDecl.pieces : FuncDecl → List Piece
  | ⟨keyword, name, params, results, body⟩ =>
      .token keyword :: .token name :: params.listPieces Param.pieces ++
        piecesOf? Results.pieces results ++ Stmt.piecesOfBlock body

/-- The pieces of a declaration. -/
def Decl.pieces : Decl → List Piece
  | .func decl => decl.pieces
  | .struct decl => decl.pieces FieldDecl.pieces
  | .interface decl => decl.pieces InterfaceMember.pieces
  | .enum decl => decl.pieces fun variant => [.token variant]
  | .sum decl => decl.pieces SumVariant.pieces
  | .implements decl => decl.pieces
  | .bad node => [.bad node]

end

@[simp] theorem Stmt.piecesOfAll_eq (stmts : List Stmt) :
    Stmt.piecesOfAll stmts = stmts.flatMap Stmt.pieces := by
  induction stmts with
  | nil => rfl
  | cons stmt rest ih => rw [Stmt.piecesOfAll, ih, List.flatMap_cons]

@[simp] theorem Stmt.piecesOfBlock_eq (block : Enclosed Stmt) :
    Stmt.piecesOfBlock block = block.bodyPieces Stmt.pieces := by
  cases block
  simp [Stmt.piecesOfBlock, Enclosed.bodyPieces]

@[simp] theorem Stmt.pieces?_eq (stmt : Option Stmt) :
    Stmt.pieces? stmt = piecesOf? Stmt.pieces stmt := by
  cases stmt <;> rfl

/-- The pieces of a top-level item. -/
def Item.pieces : Item → List Piece
  | .const stmt => stmt.pieces
  | .decl inner => inner.pieces
  | .struct type => type.pieces FieldDecl.pieces
  | .interface type => type.pieces InterfaceMember.pieces
  | .enum type => type.pieces fun variant => [.token variant]
  | .sum type => type.pieces SumVariant.pieces
  | .implements offer => offer.pieces

theorem Item.pieces_ofTypeDecl (decl : Decl) :
    (Item.ofTypeDecl decl).pieces = decl.pieces := by
  cases decl <;> simp [Item.ofTypeDecl, Item.pieces, Decl.pieces]

/-- The tokens among pieces. -/
def tokensOf (pieces : List Piece) : List Token := pieces.filterMap Piece.token?

/-- The tokens that a top-level item stores, in the order of its fields. -/
def Item.tokens (item : Item) : List Token := tokensOf item.pieces

/-- The bad nodes among pieces. -/
def badNodesOf (pieces : List Piece) : List BadNode := pieces.filterMap Piece.bad?

/-- The bad nodes of a top-level item. -/
def Item.badNodes (item : Item) : List BadNode := badNodesOf item.pieces

namespace File

/-- The top-level items of a file, bucket by bucket. -/
def items (file : File) : List Item :=
  file.consts.map .const ++ file.decls.map .decl ++ file.structs.map .struct ++
    file.interfaces.map .interface ++ file.enums.map .enum ++ file.sums.map .sum ++
    file.implements.map .implements

/-- The tokens that a file stores: those of its package clause and of its items. -/
def tokens (file : File) : List Token :=
  file.package :: file.name :: file.items.flatMap Item.tokens

/-- The tokens of the package clause.  Where it is missing, the absent tokens that stand
in for them are none. -/
def clauseTokens (file : File) : List Token :=
  if file.package.kind = .packageKw then [file.package, file.name] else []

/-- Sorting items into buckets neither loses nor adds one. -/
theorem items_ofItems_perm (package name : Token) (items : List Item) :
    (ofItems package name items).items.Perm items := by
  have hbehind : ∀ {item : Item} {bucket others found : List Item},
      others.Perm (item :: found) → (bucket ++ others).Perm (item :: (bucket ++ found)) :=
    fun hothers => (hothers.append_left _).trans List.perm_middle
  induction items with
  | nil => exact .refl _
  | cons item rest ih =>
      refine .trans ?_ (ih.cons item)
      simp only [File.items, ofItems, List.append_assoc]
      cases item with
      | const stmt => exact .refl _
      | decl decl => exact hbehind (.refl _)
      | struct decl => exact hbehind (hbehind (.refl _))
      | interface decl => exact hbehind (hbehind (hbehind (.refl _)))
      | enum decl => exact hbehind (hbehind (hbehind (hbehind (.refl _))))
      | sum decl => exact hbehind (hbehind (hbehind (hbehind (hbehind (.refl _)))))
      | implements decl =>
          exact hbehind (hbehind (hbehind (hbehind (hbehind (hbehind (.refl _))))))

end File

/-- The bad nodes among visits. -/
def badVisits (visits : List Visit) : List BadNode := visits.filterMap Visit.bad?

@[simp] theorem badNodesOf_nil : badNodesOf [] = [] := rfl

@[simp] theorem badNodesOf_token (stored : Token) (rest : List Piece) :
    badNodesOf (.token stored :: rest) = badNodesOf rest := rfl

@[simp] theorem badNodesOf_opens (stored : Token) (rest : List Piece) :
    badNodesOf (.opens stored :: rest) = badNodesOf rest := rfl

@[simp] theorem badNodesOf_closes (stored : Token) (rest : List Piece) :
    badNodesOf (.closes stored :: rest) = badNodesOf rest := rfl

@[simp] theorem badNodesOf_bad (node : BadNode) (rest : List Piece) :
    badNodesOf (.bad node :: rest) = node :: badNodesOf rest := rfl

@[simp] theorem badNodesOf_append (pieces rest : List Piece) :
    badNodesOf (pieces ++ rest) = badNodesOf pieces ++ badNodesOf rest :=
  List.filterMap_append

theorem badNodesOf_flatMap {α : Type} (pieces : α → List Piece) (items : List α) :
    badNodesOf (items.flatMap pieces) = items.flatMap fun item => badNodesOf (pieces item) :=
  List.filterMap_flatMap

/-- Of a node only what is bad in it counts. -/
theorem badVisits_cons {visit : Visit} (rest : List Visit) (hvisit : visit.bad? = none) :
    badVisits (visit :: rest) = badVisits rest :=
  List.filterMap_cons_none hvisit

theorem TypeExpr.badVisits_walk (rest : List Visit) (type : TypeExpr) :
    badVisits (type.walk rest) = badNodesOf type.pieces ++ badVisits rest := by
  cases type <;> rfl

mutual

theorem Expr.badVisits_walk (rest : List Visit) (expr : Expr) :
    badVisits (expr.walk rest) = badNodesOf expr.pieces ++ badVisits rest := by
  match expr with
  | .ident _ | .literal .. | .bad _ => rfl
  | .paren _ inner _ | .unary _ inner | .selector inner _ _ =>
      rw [Expr.walk, badVisits_cons _ rfl, inner.badVisits_walk]
      simp [Expr.pieces]
  | .binary left _ right | .index left _ right _ =>
      rw [Expr.walk, badVisits_cons _ rfl, left.badVisits_walk, right.badVisits_walk]
      simp [Expr.pieces]
  | .call callee ⟨_, args, _⟩ =>
      rw [Expr.walk, badVisits_cons _ rfl, callee.badVisits_walk,
        Expr.badVisits_walkAll rest args]
      simp [Expr.pieces]

theorem Expr.badVisits_walkAll (rest : List Visit) (exprs : List Expr) :
    badVisits (Expr.walkAll rest exprs) =
      badNodesOf (exprs.flatMap Expr.pieces) ++ badVisits rest := by
  match exprs with
  | [] => rfl
  | expr :: others =>
      rw [Expr.walkAll, expr.badVisits_walk, Expr.badVisits_walkAll rest others]
      simp

end

theorem Expr.badVisits_walk? (rest : List Visit) (expr : Option Expr) :
    badVisits (Expr.walk? rest expr) =
      badNodesOf (piecesOf? Expr.pieces expr) ++ badVisits rest := by
  cases expr with
  | none => rfl
  | some expr => exact expr.badVisits_walk rest

/-- A walk over items meets what the walks over the single items meet. -/
theorem badVisits_foldr {α : Type} {walk : α → List Visit → List Visit}
    (pieces : α → List Piece) (rest : List Visit) (items : List α)
    (hwalk : ∀ item rest,
      badVisits (walk item rest) = badNodesOf (pieces item) ++ badVisits rest) :
    badVisits (items.foldr walk rest) =
      badNodesOf (items.flatMap pieces) ++ badVisits rest := by
  induction items with
  | nil => rfl
  | cons item others ih => simp [hwalk, ih]

theorem ParamList.badVisits_walk (rest : List Visit) (params : ParamList) :
    badVisits (ParamList.walk rest params) =
      badNodesOf (params.listPieces Param.pieces) ++ badVisits rest := by
  rw [ParamList.walk, badVisits_foldr Param.pieces]
  · simp [Enclosed.listPieces]
  · intro param rest
    rw [param.type.badVisits_walk]
    cases hname : param.name <;> simp [Param.pieces, piecesOf?, hname]

theorem Results.badVisits_walk? (rest : List Visit) (results : Option Results) :
    badVisits (Results.walk? rest results) =
      badNodesOf (piecesOf? Results.pieces results) ++ badVisits rest := by
  match results with
  | none => rfl
  | some (.single type) => exact type.badVisits_walk rest
  | some (.list params) => exact ParamList.badVisits_walk rest params

theorem ValueDecl.badVisits_walk (rest : List Visit) (decl : ValueDecl) :
    badVisits (decl.walk rest) = badNodesOf decl.pieces ++ badVisits rest := by
  unfold ValueDecl.walk
  split
  · next htype =>
      rw [decl.value.badVisits_walk]
      simp [ValueDecl.pieces, htype, piecesOf?]
  · next type htype =>
      rw [type.badVisits_walk, decl.value.badVisits_walk]
      simp [ValueDecl.pieces, htype, piecesOf?]

/-- A walk over the members of a type. -/
theorem TypeDecl.badVisits_foldr {α : Type} {walk : α → List Visit → List Visit}
    (pieces : α → List Piece) (rest : List Visit) (decl : TypeDecl α)
    (hwalk : ∀ member rest,
      badVisits (walk member rest) = badNodesOf (pieces member) ++ badVisits rest) :
    badVisits (decl.body.items.foldr walk rest) =
      badNodesOf (decl.pieces pieces) ++ badVisits rest := by
  rw [OriSyntax.badVisits_foldr pieces rest decl.body.items hwalk]
  simp [TypeDecl.pieces, Enclosed.bodyPieces]

theorem StructDecl.badVisits_walk (rest : List Visit) (decl : StructDecl) :
    badVisits (StructDecl.walk rest decl) =
      badNodesOf (decl.pieces FieldDecl.pieces) ++ badVisits rest := by
  apply TypeDecl.badVisits_foldr FieldDecl.pieces rest decl
  intro field rest
  rw [field.type.badVisits_walk, Expr.badVisits_walk?]
  cases hdefault : field.default <;>
    simp [FieldDecl.pieces, Default.pieces, hdefault, piecesOf?]

theorem InterfaceDecl.badVisits_walk (rest : List Visit) (decl : InterfaceDecl) :
    badVisits (InterfaceDecl.walk rest decl) =
      badNodesOf (decl.pieces InterfaceMember.pieces) ++ badVisits rest := by
  apply TypeDecl.badVisits_foldr InterfaceMember.pieces rest decl
  intro member rest
  cases member with
  | method spec =>
      rw [ParamList.badVisits_walk, Results.badVisits_walk?]
      simp [InterfaceMember.pieces, MethodSpec.pieces]
  | embed name =>
      cases hqualifier : name.qualifier <;>
        simp [InterfaceMember.pieces, QualifiedName.pieces, hqualifier, piecesOf?]

theorem SumDecl.badVisits_walk (rest : List Visit) (decl : SumDecl) :
    badVisits (SumDecl.walk rest decl) =
      badNodesOf (decl.pieces SumVariant.pieces) ++ badVisits rest := by
  apply TypeDecl.badVisits_foldr SumVariant.pieces rest decl
  intro variant rest
  cases hparams : variant.params with
  | none => simp [SumVariant.pieces, hparams, piecesOf?]
  | some params => simp [ParamList.badVisits_walk, SumVariant.pieces, hparams, piecesOf?]

theorem EnumDecl.badNodesOf_pieces (decl : EnumDecl) :
    badNodesOf (decl.pieces fun variant => [.token variant]) = [] := by
  have hvariants : ∀ variants : List Token,
      badNodesOf (variants.flatMap fun variant => [.token variant]) = [] := by
    intro variants
    induction variants with
    | nil => rfl
    | cons variant rest ih => simpa using ih
  simp [TypeDecl.pieces, Enclosed.bodyPieces, hvariants]

theorem ImplementsDecl.badNodesOf_pieces (decl : ImplementsDecl) :
    badNodesOf decl.pieces = [] := by
  cases hqualifier : decl.interface.qualifier <;>
    simp [ImplementsDecl.pieces, QualifiedName.pieces, hqualifier, piecesOf?]

mutual

theorem Stmt.badVisits_walk (rest : List Visit) (stmt : Stmt) :
    badVisits (stmt.walk rest) = badNodesOf stmt.pieces ++ badVisits rest := by
  rw [Stmt.walk.eq_def, badVisits_cons _ rfl]
  match stmt with
  | .block body => exact Stmt.badVisits_walkBlock rest body
  | .const decl | .var decl => exact decl.badVisits_walk rest
  | .assign left _ right =>
      simp [left.badVisits_walk, right.badVisits_walk, Stmt.pieces]
  | .incDec target _ => simp [target.badVisits_walk, Stmt.pieces]
  | .effect value => exact value.badVisits_walk rest
  | .returns _ values => exact Expr.badVisits_walkAll rest values
  | .ifElse _ condition body otherwise =>
      rw [condition.badVisits_walk, Stmt.badVisits_walkBlock _ body,
        Stmt.badVisits_walk? _ otherwise, Stmt.pieces]
      simp only [List.cons_append, badNodesOf_token, badNodesOf_append, List.append_assoc]
  | .forLoop _ first condition after body =>
      rw [Stmt.badVisits_walk? _ first, Expr.badVisits_walk?, Stmt.badVisits_walk? _ after,
        Stmt.badVisits_walkBlock _ body, Stmt.pieces]
      simp only [List.cons_append, badNodesOf_token, badNodesOf_append, List.append_assoc]
  | .rangeLoop _ key value op _ subject body =>
      rw [Expr.badVisits_walk?, Expr.badVisits_walk?, subject.badVisits_walk,
        Stmt.badVisits_walkBlock _ body, Stmt.pieces]
      cases op <;> simp [piecesOf?]
  | .switch _ first tag ⟨_, cases, _⟩ =>
      rw [Stmt.badVisits_walk? _ first, Expr.badVisits_walk?, Stmt.badVisits_walkAll _ cases,
        Stmt.pieces, Stmt.piecesOfBlock]
      simp
  | .clause _ values _ body =>
      rw [Expr.badVisits_walkAll, Stmt.badVisits_walkAll _ body, Stmt.pieces]
      simp
  | .breakLoop _ | .continueLoop _ | .fallThrough _ | .bad _ => rfl
  | .decl inner => exact inner.badVisits_walk rest

theorem Stmt.badVisits_walkBlock (rest : List Visit) (block : Enclosed Stmt) :
    badVisits (Stmt.walkBlock rest block) =
      badNodesOf (Stmt.piecesOfBlock block) ++ badVisits rest := by
  match block with
  | ⟨_, stmts, _⟩ =>
      rw [Stmt.walkBlock, badVisits_cons _ rfl, Stmt.badVisits_walkAll _ stmts,
        Stmt.piecesOfBlock]
      simp

theorem Stmt.badVisits_walk? (rest : List Visit) (stmt : Option Stmt) :
    badVisits (Stmt.walk? rest stmt) = badNodesOf (Stmt.pieces? stmt) ++ badVisits rest := by
  match stmt with
  | none => rfl
  | some stmt => exact stmt.badVisits_walk rest

theorem Stmt.badVisits_walkAll (rest : List Visit) (stmts : List Stmt) :
    badVisits (Stmt.walkAll rest stmts) =
      badNodesOf (Stmt.piecesOfAll stmts) ++ badVisits rest := by
  match stmts with
  | [] => rfl
  | stmt :: others =>
      rw [Stmt.walkAll, stmt.badVisits_walk, Stmt.badVisits_walkAll rest others,
        Stmt.piecesOfAll, badNodesOf_append, List.append_assoc]

theorem FuncDecl.badVisits_walk (rest : List Visit) (decl : FuncDecl) :
    badVisits (decl.walk rest) = badNodesOf decl.pieces ++ badVisits rest := by
  match decl with
  | ⟨_, _, params, results, body⟩ =>
      rw [FuncDecl.walk, ParamList.badVisits_walk, Results.badVisits_walk?,
        Stmt.badVisits_walkBlock _ body, FuncDecl.pieces]
      simp

theorem Decl.badVisits_walk (rest : List Visit) (decl : Decl) :
    badVisits (decl.walk rest) = badNodesOf decl.pieces ++ badVisits rest := by
  rw [Decl.walk.eq_def, badVisits_cons _ rfl]
  match decl with
  | .func decl => exact decl.badVisits_walk rest
  | .struct decl => exact StructDecl.badVisits_walk rest decl
  | .interface decl => exact InterfaceDecl.badVisits_walk rest decl
  | .sum decl => exact SumDecl.badVisits_walk rest decl
  | .enum decl => rw [Decl.pieces, EnumDecl.badNodesOf_pieces, List.nil_append]
  | .implements decl => rw [Decl.pieces, ImplementsDecl.badNodesOf_pieces, List.nil_append]
  | .bad _ => rfl

end

/-- The bad nodes met on a walk over a file are those of its items. -/
theorem File.badNodes_eq (file : File) :
    file.badNodes = file.items.flatMap Item.badNodes := by
  change badVisits file.visits = _
  rw [File.visits, Stmt.badVisits_walkAll,
    badVisits_foldr _ _ _ fun decl rest => decl.badVisits_walk rest,
    badVisits_foldr _ _ _ fun decl rest => StructDecl.badVisits_walk rest decl,
    badVisits_foldr _ _ _ fun decl rest => InterfaceDecl.badVisits_walk rest decl,
    badVisits_foldr _ _ _ fun decl rest => SumDecl.badVisits_walk rest decl]
  have henums : (file.enums.map Item.enum).flatMap Item.badNodes = [] := by
    simp [List.flatMap_eq_nil_iff, Item.badNodes, Item.pieces, EnumDecl.badNodesOf_pieces]
  have himplements : (file.implements.map Item.implements).flatMap Item.badNodes = [] := by
    simp [List.flatMap_eq_nil_iff, Item.badNodes, Item.pieces,
      ImplementsDecl.badNodesOf_pieces]
  simp only [File.items, List.flatMap_append, henums, himplements, List.append_nil,
    List.flatMap_map, badNodesOf_flatMap, Stmt.piecesOfAll_eq, List.append_assoc]
  simp [badVisits, Item.badNodes, Item.pieces]

/-- The first token of pieces. -/
def firstTokenOf (pieces : List Piece) : Option Token := pieces.head?.map Piece.first

/-- The last token of pieces. -/
def lastTokenOf (pieces : List Piece) : Option Token := pieces.getLast?.map Piece.last

@[simp] theorem firstTokenOf_cons (piece : Piece) (rest : List Piece) :
    firstTokenOf (piece :: rest) = some piece.first := rfl

@[simp] theorem firstTokenOf_append (pieces rest : List Piece) :
    firstTokenOf (pieces ++ rest) = (firstTokenOf pieces).or (firstTokenOf rest) := by
  simp [firstTokenOf, Option.map_or]

@[simp] theorem lastTokenOf_nil : lastTokenOf [] = none := rfl

@[simp] theorem lastTokenOf_cons (piece : Piece) (rest : List Piece) :
    lastTokenOf (piece :: rest) = (lastTokenOf rest).or (some piece.last) := by
  cases hrest : rest.getLast? <;> simp [lastTokenOf, List.getLast?_cons, hrest]

@[simp] theorem lastTokenOf_append (pieces rest : List Piece) :
    lastTokenOf (pieces ++ rest) = (lastTokenOf rest).or (lastTokenOf pieces) := by
  simp [lastTokenOf, Option.map_or]

theorem lastTokenOf_cons_of_ne_nil (piece : Piece) {rest : List Piece} (hrest : rest ≠ []) :
    lastTokenOf (piece :: rest) = lastTokenOf rest := by
  rw [lastTokenOf, List.getLast?_cons_of_ne_nil hrest, lastTokenOf]

theorem TypeExpr.firstTokenOf_pieces (type : TypeExpr) :
    firstTokenOf type.pieces = some type.first := by
  cases type <;> rfl

theorem TypeExpr.lastTokenOf_pieces (type : TypeExpr) :
    lastTokenOf type.pieces = some type.last := by
  cases type <;> rfl

theorem Expr.firstTokenOf_pieces (expr : Expr) : firstTokenOf expr.pieces = some expr.first := by
  match expr with
  | .ident _ | .literal .. | .paren .. | .unary .. | .bad _ => rfl
  | .binary inner _ _ | .selector inner _ _ | .index inner _ _ _ | .call inner ⟨_, _, _⟩ =>
      simp [Expr.pieces, Expr.first, inner.firstTokenOf_pieces]

theorem Expr.lastTokenOf_pieces (expr : Expr) : lastTokenOf expr.pieces = some expr.last := by
  match expr with
  | .ident _ | .literal .. | .bad _ => rfl
  | .paren .. | .selector .. | .index .. | .call _ ⟨_, _, _⟩ =>
      simp [Expr.pieces, Expr.last, Piece.last]
  | .unary _ inner | .binary _ _ inner =>
      simp [Expr.pieces, Expr.last, inner.lastTokenOf_pieces]

theorem Enclosed.lastTokenOf_bodyPieces {α : Type} (pieces : α → List Piece)
    (enclosed : Enclosed α) :
    lastTokenOf (enclosed.bodyPieces pieces) = some enclosed.closing := by
  simp [Enclosed.bodyPieces, Piece.last]

theorem ValueDecl.lastTokenOf_pieces (decl : ValueDecl) :
    lastTokenOf decl.pieces = some decl.last := by
  simp [ValueDecl.pieces, ValueDecl.last, decl.value.lastTokenOf_pieces]

theorem TypeDecl.lastTokenOf_pieces {α : Type} (pieces : α → List Piece) (decl : TypeDecl α) :
    lastTokenOf (decl.pieces pieces) = some decl.last := by
  simp [TypeDecl.pieces, TypeDecl.last, Enclosed.lastTokenOf_bodyPieces]

theorem Decl.firstTokenOf_pieces (decl : Decl) : firstTokenOf decl.pieces = some decl.first := by
  cases decl with
  | func inner =>
      cases inner
      rfl
  | struct _ | interface _ | enum _ | sum _ | implements _ | bad _ => rfl

theorem Decl.lastTokenOf_pieces (decl : Decl) : lastTokenOf decl.pieces = some decl.last := by
  cases decl with
  | func inner =>
      cases inner
      simp [Decl.pieces, FuncDecl.pieces, Decl.last, FuncDecl.last,
        Enclosed.lastTokenOf_bodyPieces]
  | struct inner | interface inner | enum inner | sum inner =>
      simp [Decl.pieces, Decl.last, TypeDecl.lastTokenOf_pieces]
  | implements inner =>
      simp [Decl.pieces, ImplementsDecl.pieces, QualifiedName.pieces, Decl.last,
        ImplementsDecl.last, QualifiedName.last, Piece.last]
  | bad _ => rfl

theorem Expr.lastTokenOf_flatMap (values : List Expr) :
    lastTokenOf (values.flatMap Expr.pieces) = values.getLast?.map Expr.last := by
  induction values with
  | nil => rfl
  | cons value rest ih =>
      cases hlast : rest.getLast? <;>
        simp [ih, List.getLast?_cons, value.lastTokenOf_pieces, hlast]

theorem Stmt.firstTokenOf_pieces (stmt : Stmt) : firstTokenOf stmt.pieces = some stmt.first := by
  match stmt with
  | .assign inner _ _ | .incDec inner _ | .effect inner =>
      simp [Stmt.pieces, Stmt.first, inner.firstTokenOf_pieces]
  | .block ⟨_, _, _⟩ => rfl
  | .const _ | .var _ | .returns .. | .ifElse .. | .forLoop .. | .rangeLoop .. | .switch ..
  | .clause .. | .breakLoop _ | .continueLoop _ | .fallThrough _ | .bad _ => rfl
  | .decl inner => exact inner.firstTokenOf_pieces

mutual

theorem Stmt.lastTokenOf_pieces (stmt : Stmt) : lastTokenOf stmt.pieces = some stmt.last := by
  match stmt with
  | .block _ | .forLoop .. | .rangeLoop .. | .switch .. | .ifElse _ _ _ none =>
      simp [Stmt.pieces, Stmt.last, Enclosed.lastTokenOf_bodyPieces, piecesOf?]
  | .ifElse _ _ _ (some otherwise) =>
      simp [Stmt.pieces, Stmt.last, piecesOf?, otherwise.lastTokenOf_pieces]
  | .const value | .var value => exact value.lastTokenOf_pieces
  | .assign _ _ right => simp [Stmt.pieces, Stmt.last, right.lastTokenOf_pieces]
  | .incDec .. | .breakLoop _ | .continueLoop _ | .fallThrough _ | .bad _ =>
      simp [Stmt.pieces, Stmt.last, Piece.last]
  | .effect value => exact value.lastTokenOf_pieces
  | .returns _ values =>
      cases hlast : values.getLast? <;>
        simp [Stmt.pieces, Stmt.last, Expr.lastTokenOf_flatMap, Piece.last, hlast]
  | .clause _ values colon body =>
      rw [Stmt.pieces, Stmt.last, ← Stmt.lastTokenOf_piecesOfAll colon body]
      simp only [List.cons_append, lastTokenOf_cons, lastTokenOf_append, Piece.last]
      cases lastTokenOf (Stmt.piecesOfAll body) <;> rfl
  | .decl inner => exact inner.lastTokenOf_pieces

/-- The last token of statements in a row, behind `before`. -/
theorem Stmt.lastTokenOf_piecesOfAll (before : Token) (stmts : List Stmt) :
    (lastTokenOf (Stmt.piecesOfAll stmts)).or (some before) = some (Stmt.lastOf before stmts) := by
  match stmts with
  | [] => rfl
  | [stmt] => simp [Stmt.piecesOfAll, Stmt.lastOf, stmt.lastTokenOf_pieces]
  | _ :: stmt :: rest =>
      rw [Stmt.lastOf, ← Stmt.lastTokenOf_piecesOfAll before (stmt :: rest)]
      simp only [Stmt.piecesOfAll, lastTokenOf_append, stmt.lastTokenOf_pieces]
      cases lastTokenOf (Stmt.piecesOfAll rest) <;> rfl

end

end OriSyntax
