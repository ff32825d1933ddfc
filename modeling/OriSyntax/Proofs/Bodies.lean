import OriSyntax.Proofs.Pieces

/-!
Bodies in a tree.  The braces among the pieces of a node are those of the bodies in it,
so every node closes the braces that it opens.
-/

namespace OriSyntax

/-- The braces among pieces. -/
def bracesOf (pieces : List Piece) : List Brace := pieces.map Piece.brace

/-- Pieces among which there is no brace. -/
def Flat (pieces : List Piece) : Prop := ∀ piece ∈ pieces, piece.brace = .other

@[simp] theorem bracesOf_nil : bracesOf [] = [] := rfl

@[simp] theorem bracesOf_cons (piece : Piece) (rest : List Piece) :
    bracesOf (piece :: rest) = piece.brace :: bracesOf rest := rfl

@[simp] theorem bracesOf_append (pieces rest : List Piece) :
    bracesOf (pieces ++ rest) = bracesOf pieces ++ bracesOf rest := List.map_append

theorem bracesOf_flatMap {α : Type} (pieces : α → List Piece) (items : List α) :
    bracesOf (items.flatMap pieces) = items.flatMap fun item => bracesOf (pieces item) :=
  List.map_flatMap

@[simp] theorem flat_nil : Flat [] := fun _ hpiece => nomatch hpiece

@[simp] theorem flat_token (stored : Token) (rest : List Piece) :
    Flat (.token stored :: rest) ↔ Flat rest := by
  simp [Flat, Piece.brace]

@[simp] theorem flat_bad (node : BadNode) (rest : List Piece) :
    Flat (.bad node :: rest) ↔ Flat rest := by
  simp [Flat, Piece.brace]

@[simp] theorem flat_append (pieces rest : List Piece) :
    Flat (pieces ++ rest) ↔ Flat pieces ∧ Flat rest :=
  List.forall_mem_append

theorem Flat.flatMap {α : Type} {pieces : α → List Piece} (items : List α)
    (hpieces : ∀ item, Flat (pieces item)) : Flat (items.flatMap pieces) := by
  intro piece hpiece
  obtain ⟨item, -, hitem⟩ := List.mem_flatMap.1 hpiece
  exact hpieces item piece hitem

theorem Flat.piecesOf? {α : Type} {pieces : α → List Piece} (value : Option α)
    (hpieces : ∀ value, Flat (pieces value)) : Flat (piecesOf? pieces value) := by
  cases value with
  | none => exact flat_nil
  | some value => exact hpieces value

theorem Flat.listPieces {α : Type} {pieces : α → List Piece} (enclosed : Enclosed α)
    (hpieces : ∀ item, Flat (pieces item)) : Flat (enclosed.listPieces pieces) := by
  simp [Enclosed.listPieces, Flat.flatMap _ hpieces]

theorem TypeExpr.flat_pieces (type : TypeExpr) : Flat type.pieces := by
  cases type <;> simp [TypeExpr.pieces]

mutual

theorem Expr.flat_pieces (expr : Expr) : Flat expr.pieces := by
  match expr with
  | .ident _ | .literal .. | .bad _ => simp [Expr.pieces]
  | .paren _ inner _ | .unary _ inner | .selector inner _ _ =>
      simp [Expr.pieces, inner.flat_pieces]
  | .binary left _ right | .index left _ right _ =>
      simp [Expr.pieces, left.flat_pieces, right.flat_pieces]
  | .call callee ⟨_, args, _⟩ =>
      have hargs := Expr.flat_piecesOfAll args
      simp_all [Expr.pieces, callee.flat_pieces]

theorem Expr.flat_piecesOfAll (exprs : List Expr) : Flat (Expr.piecesOfAll exprs) := by
  match exprs with
  | [] => exact flat_nil
  | expr :: rest =>
      exact (flat_append _ _).2 ⟨expr.flat_pieces, Expr.flat_piecesOfAll rest⟩

end

theorem ValueDecl.flat_pieces (decl : ValueDecl) : Flat decl.pieces := by
  simp [ValueDecl.pieces, Flat.piecesOf? _ TypeExpr.flat_pieces, Expr.flat_pieces]

theorem Param.flat_pieces (param : Param) : Flat param.pieces := by
  simp [Param.pieces, Flat.piecesOf?, TypeExpr.flat_pieces]

theorem Results.flat_pieces (results : Results) : Flat results.pieces := by
  cases results with
  | single type => exact type.flat_pieces
  | list params => exact .listPieces params Param.flat_pieces

theorem QualifiedName.flat_pieces (name : QualifiedName) : Flat name.pieces := by
  simp [QualifiedName.pieces, Flat.piecesOf?]

theorem Default.flat_pieces (default : Default) : Flat default.pieces := by
  simp [Default.pieces, Expr.flat_pieces]

theorem FieldDecl.flat_pieces (field : FieldDecl) : Flat field.pieces := by
  simp [FieldDecl.pieces, TypeExpr.flat_pieces, Flat.piecesOf? _ Default.flat_pieces]

theorem InterfaceMember.flat_pieces (member : InterfaceMember) : Flat member.pieces := by
  cases member with
  | method spec =>
      simp [InterfaceMember.pieces, MethodSpec.pieces, Flat.piecesOf? _ Results.flat_pieces,
        Flat.listPieces _ Param.flat_pieces]
  | embed name => exact name.flat_pieces

theorem SumVariant.flat_pieces (variant : SumVariant) : Flat variant.pieces := by
  simp [SumVariant.pieces,
    Flat.piecesOf? _ fun params => Flat.listPieces params Param.flat_pieces]

theorem ImplementsDecl.flat_pieces (decl : ImplementsDecl) : Flat decl.pieces := by
  simp [ImplementsDecl.pieces, QualifiedName.flat_pieces]

/-- Pieces that close the braces they open, and no others. -/
def Closed (pieces : List Piece) : Prop := Brace.Level (bracesOf pieces)

theorem closed_nil : Closed [] := .nil

theorem Closed.append {pieces rest : List Piece} (hpieces : Closed pieces)
    (hrest : Closed rest) : Closed (pieces ++ rest) := by
  rw [Closed, bracesOf_append]
  exact Brace.Level.append hpieces hrest

theorem Closed.token {pieces : List Piece} (stored : Token) (hpieces : Closed pieces) :
    Closed (.token stored :: pieces) := hpieces

theorem Closed.flatMap {α : Type} {pieces : α → List Piece} {items : List α}
    (hpieces : ∀ item ∈ items, Closed (pieces item)) : Closed (items.flatMap pieces) := by
  rw [Closed, bracesOf_flatMap]
  exact .flatMap hpieces

theorem Closed.body {pieces : List Piece} (opening closing : Token)
    (hpieces : Closed pieces) :
    Closed (.opens opening :: pieces ++ [.closes closing]) := by
  rw [Closed, bracesOf_append, bracesOf_cons]
  exact Brace.Level.enclosed hpieces

theorem Flat.closed {pieces : List Piece} (hflat : Flat pieces) : Closed pieces := by
  induction pieces with
  | nil => exact closed_nil
  | cons piece rest ih =>
      obtain ⟨hpiece, hrest⟩ := List.forall_mem_cons.1 hflat
      rw [Closed, bracesOf_cons, hpiece]
      exact ih hrest

theorem TypeDecl.closed_pieces {α : Type} {pieces : α → List Piece} (decl : TypeDecl α)
    (hpieces : ∀ member, Flat (pieces member)) : Closed (decl.pieces pieces) :=
  Closed.body decl.body.opening decl.body.closing
    (.flatMap fun member _ => (hpieces member).closed)

mutual

theorem Stmt.closed_pieces (stmt : Stmt) : Closed stmt.pieces := by
  match stmt with
  | .block body => exact Stmt.closed_piecesOfBlock body
  | .const value | .var value => exact value.flat_pieces.closed
  | .assign left _ right => exact left.flat_pieces.closed.append right.flat_pieces.closed
  | .incDec target _ => exact target.flat_pieces.closed.append closed_nil
  | .effect value => exact value.flat_pieces.closed
  | .returns _ values => exact (Flat.flatMap values Expr.flat_pieces).closed
  | .ifElse _ condition body otherwise =>
      exact (condition.flat_pieces.closed.append (Stmt.closed_piecesOfBlock body)).append
        (Stmt.closed_pieces? otherwise)
  | .forLoop _ first condition after body =>
      have hcondition := (Flat.piecesOf? condition Expr.flat_pieces).closed
      exact (((Stmt.closed_pieces? first).append hcondition).append
        (Stmt.closed_pieces? after)).append (Stmt.closed_piecesOfBlock body)
  | .rangeLoop _ key value op rangeKeyword subject body =>
      have htargets : Flat (piecesOf? Expr.pieces key ++ piecesOf? Expr.pieces value ++
          piecesOf? (fun op => [.token op]) op) := by
        simp [Flat.piecesOf? _ Expr.flat_pieces, Flat.piecesOf?]
      have hsubject := subject.flat_pieces.closed.token rangeKeyword
      exact (htargets.closed.append hsubject).append (Stmt.closed_piecesOfBlock body)
  | .switch _ first tag cases =>
      have htag := (Flat.piecesOf? tag Expr.flat_pieces).closed
      exact ((Stmt.closed_pieces? first).append htag).append (Stmt.closed_piecesOfBlock cases)
  | .clause _ values _ body =>
      have hvalues := (Flat.flatMap values Expr.flat_pieces).closed
      exact hvalues.append (Stmt.closed_piecesOfAll body)
  | .breakLoop _ | .continueLoop _ | .fallThrough _ | .bad _ => exact closed_nil
  | .decl inner => exact inner.closed_pieces

theorem Stmt.closed_piecesOfBlock (block : Enclosed Stmt) :
    Closed (Stmt.piecesOfBlock block) := by
  match block with
  | ⟨opening, stmts, closing⟩ => exact (Stmt.closed_piecesOfAll stmts).body opening closing

theorem Stmt.closed_pieces? (stmt : Option Stmt) : Closed (Stmt.pieces? stmt) := by
  match stmt with
  | none => exact closed_nil
  | some stmt => exact stmt.closed_pieces

theorem Stmt.closed_piecesOfAll (stmts : List Stmt) : Closed (Stmt.piecesOfAll stmts) := by
  match stmts with
  | [] => exact closed_nil
  | stmt :: rest => exact stmt.closed_pieces.append (Stmt.closed_piecesOfAll rest)

theorem FuncDecl.closed_pieces (decl : FuncDecl) : Closed decl.pieces := by
  match decl with
  | ⟨_, _, params, results, body⟩ =>
      have hparams := (Flat.listPieces params Param.flat_pieces).closed
      have hresults := (Flat.piecesOf? results Results.flat_pieces).closed
      exact (hparams.append hresults).append (Stmt.closed_piecesOfBlock body)

theorem Decl.closed_pieces (decl : Decl) : Closed decl.pieces := by
  match decl with
  | .func inner => exact inner.closed_pieces
  | .struct inner => exact inner.closed_pieces FieldDecl.flat_pieces
  | .interface inner => exact inner.closed_pieces InterfaceMember.flat_pieces
  | .enum inner => exact inner.closed_pieces fun _ => by simp
  | .sum inner => exact inner.closed_pieces SumVariant.flat_pieces
  | .implements inner => exact inner.flat_pieces.closed
  | .bad _ => exact closed_nil

end

end OriSyntax
