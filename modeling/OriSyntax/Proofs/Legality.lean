import OriSyntax.Proofs.Lossless
import OriSyntax.Proofs.Scanning
import OriSyntax.Proofs.StmtShaping
import OriSyntax.Report

/-!
No illegal token is read in silence.  Every token that a tree stores is of the kind that its
field names, and no field names illegal tokens; so where one was read it is hidden in a bad
node, and each bad node has a diagnostic.
-/

namespace OriSyntax

theorem Kind.ne_illegal {accepts : Kind → Bool} (hrejects : accepts .illegal = false)
    {kind : Kind} (hkind : accepts kind) : kind ≠ .illegal := by
  rintro rfl
  rw [hrejects] at hkind
  exact nomatch hkind

/-- No piece stores an illegal token. -/
def Legal (pieces : List Piece) : Prop :=
  ∀ piece ∈ pieces, ∀ token ∈ piece.token?, token.kind ≠ .illegal

section Pieces

variable {α : Type} {pieces : α → List Piece} {rest : List Piece} {stored : Token}

@[simp] theorem legal_nil : Legal [] := fun _ hpiece => nomatch hpiece

@[simp] theorem legal_token :
    Legal (.token stored :: rest) ↔ stored.kind ≠ .illegal ∧ Legal rest := by
  simp [Legal, Piece.token?]

@[simp] theorem legal_opens :
    Legal (.opens stored :: rest) ↔ stored.kind ≠ .illegal ∧ Legal rest := by
  simp [Legal, Piece.token?]

@[simp] theorem legal_closes :
    Legal (.closes stored :: rest) ↔ stored.kind ≠ .illegal ∧ Legal rest := by
  simp [Legal, Piece.token?]

@[simp] theorem legal_bad (node : BadNode) : Legal (.bad node :: rest) ↔ Legal rest := by
  simp [Legal, Piece.token?]

@[simp] theorem legal_append (before : List Piece) :
    Legal (before ++ rest) ↔ Legal before ∧ Legal rest :=
  List.forall_mem_append

theorem Legal.flatMap {items : List α} (hitems : ∀ item ∈ items, Legal (pieces item)) :
    Legal (items.flatMap pieces) := by
  intro piece hpiece
  obtain ⟨item, hmem, hpiece⟩ := List.mem_flatMap.1 hpiece
  exact hitems item hmem piece hpiece

theorem Legal.piecesOf? {value : Option α} (hvalue : ∀ found ∈ value, Legal (pieces found)) :
    Legal (piecesOf? pieces value) := by
  cases value with
  | none => exact legal_nil
  | some found => exact hvalue found rfl

theorem Legal.listPieces {list : Enclosed α} (hopening : list.opening.kind = .lparen)
    (hitems : ∀ item ∈ list.items, Legal (pieces item)) (hclosing : list.closing.kind = .rparen) :
    Legal (list.listPieces pieces) := by
  simp [Enclosed.listPieces, hopening, hclosing, Legal.flatMap hitems]

theorem Legal.bodyPieces {body : Enclosed α} (hopening : body.opening.kind = .lbrace)
    (hitems : ∀ item ∈ body.items, Legal (pieces item)) (hclosing : body.closing.kind = .rbrace) :
    Legal (body.bodyPieces pieces) := by
  simp [Enclosed.bodyPieces, hopening, hclosing, Legal.flatMap hitems]

end Pieces

theorem TypeExpr.legal_pieces {accepts : Kind → Bool} (hrejects : accepts .illegal = false)
    {type : TypeExpr} (htype : type.Shaped accepts) : Legal type.pieces := by
  cases type with
  | named name => simpa [TypeExpr.pieces] using Kind.ne_illegal hrejects htype
  | bad node => simp [TypeExpr.pieces]

mutual

theorem Expr.legal_pieces (expr : Expr) (hexpr : expr.Shaped) : Legal expr.pieces := by
  match expr with
  | .ident _ =>
      simp only [Expr.Shaped] at hexpr
      simp [Expr.pieces, hexpr]
  | .literal sort _ =>
      simp only [Expr.Shaped] at hexpr
      cases sort <;> simp [Expr.pieces, hexpr, LiteralSort.kind]
  | .paren _ inner _ =>
      simp only [Expr.Shaped] at hexpr
      obtain ⟨hopening, hinner, hclosing⟩ := hexpr
      simp [Expr.pieces, hopening, inner.legal_pieces hinner, hclosing]
  | .unary _ operand =>
      simp only [Expr.Shaped] at hexpr
      have hop := Kind.ne_illegal rfl hexpr.1
      simp [Expr.pieces, hop, operand.legal_pieces hexpr.2]
  | .binary left _ right =>
      simp only [Expr.Shaped] at hexpr
      obtain ⟨hleft, hbinary, hright⟩ := hexpr
      have hop := Kind.ne_illegal rfl hbinary
      simp [Expr.pieces, left.legal_pieces hleft, hop, right.legal_pieces hright]
  | .selector base _ _ =>
      simp only [Expr.Shaped] at hexpr
      obtain ⟨hbase, hdot, hname⟩ := hexpr
      simp [Expr.pieces, base.legal_pieces hbase, hdot, hname]
  | .index base _ inner _ =>
      simp only [Expr.Shaped] at hexpr
      obtain ⟨hbase, hopening, hinner, hclosing⟩ := hexpr
      simp [Expr.pieces, base.legal_pieces hbase, hopening, inner.legal_pieces hinner, hclosing]
  | .call callee ⟨_, args, _⟩ =>
      simp only [Expr.Shaped] at hexpr
      obtain ⟨hcallee, hopening, hargs, hclosing⟩ := hexpr
      have hlegal := Expr.legal_piecesOfAll args hargs
      rw [Expr.piecesOfAll_eq] at hlegal
      simp [Expr.pieces, callee.legal_pieces hcallee, hopening, hlegal, hclosing]
  | .bad _ => simp [Expr.pieces]

theorem Expr.legal_piecesOfAll (exprs : List Expr) (hexprs : Expr.ShapedAll exprs) :
    Legal (Expr.piecesOfAll exprs) := by
  match exprs with
  | [] => exact legal_nil
  | expr :: rest =>
      rw [Expr.ShapedAll] at hexprs
      exact (legal_append _).2
        ⟨expr.legal_pieces hexprs.1, Expr.legal_piecesOfAll rest hexprs.2⟩

end

theorem Expr.legal_flatMap {exprs : List Expr} (hexprs : Expr.ShapedAll exprs) :
    Legal (exprs.flatMap Expr.pieces) :=
  .flatMap fun expr hexpr => expr.legal_pieces (Expr.shapedAll_iff.1 hexprs expr hexpr)

theorem ValueDecl.legal_pieces {keyword : Kind} (hkeyword : keyword ≠ .illegal)
    {decl : ValueDecl} (hdecl : decl.Shaped keyword) : Legal decl.pieces := by
  have htype := Legal.piecesOf? fun type htype =>
    TypeExpr.legal_pieces rfl (hdecl.type type htype)
  simp [ValueDecl.pieces, hdecl.keyword, hkeyword, hdecl.name, htype, hdecl.eq,
    decl.value.legal_pieces hdecl.value]

theorem Param.legal_pieces {named : Bool} {param : Param} (hparam : param.Shaped named) :
    Legal param.pieces := by
  have hname : ∀ name ∈ param.name, Legal [.token name] := by
    intro name hname
    simp [hparam.name name hname]
  simp [Param.pieces, Legal.piecesOf? hname, TypeExpr.legal_pieces rfl hparam.type]

theorem ParamList.legal_pieces {named : Bool} {params : ParamList}
    (hparams : ParamList.Shaped named params) : Legal (params.listPieces Param.pieces) :=
  .listPieces hparams.opening (fun param hparam => Param.legal_pieces (hparams.items param hparam))
    hparams.closing

theorem Results.legal_pieces {results : Results} (hresults : results.Shaped) :
    Legal results.pieces := by
  cases results with
  | single type => exact TypeExpr.legal_pieces rfl hresults
  | list params =>
      obtain ⟨named, hparams⟩ := hresults
      exact ParamList.legal_pieces hparams

theorem QualifiedName.legal_pieces {name : QualifiedName} (hname : name.WellFormed) :
    Legal name.pieces := by
  have hqualifier : ∀ qualifier ∈ name.qualifier,
      Legal [.token qualifier.package, .token qualifier.dot] := by
    intro qualifier hqualifier
    obtain ⟨hpackage, hdot⟩ := hname.qualifier qualifier hqualifier
    simp [hpackage, hdot]
  simp [QualifiedName.pieces, Legal.piecesOf? hqualifier, hname.name]

theorem FieldDecl.legal_pieces {field : FieldDecl} (hfield : field.Shaped) :
    Legal field.pieces := by
  have hdefault : ∀ default ∈ field.default, Legal default.pieces := by
    intro default hdefault
    obtain ⟨heq, hvalue⟩ := hfield.default default hdefault
    simp [Default.pieces, heq, default.value.legal_pieces hvalue]
  simp [FieldDecl.pieces, hfield.name, TypeExpr.legal_pieces rfl hfield.type,
    Legal.piecesOf? hdefault]

theorem InterfaceMember.legal_pieces {member : InterfaceMember} (hmember : member.Shaped) :
    Legal member.pieces := by
  cases member with
  | method spec =>
      obtain ⟨hname, hparams, hresults⟩ := hmember
      have hlegal := Legal.piecesOf? fun results hfound =>
        Results.legal_pieces (hresults results hfound)
      simp [InterfaceMember.pieces, MethodSpec.pieces, hname, ParamList.legal_pieces hparams,
        hlegal]
  | embed name => exact QualifiedName.legal_pieces hmember

theorem SumVariant.legal_pieces {variant : SumVariant} (hvariant : variant.Shaped) :
    Legal variant.pieces := by
  have hparams := Legal.piecesOf? fun params hparams =>
    ParamList.legal_pieces (hvariant.params params hparams)
  simp [SumVariant.pieces, hvariant.name, hparams]

theorem TypeDecl.legal_pieces {α : Type} {keyword : Kind} (hkeyword : keyword ≠ .illegal)
    {member : α → Prop} {pieces : α → List Piece}
    (hpieces : ∀ item, member item → Legal (pieces item)) {decl : TypeDecl α}
    (hdecl : TypeDecl.WellFormed keyword member decl) : Legal (decl.pieces pieces) := by
  have hbody : Legal (decl.body.bodyPieces pieces) :=
    .bodyPieces hdecl.opening (fun item hitem => hpieces item (hdecl.items item hitem))
      hdecl.closing
  simp [TypeDecl.pieces, hdecl.typeKeyword, hdecl.name, hdecl.keyword, hkeyword, hbody]

theorem ImplementsDecl.legal_pieces {decl : ImplementsDecl} (hdecl : decl.WellFormed) :
    Legal decl.pieces := by
  simp [ImplementsDecl.pieces, hdecl.typeName, hdecl.keyword,
    QualifiedName.legal_pieces hdecl.interface]

theorem StructDecl.legal_pieces {decl : StructDecl} (hdecl : StructDecl.Shaped decl) :
    Legal (decl.pieces FieldDecl.pieces) :=
  TypeDecl.legal_pieces (by decide) (fun _ => FieldDecl.legal_pieces) hdecl

theorem InterfaceDecl.legal_pieces {decl : InterfaceDecl} (hdecl : InterfaceDecl.Shaped decl) :
    Legal (decl.pieces InterfaceMember.pieces) :=
  TypeDecl.legal_pieces (by decide) (fun _ => InterfaceMember.legal_pieces) hdecl

theorem EnumDecl.legal_pieces {decl : EnumDecl} (hdecl : EnumDecl.WellFormed decl) :
    Legal (decl.pieces fun variant => [.token variant]) :=
  TypeDecl.legal_pieces (by decide) (fun variant hvariant => by simp [hvariant]) hdecl.1

theorem SumDecl.legal_pieces {decl : SumDecl} (hdecl : SumDecl.Shaped decl) :
    Legal (decl.pieces SumVariant.pieces) :=
  TypeDecl.legal_pieces (by decide) (fun _ => SumVariant.legal_pieces) hdecl.1

theorem Decl.legal_pieces_of_shapedType {decl : Decl} (hdecl : decl.ShapedType) :
    Legal decl.pieces := by
  cases decl with
  | struct type => simpa [Decl.pieces] using StructDecl.legal_pieces hdecl
  | interface type => simpa [Decl.pieces] using InterfaceDecl.legal_pieces hdecl
  | enum type => simpa [Decl.pieces] using EnumDecl.legal_pieces hdecl
  | sum type => simpa [Decl.pieces] using SumDecl.legal_pieces hdecl
  | func _ | implements _ | bad _ => exact absurd hdecl id

theorem Expr.legal_piecesOf? {part : Option Expr} (hpart : ∀ expr ∈ part, expr.Shaped) :
    Legal (piecesOf? Expr.pieces part) :=
  .piecesOf? fun expr hexpr => expr.legal_pieces (hpart expr hexpr)

theorem CaseValues.ne_illegal {keyword : Token} {values : List Expr}
    (hvalues : CaseValues keyword values) : keyword.kind ≠ .illegal := by
  rcases hvalues with ⟨hkind, -⟩ | ⟨hkind, -⟩
  · simp [hkind]
  · simp [hkind]

mutual

theorem Stmt.legal_pieces (stmt : Stmt) (hstmt : stmt.Shaped) : Legal stmt.pieces := by
  match stmt with
  | .block body =>
      simp only [Stmt.Shaped] at hstmt
      simpa only [Stmt.pieces] using Stmt.legal_piecesOfBlock body hstmt
  | .const value =>
      simp only [Stmt.Shaped] at hstmt
      simpa only [Stmt.pieces] using ValueDecl.legal_pieces (by decide) hstmt
  | .var value =>
      simp only [Stmt.Shaped] at hstmt
      simpa only [Stmt.pieces] using ValueDecl.legal_pieces (by decide) hstmt
  | .assign left _ right =>
      simp only [Stmt.Shaped] at hstmt
      obtain ⟨-, hleft, hassign, hright⟩ := hstmt
      have hop := Kind.ne_illegal rfl hassign
      simp [Stmt.pieces, left.legal_pieces hleft, hop, right.legal_pieces hright]
  | .incDec target _ =>
      simp only [Stmt.Shaped] at hstmt
      obtain ⟨-, htarget, hsign⟩ := hstmt
      have hop := Kind.ne_illegal rfl hsign
      simp [Stmt.pieces, target.legal_pieces htarget, hop]
  | .effect value =>
      simp only [Stmt.Shaped] at hstmt
      simpa only [Stmt.pieces] using value.legal_pieces hstmt.2
  | .returns _ values =>
      simp only [Stmt.Shaped] at hstmt
      simp [Stmt.pieces, hstmt.1, Expr.legal_flatMap hstmt.2]
  | .ifElse _ condition body otherwise =>
      simp only [Stmt.Shaped] at hstmt
      obtain ⟨hkeyword, hcondition, hbody, hotherwise⟩ := hstmt
      have hblock := Stmt.legal_piecesOfBlock body hbody
      have hpart := Stmt.legal_pieces? otherwise hotherwise
      simp_all [Stmt.pieces, condition.legal_pieces hcondition]
  | .forLoop _ first condition after body =>
      simp only [Stmt.Shaped] at hstmt
      obtain ⟨hkeyword, hfirst, hcondition, hafter, hbody⟩ := hstmt
      have hblock := Stmt.legal_piecesOfBlock body hbody
      have hinit := Stmt.legal_pieces? first hfirst
      have hpost := Stmt.legal_pieces? after hafter
      simp_all [Stmt.pieces, Expr.legal_piecesOf? hcondition]
  | .rangeLoop _ key value op _ subject body =>
      simp only [Stmt.Shaped] at hstmt
      obtain ⟨hkeyword, htargets, hrange, hsubject, hbody⟩ := hstmt
      have hblock := Stmt.legal_piecesOfBlock body hbody
      have hop : ∀ sign ∈ op, Legal [.token sign] := by
        intro sign hsign
        rcases htargets.op sign hsign with hkind | hkind <;> simp [hkind]
      simp_all [Stmt.pieces, Expr.legal_piecesOf? htargets.key,
        Expr.legal_piecesOf? htargets.value, Legal.piecesOf? hop, subject.legal_pieces hsubject]
  | .switch _ first tag ⟨_, cases, _⟩ =>
      simp only [Stmt.Shaped] at hstmt
      obtain ⟨hkeyword, hfirst, htag, hopening, hcases, -, hclosing⟩ := hstmt
      have hinit := Stmt.legal_pieces? first hfirst
      have hclauses := Stmt.legal_piecesOfAll cases hcases
      simp_all [Stmt.pieces, Enclosed.bodyPieces, Expr.legal_piecesOf? htag]
  | .clause _ values _ body =>
      simp only [Stmt.Shaped] at hstmt
      obtain ⟨hvalues, hexprs, hcolon, hbody⟩ := hstmt
      have hstmts := Stmt.legal_piecesOfAll body hbody
      simp_all [Stmt.pieces, hvalues.ne_illegal, Expr.legal_flatMap hexprs]
  | .breakLoop _ | .continueLoop _ | .fallThrough _ =>
      simp only [Stmt.Shaped] at hstmt
      simp [Stmt.pieces, hstmt]
  | .decl inner =>
      simp only [Stmt.Shaped] at hstmt
      simpa only [Stmt.pieces] using Decl.legal_pieces_of_shapedType hstmt
  | .bad _ => simp [Stmt.pieces]

theorem Stmt.legal_piecesOfBlock (body : Enclosed Stmt) (hbody : Stmt.ShapedBlock body) :
    Legal (Stmt.piecesOfBlock body) := by
  match body with
  | ⟨_, stmts, _⟩ =>
      simp only [Stmt.ShapedBlock] at hbody
      obtain ⟨hopening, hstmts, hclosing⟩ := hbody
      have hlegal := Stmt.legal_piecesOfAll stmts hstmts
      simp_all [Enclosed.bodyPieces]

theorem Stmt.legal_pieces? {allowed : Stmt → Bool} (part : Option Stmt)
    (hpart : Stmt.ShapedPart allowed part) : Legal (Stmt.pieces? part) := by
  match part with
  | none => exact legal_nil
  | some stmt =>
      simp only [Stmt.ShapedPart] at hpart
      exact stmt.legal_pieces hpart.2

theorem Stmt.legal_piecesOfAll {allowed : Stmt → Bool} (stmts : List Stmt)
    (hstmts : Stmt.ShapedAll allowed stmts) : Legal (Stmt.piecesOfAll stmts) := by
  match stmts with
  | [] => exact legal_nil
  | stmt :: rest =>
      simp only [Stmt.ShapedAll] at hstmts
      exact (legal_append _).2
        ⟨stmt.legal_pieces hstmts.2.1, Stmt.legal_piecesOfAll rest hstmts.2.2⟩

end

theorem FuncDecl.legal_pieces {decl : FuncDecl} (hdecl : decl.Shaped) : Legal decl.pieces := by
  obtain ⟨keyword, name, params, results, body⟩ := decl
  obtain ⟨hkeyword, hname, hparams, hresults, hbody⟩ := hdecl
  dsimp only at hkeyword hname hparams hresults hbody
  have hyields := Legal.piecesOf? fun results hfound =>
    Results.legal_pieces (hresults results hfound)
  have hblock := Stmt.legal_piecesOfBlock body hbody
  simp_all [FuncDecl.pieces, ParamList.legal_pieces hparams]

theorem Item.legal_pieces {item : Item} (hitem : item.Shaped) : Legal item.pieces := by
  cases item with
  | const stmt =>
      cases stmt with
      | const value => exact ValueDecl.legal_pieces (by decide) hitem
      | bad node => simp [Item.pieces, Stmt.pieces]
      | _ => exact absurd hitem id
  | decl inner =>
      cases inner with
      | func function => exact FuncDecl.legal_pieces hitem
      | bad node => simp [Item.pieces, Decl.pieces]
      | _ => exact absurd hitem id
  | struct type => exact StructDecl.legal_pieces hitem
  | interface type => exact InterfaceDecl.legal_pieces hitem
  | enum type => exact EnumDecl.legal_pieces hitem
  | sum type => exact SumDecl.legal_pieces hitem
  | implements offer => exact ImplementsDecl.legal_pieces hitem

namespace File

variable {file : File}

theorem Shaped.of_mem_items (hfile : file.Shaped) {item : Item} (hitem : item ∈ file.items) :
    item.Shaped := by
  simp only [items, List.mem_append, List.mem_map, or_assoc] at hitem
  rcases hitem with ⟨stmt, hmem, rfl⟩ | ⟨decl, hmem, rfl⟩ | ⟨type, hmem, rfl⟩ |
    ⟨type, hmem, rfl⟩ | ⟨type, hmem, rfl⟩ | ⟨type, hmem, rfl⟩ | ⟨offer, hmem, rfl⟩
  · exact hfile.consts stmt hmem
  · exact hfile.decls decl hmem
  · exact hfile.structs type hmem
  · exact hfile.interfaces type hmem
  · exact hfile.enums type hmem
  · exact hfile.sums type hmem
  · exact hfile.implements offer hmem

theorem Shaped.legal_clauseTokens (hfile : file.Shaped) :
    Legal (file.clauseTokens.map .token) := by
  rcases hfile.header with ⟨hpackage, hname⟩ | ⟨habsent, -⟩
  · simp [clauseTokens, hpackage, hname]
  · have hkind : file.package.kind ≠ .packageKw := by
      rw [habsent]
      decide
    simp [clauseTokens, hkind]

end File

namespace Grammar

/-- Between the two states an illegal token was read only if something was reported. -/
def State.Vigilant (start stop : State) : Prop :=
  ∃ run, start.cursor.Reads run stop.cursor ∧
    ((∃ token ∈ run, token.kind = .illegal) → start.diagnostics.size < stop.diagnostics.size)

section Vigilance

variable {start stop : State} {pieces : List Piece}

/-- What was read is stored in legal pieces, or hidden in a bad node that was reported. -/
theorem Explained.vigilant {ordered calm : Prop} (hexplained : Explained start pieces stop)
    (hcovers : Covers ordered calm start.cursor pieces stop.cursor) (hlegal : Legal pieces) :
    start.Vigilant stop := by
  by_cases hbad : badNodesOf pieces = []
  · obtain ⟨run, hrun, htokens⟩ := hcovers.tokensOf_eq hbad
    refine ⟨run, hrun, ?_⟩
    rintro ⟨token, htoken, hillegal⟩
    have hkept : token ∈ tokensOf pieces := by
      rw [← htokens, List.mem_filter, hillegal]
      exact ⟨htoken, rfl⟩
    obtain ⟨piece, hpiece, hstored⟩ := List.mem_filterMap.1 hkept
    exact absurd hillegal (hlegal piece hpiece token hstored)
  · obtain ⟨run, hrun⟩ := hcovers.exists_reads
    obtain ⟨reported, hstop, hreasons, -⟩ := hexplained
    have hlength := hreasons.length_le
    rw [List.length_map, List.length_map] at hlength
    have hsome := List.length_pos_iff.2 hbad
    refine ⟨run, hrun, fun _ => ?_⟩
    rw [← Array.length_toList, ← Array.length_toList, hstop, List.length_append]
    omega

theorem Accounted.vigilant (haccounted : Accounted start pieces stop) (hlegal : Legal pieces) :
    start.Vigilant stop :=
  haccounted.explained.vigilant haccounted.covers hlegal

theorem Failed.vigilant {bad : BadNode} (hfailed : Failed start bad stop) :
    start.Vigilant stop := by
  obtain ⟨run, hrun⟩ := hfailed.sameBody.reaches.reads
  obtain ⟨reported, hstop, hmessage⟩ := hfailed.tells
  have hsome := List.length_pos_iff.2 (List.ne_nil_of_mem hmessage)
  rw [List.length_map] at hsome
  refine ⟨run, hrun, fun _ => ?_⟩
  rw [← Array.length_toList, ← Array.length_toList, hstop, List.length_append]
  omega

end Vigilance

variable (start : State) (levels : Nat)

theorem nested_expr_vigilant (least : Precedence) :
    start.Vigilant (((nested levels).expr least).run start).2 := by
  have haccounted := ((nested_accounts levels).expr least).keeps start [] start
    ⟨.refl start, trivial⟩
  exact haccounted.vigilant (Expr.legal_pieces _ ((nested_shapes levels).expr least start trivial))

theorem nested_stmt_vigilant : start.Vigilant ((nested levels).stmt.run start).2 := by
  have haccounted := (nested_accounts levels).stmt.keeps start [] start ⟨.refl start, trivial⟩
  exact haccounted.vigilant
    (Stmt.legal_pieces _ ((nested_shapes levels).stmt start trivial).2)

theorem item_vigilant : start.Vigilant (item.run start).2 := by
  have hlisted := item_meets start start rfl
  apply hlisted.explained.vigilant hlisted.covers
  rw [List.flatMap_singleton]
  exact Item.legal_pieces (item_shapes start trivial)

theorem file_vigilant : start.Vigilant (file.run start).2 := by
  obtain ⟨hfiled, -⟩ := file_meets start start rfl
  have hshaped := file_shapes start trivial
  obtain ⟨items, hitems, hcovers, hexplained⟩ := hfiled.exists_items
  apply hexplained.vigilant hcovers
  refine (legal_append _).2 ⟨hshaped.legal_clauseTokens, .flatMap fun item hitem => ?_⟩
  exact Item.legal_pieces (hshaped.of_mem_items (hitems.mem_iff.2 hitem))

theorem nested_ifElse_vigilant (hkind : start.cursor.kind = .ifKw) :
    start.Vigilant ((nested levels).ifElse.run.run start).2 := by
  have houtcome := (nested_accounts levels).ifElse start [] start ⟨.refl start, hkind⟩
  have hshaped := (nested_shapes levels).ifElse start hkind
  generalize (nested levels).ifElse.run.run start = result at houtcome hshaped
  obtain ⟨outcome, stop⟩ := result
  cases outcome with
  | ok stmt => exact houtcome.accounted.vigilant (Stmt.legal_pieces stmt hshaped.2)
  | error bad => exact houtcome.vigilant

end Grammar

namespace Source

theorem kind_lineTokens_ne_eof (line before : Nat) (input : List Char) :
    ∀ token ∈ lineTokens line before input, token.kind ≠ .eof := by
  induction before, input using lineTokens.induct with
  | case1 before => simp
  | case2 before c rest hblank ih => rwa [lineTokens_blank _ _ hblank]
  | case3 before c rest hblank ih =>
      rw [lineTokens_lexeme _ _ hblank, List.forall_mem_cons]
      exact ⟨Lexeme.head_kind_ne_eof c rest, ih⟩

/-- Only the last token of a text marks its end, however long the text is. -/
theorem tokensFrom_ends (line : Nat) (text : List Char) :
    ∃ front eof, tokensFrom line text = front ++ [eof] ∧ eof.kind = .eof ∧
      ∀ token ∈ front, token.kind ≠ .eof := by
  induction text using lines_induction generalizing line with
  | last last hlast =>
      rw [tokensFrom_last line hlast]
      exact ⟨_, _, rfl, rfl, kind_lineTokens_ne_eof line 0 last⟩
  | line first rest hfirst ih =>
      obtain ⟨front, eof, hrest, heof, hfront⟩ := ih (line + 1)
      refine ⟨lineTokens line 0 first ++ front, eof, ?_, heof, ?_⟩
      · rw [tokensFrom_line line hfirst, hrest, List.append_assoc]
      · exact List.forall_mem_append.2 ⟨kind_lineTokens_ne_eof line 0 first, hfront⟩

/-- Every illegal token of a text stands before its end. -/
theorem mem_takeWhile_of_illegal {source : String} {token : Token}
    (htoken : token ∈ tokens source) (hillegal : token.kind = .illegal) :
    token ∈ (tokens source).takeWhile (·.kind ≠ .eof) := by
  obtain ⟨front, eof, htokens, heof, hfront⟩ := tokensFrom_ends 1 source.toList
  rw [tokens_eq, htokens] at htoken ⊢
  rw [List.takeWhile_append_of_pos (by simpa using hfront)]
  cases List.mem_append.1 htoken with
  | inl hmem => exact List.mem_append_left _ hmem
  | inr hmem =>
      obtain rfl := List.mem_singleton.1 hmem
      exact nomatch heof.symm.trans hillegal

end Source

theorem diagnostics_ne_nil_of_illegal {tokens : List Token} {token : Token}
    (htoken : token ∈ tokens.takeWhile (·.kind ≠ .eof)) (hillegal : token.kind = .illegal) :
    (parse tokens).diagnostics ≠ [] := by
  obtain ⟨-, hend⟩ := Grammar.file_meets (initialState tokens) _ rfl
  obtain ⟨run, hrun, hreports⟩ := Grammar.file_vigilant (initialState tokens)
  have hread : token ∈ run := by
    rw [eq_ahead_of_reads hrun hend, Cursor.ahead_ofTokens, List.mem_filter, hillegal]
    exact ⟨htoken, rfl⟩
  have hsize := hreports ⟨token, hread, hillegal⟩
  intro hnone
  have hempty : (Grammar.file.run (initialState tokens)).2.diagnostics.toList = [] := hnone
  rw [← Array.length_toList, ← Array.length_toList, hempty] at hsize
  exact absurd hsize (Nat.not_lt_zero _)

/-- An illegal token before the end of a list is reported when the list is read, so a source
with a diagnostic in its token listing has one in its tree listing; and wherever an item,
an expression or a statement is read, no illegal token is read in silence. -/
theorem illegal_reported :
    (∀ tokens : List Token,
      (∃ token ∈ tokens.takeWhile (·.kind ≠ .eof), token.kind = .illegal) →
        (parse tokens).diagnostics ≠ []) ∧
    (∀ (path source : String) (quiet : Bool),
      (FileReport.ofTokens path source).diagnostics ≠ [] →
        (FileReport.ofTree path source quiet).diagnostics ≠ []) ∧
    ∀ start : Grammar.State, start.Vigilant (Grammar.file.run start).2 ∧
      start.Vigilant (Grammar.item.run start).2 ∧
      ∀ levels,
        (∀ least, start.Vigilant (((Grammar.nested levels).expr least).run start).2) ∧
        start.Vigilant ((Grammar.nested levels).stmt.run start).2 ∧
        (start.cursor.kind = .ifKw →
          start.Vigilant ((Grammar.nested levels).ifElse.run.run start).2) := by
  refine ⟨?_, ?_, fun start => ⟨?_, ?_, fun levels => ⟨fun least => ?_, ?_, fun hkind => ?_⟩⟩⟩
  · rintro tokens ⟨token, htoken, hillegal⟩
    exact diagnostics_ne_nil_of_illegal htoken hillegal
  · intro path source quiet hlisted
    have hsome : (Source.tokens source).filter (·.kind = .illegal) ≠ [] := by
      intro hnone
      exact hlisted (congrArg (List.map Diagnostic.illegal) hnone)
    obtain ⟨token, htoken⟩ := List.exists_mem_of_ne_nil _ hsome
    obtain ⟨hmem, hillegal⟩ := List.mem_filter.1 htoken
    have hkind : token.kind = .illegal := of_decide_eq_true hillegal
    exact diagnostics_ne_nil_of_illegal (Source.mem_takeWhile_of_illegal hmem hkind) hkind
  · exact Grammar.file_vigilant start
  · exact Grammar.item_vigilant start
  · exact Grammar.nested_expr_vigilant start levels least
  · exact Grammar.nested_stmt_vigilant start levels
  · exact Grammar.nested_ifElse_vigilant start levels hkind

/-- A statement with an illegal token in place of its operator, inside a condition. -/
def strayTokens : List Token :=
  [⟨.packageKw, "package", 1, 1⟩, ⟨.ident, "p", 1, 9⟩, ⟨.funcKw, "func", 2, 1⟩,
    ⟨.ident, "f", 2, 6⟩, ⟨.lparen, "(", 2, 7⟩, ⟨.rparen, ")", 2, 8⟩,
    ⟨.lbrace, "\x7b", 2, 10⟩, ⟨.ifKw, "if", 3, 3⟩, ⟨.ident, "a", 3, 6⟩,
    ⟨.lbrace, "\x7b", 3, 8⟩, ⟨.ident, "b", 4, 5⟩, ⟨.illegal, "@", 4, 7⟩,
    ⟨.rbrace, "\x7d", 5, 3⟩, ⟨.rbrace, "\x7d", 6, 1⟩]

/-- The condition is read in a state of its own. -/
theorem illegal_reported_strayTokens :
    let start := initialState (strayTokens.drop 7)
    (∃ token ∈ strayTokens.takeWhile (·.kind ≠ .eof), token.kind = .illegal) ∧
      (parse strayTokens).diagnostics ≠ [] ∧
      (FileReport.ofTokens "a.ori" "package p const é").diagnostics ≠ [] ∧
      (FileReport.ofTree "a.ori" "package p const é" true).diagnostics ≠ [] ∧
      start.cursor.kind = .ifKw ∧
        start.Vigilant ((Grammar.nested 3).ifElse.run.run start).2 := by
  intro start
  obtain ⟨hparsed, hlisted, hread⟩ := illegal_reported
  have hstray : ∃ token ∈ strayTokens.takeWhile (·.kind ≠ .eof), token.kind = .illegal := by
    decide
  have hlexed : (FileReport.ofTokens "a.ori" "package p const é").diagnostics ≠ [] := by
    decide +kernel
  have hkind : start.cursor.kind = .ifKw := rfl
  exact ⟨hstray, hparsed strayTokens hstray, hlexed, hlisted _ _ true hlexed, hkind,
    ((hread start).2.2 3).2.2 hkind⟩

end OriSyntax
