import OriSyntax.Proofs.Extents

/-!
How the nodes of a file nest.  Every node of a tree is made of its own pieces, so if the
tokens of a file stand in order, the nodes of its tree do.
-/

namespace OriSyntax

open Extent

theorem TypeExpr.madeOf (type : TypeExpr) : type.extent.MadeOf type.pieces :=
  .intro type.firstTokenOf_pieces type.lastTokenOf_pieces .nil

theorem Expr.madeOf_of_parts {expr : Expr} (hparts : MadeOfAll expr.parts expr.pieces) :
    expr.extent.MadeOf expr.pieces :=
  .intro expr.firstTokenOf_pieces expr.lastTokenOf_pieces hparts

mutual

theorem Expr.madeOfAll_parts (expr : Expr) : MadeOfAll expr.parts expr.pieces := by
  match expr with
  | .ident _ | .literal .. | .bad _ => exact .nil
  | .paren _ inner _ =>
      have hinner := MadeOfAll.singleton (madeOf_of_parts inner.madeOfAll_parts)
      exact (hinner.cons _).append_right _
  | .unary _ operand =>
      have hoperand := MadeOfAll.singleton (madeOf_of_parts operand.madeOfAll_parts)
      exact hoperand.cons _
  | .binary left _ right =>
      have hleft := MadeOfAll.singleton (madeOf_of_parts left.madeOfAll_parts)
      have hright := MadeOfAll.singleton (madeOf_of_parts right.madeOfAll_parts)
      exact hleft.append (hright.cons _)
  | .selector base _ _ =>
      have hbase := MadeOfAll.singleton (madeOf_of_parts base.madeOfAll_parts)
      exact hbase.append_right _
  | .index base _ inner _ =>
      have hbase := MadeOfAll.singleton (madeOf_of_parts base.madeOfAll_parts)
      have hinner := MadeOfAll.singleton (madeOf_of_parts inner.madeOfAll_parts)
      exact (hbase.append (hinner.cons _)).append_right _
  | .call callee ⟨_, args, _⟩ =>
      have hcallee := MadeOfAll.singleton (madeOf_of_parts callee.madeOfAll_parts)
      exact (hcallee.append ((Expr.madeOfAll_extents args).cons _)).append_right _

theorem Expr.madeOfAll_extents (exprs : List Expr) :
    MadeOfAll (Expr.extents exprs) (Expr.piecesOfAll exprs) := by
  match exprs with
  | [] => exact .nil
  | expr :: rest =>
      have hexpr := MadeOfAll.singleton (madeOf_of_parts expr.madeOfAll_parts)
      exact hexpr.append (Expr.madeOfAll_extents rest)

end

theorem Expr.madeOf (expr : Expr) : expr.extent.MadeOf expr.pieces :=
  madeOf_of_parts expr.madeOfAll_parts

theorem ValueDecl.madeOfAll_parts (decl : ValueDecl) : MadeOfAll decl.parts decl.pieces := by
  have htype := MadeOfAll.option TypeExpr.madeOf decl.type
  have hvalue := MadeOfAll.singleton decl.value.madeOf
  exact ((htype.append (hvalue.cons _)).cons _).cons _

theorem Param.madeOf (param : Param) : param.extent.MadeOf param.pieces := by
  apply MadeOf.intro
  · cases hname : param.name <;>
      simp [Param.pieces, Param.first, Piece.first, piecesOf?, hname,
        param.type.firstTokenOf_pieces]
  · simp [Param.pieces, Param.last, param.type.lastTokenOf_pieces]
  · exact (MadeOfAll.singleton param.type.madeOf).append_left _

/-- A list in parentheses. -/
theorem Enclosed.madeOf_listPieces {α : Type} {nodePieces : α → List Piece}
    {extents : List Extent} (enclosed : Enclosed α)
    (hitems : MadeOfAll extents (enclosed.items.flatMap nodePieces)) :
    (Extent.node enclosed.opening enclosed.closing extents).MadeOf
      (enclosed.listPieces nodePieces) := by
  apply MadeOf.intro rfl
  · simp [Enclosed.listPieces, Piece.last]
  · exact (hitems.cons _).append_right _

/-- A body in braces. -/
theorem Enclosed.madeOf_bodyPieces {α : Type} {nodePieces : α → List Piece}
    {extents : List Extent} (enclosed : Enclosed α)
    (hitems : MadeOfAll extents (enclosed.items.flatMap nodePieces)) :
    (Extent.node enclosed.opening enclosed.closing extents).MadeOf
      (enclosed.bodyPieces nodePieces) := by
  apply MadeOf.intro rfl
  · exact enclosed.lastTokenOf_bodyPieces nodePieces
  · exact (hitems.cons _).append_right _

theorem ParamList.madeOf (params : ParamList) :
    (ParamList.extent params).MadeOf (params.listPieces Param.pieces) :=
  params.madeOf_listPieces (.map Param.madeOf params.items)

theorem Results.madeOf (results : Results) : results.extent.MadeOf results.pieces := by
  cases results with
  | single type => exact type.madeOf.wrap
  | list params => exact (ParamList.madeOf params).wrap

theorem QualifiedName.madeOf (name : QualifiedName) : name.extent.MadeOf name.pieces := by
  apply MadeOf.intro
  · cases hqualifier : name.qualifier <;>
      simp [QualifiedName.pieces, QualifiedName.first, Piece.first, piecesOf?, hqualifier]
  · simp [QualifiedName.pieces, QualifiedName.last, Piece.last]
  · exact .nil

theorem FieldDecl.madeOf (field : FieldDecl) : field.extent.MadeOf field.pieces := by
  apply MadeOf.intro rfl
  · cases hdefault : field.default <;>
      simp [FieldDecl.pieces, FieldDecl.last, Default.pieces, piecesOf?, hdefault,
        field.type.lastTokenOf_pieces, Expr.lastTokenOf_pieces]
  · have htype := MadeOfAll.singleton field.type.madeOf
    apply MadeOfAll.cons
    apply htype.append
    cases field.default with
    | none => exact .nil
    | some default => exact (MadeOfAll.singleton default.value.madeOf).cons _

theorem InterfaceMember.madeOf (member : InterfaceMember) :
    member.extent.MadeOf member.pieces := by
  cases member with
  | method spec =>
      apply MadeOf.intro rfl
      · rw [InterfaceMember.pieces, MethodSpec.pieces, InterfaceMember.last, MethodSpec.last]
        cases spec.results with
        | none => simp [Enclosed.listPieces, Piece.last, piecesOf?]
        | some results =>
            simp [piecesOf?, results.madeOf.lastTokenOf_eq, Results.extent, Extent.last]
      · have hparams := MadeOfAll.singleton (ParamList.madeOf spec.params)
        exact (hparams.append (.option Results.madeOf spec.results)).cons _
  | embed name => exact name.madeOf.wrap

theorem SumVariant.madeOf (variant : SumVariant) : variant.extent.MadeOf variant.pieces := by
  apply MadeOf.intro rfl
  · cases hparams : variant.params <;>
      simp [SumVariant.pieces, SumVariant.last, Enclosed.listPieces, Piece.last, piecesOf?,
        hparams]
  · exact (MadeOfAll.option ParamList.madeOf variant.params).cons _

theorem TypeDecl.madeOf {α : Type} {node : α → Extent} {nodePieces : α → List Piece}
    (hnode : ∀ member, (node member).MadeOf (nodePieces member)) (decl : TypeDecl α) :
    (decl.extent node).MadeOf (decl.pieces nodePieces) := by
  apply MadeOf.intro rfl
  · exact decl.lastTokenOf_pieces nodePieces
  · have hmembers := MadeOfAll.map hnode decl.body.items
    exact (((((hmembers.cons _).append_right _).cons _).cons _).cons _)

theorem ImplementsDecl.madeOf (decl : ImplementsDecl) : decl.extent.MadeOf decl.pieces := by
  apply MadeOf.intro rfl
  · simp [ImplementsDecl.pieces, QualifiedName.pieces, ImplementsDecl.last, QualifiedName.last,
      Piece.last]
  · exact ((MadeOfAll.singleton decl.interface.madeOf).cons _).cons _

theorem leaf_madeOf (token : Token) : (Extent.leaf token).MadeOf [.token token] :=
  .intro rfl rfl .nil

theorem Stmt.madeOf_of_parts {stmt : Stmt} (hparts : MadeOfAll stmt.parts stmt.pieces) :
    stmt.extent.MadeOf stmt.pieces :=
  .intro stmt.firstTokenOf_pieces stmt.lastTokenOf_pieces hparts

theorem Decl.madeOf_of_parts {decl : Decl} (hparts : MadeOfAll decl.parts decl.pieces) :
    decl.extent.MadeOf decl.pieces :=
  .intro decl.firstTokenOf_pieces decl.lastTokenOf_pieces hparts

mutual

theorem Stmt.madeOfAll_parts (stmt : Stmt) : MadeOfAll stmt.parts stmt.pieces := by
  match stmt with
  | .block ⟨_, stmts, _⟩ => exact ((Stmt.madeOfAll_extents stmts).cons _).append_right _
  | .const decl | .var decl => exact decl.madeOfAll_parts
  | .assign left _ right =>
      exact (MadeOfAll.singleton left.madeOf).append ((MadeOfAll.singleton right.madeOf).cons _)
  | .incDec target _ => exact (MadeOfAll.singleton target.madeOf).append_right _
  | .effect value => exact .singleton value.madeOf
  | .returns _ values => exact (MadeOfAll.map Expr.madeOf values).cons _
  | .ifElse _ condition body otherwise =>
      have hcondition := MadeOfAll.singleton condition.madeOf
      have hbody := MadeOfAll.singleton (Stmt.madeOf_extentOfBlock body)
      exact ((hcondition.cons _).append hbody).append (Stmt.madeOfAll_extent? otherwise)
  | .forLoop _ first condition after body =>
      have hcondition := MadeOfAll.option Expr.madeOf condition
      have hbody := MadeOfAll.singleton (Stmt.madeOf_extentOfBlock body)
      exact ((((Stmt.madeOfAll_extent? first).cons _).append hcondition).append
        (Stmt.madeOfAll_extent? after)).append hbody
  | .rangeLoop _ key value _ _ subject body =>
      have hkey := MadeOfAll.option Expr.madeOf key
      have hvalue := MadeOfAll.option Expr.madeOf value
      have hsubject := MadeOfAll.singleton subject.madeOf
      have hbody := MadeOfAll.singleton (Stmt.madeOf_extentOfBlock body)
      -- The operator before `range` is no node: its piece stands between two of them.
      rw [Stmt.parts, ← List.singleton_append, ← List.append_assoc]
      exact ((((hkey.cons _).append hvalue).append_right _).append (hsubject.cons _)).append
        hbody
  | .switch _ first tag ⟨_, cases, _⟩ =>
      have htag := MadeOfAll.option Expr.madeOf tag
      have hcases := Stmt.madeOfAll_extents cases
      exact (((Stmt.madeOfAll_extent? first).cons _).append htag).append
        ((hcases.cons _).append_right _)
  | .clause _ values _ body =>
      have hvalues := MadeOfAll.map Expr.madeOf values
      exact (hvalues.cons _).append ((Stmt.madeOfAll_extents body).cons _)
  | .breakLoop _ | .continueLoop _ | .fallThrough _ | .bad _ => exact .nil
  | .decl inner => exact .singleton (Decl.madeOf_of_parts inner.madeOfAll_parts)

theorem Stmt.madeOf_extentOfBlock (block : Enclosed Stmt) :
    (Stmt.extentOfBlock block).MadeOf (Stmt.piecesOfBlock block) := by
  match block with
  | ⟨opening, stmts, closing⟩ =>
      have hstmts := Stmt.madeOfAll_extents stmts
      rw [Stmt.piecesOfAll_eq] at hstmts
      rw [Stmt.piecesOfBlock_eq]
      exact Enclosed.madeOf_bodyPieces ⟨opening, stmts, closing⟩ hstmts

theorem Stmt.madeOfAll_extent? (stmt : Option Stmt) :
    MadeOfAll (Stmt.extent? stmt) (Stmt.pieces? stmt) := by
  match stmt with
  | none => exact .nil
  | some stmt => exact .singleton (Stmt.madeOf_of_parts stmt.madeOfAll_parts)

theorem Stmt.madeOfAll_extents (stmts : List Stmt) :
    MadeOfAll (Stmt.extents stmts) (Stmt.piecesOfAll stmts) := by
  match stmts with
  | [] => exact .nil
  | stmt :: rest =>
      have hstmt := MadeOfAll.singleton (Stmt.madeOf_of_parts stmt.madeOfAll_parts)
      exact hstmt.append (Stmt.madeOfAll_extents rest)

theorem Decl.madeOfAll_parts (decl : Decl) : MadeOfAll decl.parts decl.pieces := by
  match decl with
  | .func ⟨_, _, params, results, body⟩ =>
      have hparams := MadeOfAll.singleton (ParamList.madeOf params)
      have hresults := MadeOfAll.option Results.madeOf results
      have hbody := MadeOfAll.singleton (Stmt.madeOf_extentOfBlock body)
      exact (((hparams.cons _).cons _).append hresults).append hbody
  | .struct inner => exact (inner.madeOf FieldDecl.madeOf).inside
  | .interface inner => exact (inner.madeOf InterfaceMember.madeOf).inside
  | .enum inner => exact (inner.madeOf leaf_madeOf).inside
  | .sum inner => exact (inner.madeOf SumVariant.madeOf).inside
  | .implements inner => exact inner.madeOf.inside
  | .bad _ => exact .nil

end

theorem Stmt.madeOf (stmt : Stmt) : stmt.extent.MadeOf stmt.pieces :=
  madeOf_of_parts stmt.madeOfAll_parts

theorem Decl.madeOf (decl : Decl) : decl.extent.MadeOf decl.pieces :=
  madeOf_of_parts decl.madeOfAll_parts

/-- Items of one sort are made of parts of the pieces of all items. -/
theorem Extent.MadeOfAll.filterMap {α : Type} {select : Item → Option α} {node : α → Extent}
    (hselect : ∀ item, MadeOfAll ((select item).toList.map node) item.pieces)
    (items : List Item) :
    MadeOfAll ((items.filterMap select).map node) (items.flatMap Item.pieces) := by
  induction items with
  | nil => exact nil
  | cons item rest ih =>
      have hitems : ((item :: rest).filterMap select).map node =
          (select item).toList.map node ++ (rest.filterMap select).map node := by
        cases hitem : select item <;> simp [hitem]
      rw [hitems, List.flatMap_cons]
      exact (hselect item).append ih

namespace File

theorem madeOfAll_buckets (package name : Token) (items : List Item) :
    ∀ bucket ∈ (ofItems package name items).buckets,
      MadeOfAll bucket (items.flatMap Item.pieces) := by
  simp only [buckets, List.forall_mem_cons]
  refine ⟨.filterMap ?_ _, .filterMap ?_ _, .filterMap ?_ _, .filterMap ?_ _, .filterMap ?_ _,
    .filterMap ?_ _, .filterMap ?_ _, fun _ hbucket => absurd hbucket List.not_mem_nil⟩
  · intro item
    cases item with
    | const stmt => exact .singleton stmt.madeOf
    | _ => exact .nil
  · intro item
    cases item with
    | decl inner => exact .singleton inner.madeOf
    | _ => exact .nil
  · intro item
    cases item with
    | struct type => exact .singleton (type.madeOf FieldDecl.madeOf)
    | _ => exact .nil
  · intro item
    cases item with
    | interface type => exact .singleton (type.madeOf InterfaceMember.madeOf)
    | _ => exact .nil
  · intro item
    cases item with
    | enum type => exact .singleton (type.madeOf leaf_madeOf)
    | _ => exact .nil
  · intro item
    cases item with
    | sum type => exact .singleton (type.madeOf SumVariant.madeOf)
    | _ => exact .nil
  · intro item
    cases item with
    | implements offer => exact .singleton offer.madeOf
    | _ => exact .nil

/-- Of tokens that are tried one after the other, the one that is kept stands furthest
along. -/
theorem le_foldl_furthest (tokens : List Token) (best : Token) :
    ∀ token ∈ best :: tokens, token.position ≤ (tokens.foldl
      (fun best token => if best.position ≤ token.position then token else best)
      best).position := by
  induction tokens generalizing best with
  | nil =>
      intro token htoken
      obtain rfl := List.mem_singleton.1 htoken
      exact Position.le_refl _
  | cons other rest ih =>
      intro token htoken
      rw [List.foldl_cons]
      split
      · next hfurther =>
          rcases List.mem_cons.1 htoken with rfl | htoken
          · exact Position.le_trans hfurther (ih other other List.mem_cons_self)
          · exact ih other token htoken
      · next hbehind =>
          have hother := Position.le_of_not_le hbehind
          rcases List.mem_cons.1 htoken with rfl | htoken
          · exact ih token token List.mem_cons_self
          rcases List.mem_cons.1 htoken with rfl | htoken
          · exact Position.le_trans hother (ih best best List.mem_cons_self)
          · exact ih best token (List.mem_cons_of_mem _ htoken)

theorem le_last {file : File} {token : Token} (htoken : token ∈ file.itemEnds ++ [file.name]) :
    token.position ≤ file.last.position :=
  le_foldl_furthest _ _ token (List.mem_cons_of_mem _ htoken)

theorem last_mem_itemEnds (file : File) :
    ∀ bucket ∈ file.buckets, ∀ item ∈ bucket, item.last ∈ file.itemEnds := by
  have hends : file.buckets.flatten.map Extent.last = file.itemEnds := by
    simp [buckets, itemEnds, Function.comp_def, Stmt.extent, Decl.extent, TypeDecl.extent,
      ImplementsDecl.extent, Extent.last]
  intro bucket hbucket item hitem
  rw [← hends]
  exact List.mem_map_of_mem (List.mem_flatten_of_mem hbucket hitem)

/-- A file ends behind its beginning and its items lie between the two, side by side in each
bucket.  Every node in them is ordered, too. -/
structure Ordered (file : File) : Prop where
  span : file.first.position ≤ file.last.position
  within : ∀ bucket ∈ file.buckets, ∀ item ∈ bucket,
    file.first.position ≤ item.first.position ∧ item.last.position ≤ file.last.position
  row : ∀ bucket ∈ file.buckets, InRow bucket
  nodes : ∀ bucket ∈ file.buckets, ∀ item ∈ bucket, ∀ node ∈ item.nodes, node.Ordered

end File

namespace Grammar.Filed

variable {start stop : State} {file : File}

/-- Behind the package clause the items stand in order. -/
theorem exists_inOrder (hfiled : Filed start file stop) (hordered : start.cursor.Ordered) :
    ∃ items, file = .ofItems file.package file.name items ∧
      file.package.position ≤ file.name.position ∧
      InOrder file.package.position (items.flatMap Item.pieces) stop.cursor.current.position := by
  cases hfiled with
  | @clause middle stop package name items hkind hclause hitems =>
      have hmiddle := hclause.reaches.ordered_iff.1 hordered
      obtain ⟨-, -, hname, -, hstop⟩ := hclause.covers.inOrder hordered
      refine ⟨items, rfl, hname, ?_⟩
      exact (hitems.covers.inOrder hmiddle).of_le (Position.le_trans hname hstop)
  | @noClause stop bad items hitems =>
      refine ⟨_, rfl, Position.le_refl _, ?_⟩
      exact (hitems.covers.inOrder hordered).of_le (Position.nowhere_le _)

end Grammar.Filed

/-- If the tokens of a file stand in order and their columns are coordinates, the nodes of its
tree stand in order: they end behind their beginnings, lie within the nodes around them, and do
not overlap those beside them. -/
theorem parse_file_ordered (tokens : List Token)
    (hordered : tokens.Pairwise fun first second => first.position ≤ second.position)
    (hfits : ∀ token ∈ tokens, token.column ≤ maxCoordinate) : (parse tokens).file.Ordered := by
  obtain ⟨stop, hfiled, -, -⟩ := parse_filed tokens
  have hstart := Cursor.ordered_ofTokens hordered hfits
  obtain ⟨items, hfile, hclause, hitems⟩ := hfiled.exists_inOrder hstart
  -- A bucket skips the items of other sorts and keeps the order of its own.
  have hmade : ∀ bucket ∈ (parse tokens).file.buckets,
      MadeOfAll bucket (items.flatMap Item.pieces) := by
    rw [hfile]
    exact File.madeOfAll_buckets _ _ items
  constructor
  case span => exact Position.le_trans hclause (File.le_last (by simp))
  case within =>
    intro bucket hbucket item hitem
    constructor
    · exact ((hmade bucket hbucket).within hitems item hitem).1
    · apply File.le_last
      exact List.mem_append_left _ (File.last_mem_itemEnds _ bucket hbucket item hitem)
  case row => exact fun bucket hbucket => (hmade bucket hbucket).inRow hitems
  case nodes => exact fun bucket hbucket => (hmade bucket hbucket).nodes_ordered _ hitems

/-- A function whose only statement breaks off at the brace that closes the function. -/
def unfinishedTokens : List Token :=
  [⟨.packageKw, "package", 1, 1⟩, ⟨.ident, "p", 1, 9⟩, ⟨.funcKw, "func", 2, 1⟩,
    ⟨.ident, "f", 2, 6⟩, ⟨.lparen, "(", 2, 7⟩, ⟨.rparen, ")", 2, 8⟩,
    ⟨.lbrace, "\x7b", 2, 10⟩, ⟨.ident, "a", 3, 3⟩, ⟨.assign, "=", 3, 5⟩,
    ⟨.rbrace, "\x7d", 4, 1⟩]

/-- The bad node shares its last token with the function around it. -/
theorem parse_file_ordered_unfinishedTokens :
    (parse unfinishedTokens).file.badNodes.map BadNode.last =
        (parse unfinishedTokens).file.decls.map Decl.last ∧
      (parse unfinishedTokens).file.badNodes ≠ [] ∧ (parse unfinishedTokens).file.Ordered := by
  refine ⟨by decide +kernel, by decide +kernel, parse_file_ordered unfinishedTokens ?_ ?_⟩
  · decide
  · decide

end OriSyntax
