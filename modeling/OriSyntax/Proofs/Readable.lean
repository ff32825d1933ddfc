import OriSyntax.Proofs.Indentation
import OriSyntax.Proofs.ListedNodes

/-!
Reading trees back from their outlines.
-/

namespace OriSyntax

namespace Outline

@[simp] theorem token_inj_iff {label : String} {first second : Token} :
    token label first = token label second ↔ first = second := by
  refine ⟨fun hsame => ?_, fun hsame => hsame ▸ rfl⟩
  have hheading : label ++ ": " ++ first.display = label ++ ": " ++ second.display :=
    (node.inj hsame).1
  apply Token.display_inj
  exact String.append_right_inj _ |>.1 hheading

@[simp] theorem child_inj_iff {label label' : String} {below below' : Outline} :
    child label below = child label' below' ↔ label = label' ∧ below = below' := by
  simp [child]

@[simp] theorem token_ne_child {label label' : String} {found : Token} {below : Outline} :
    token label found ≠ child label' below := by
  simp [token, leaf, child]

/-- No outline is one below the label. -/
def Lacks (label : String) (outlines : List Outline) : Prop :=
  ∀ outline ∈ outlines, ∀ below, outline ≠ child label below

section Lacks

variable {label other : String}

@[simp] theorem lacks_nil : Lacks label [] := nofun

@[simp] theorem lacks_append {outlines rest : List Outline} :
    Lacks label (outlines ++ rest) ↔ Lacks label outlines ∧ Lacks label rest :=
  List.forall_mem_append

@[simp] theorem lacks_token_cons {found : Token} {rest : List Outline} :
    Lacks label (token other found :: rest) ↔ Lacks label rest := by
  simp [Lacks]

@[simp] theorem lacks_child_cons {below : Outline} {rest : List Outline} :
    Lacks label (child other below :: rest) ↔ other ≠ label ∧ Lacks label rest := by
  simp [Lacks]

@[simp] theorem lacks_listing_cons {below rest : List Outline} (hother : other ≠ label) :
    Lacks label (listing other below :: rest) ↔ Lacks label rest := by
  cases below <;> simp [Lacks, listing, leaf, child, hother]

@[simp] theorem lacks_child? {α : Type} {outline : α → Outline} {part : Option α}
    (hother : other ≠ label) : Lacks label (child? other outline part) := by
  cases part <;> simp [child?, hother]

@[simp] theorem lacks_token? {part : Option Token} : Lacks label (token? other part) := by
  cases part <;> simp [token?]

/-- A token that may be missing can be told from the parts behind it, if it is known whether it
is there. -/
theorem token?_append_inj {part part' : Option Token} {rest rest' : List Outline}
    (hsome : part.isSome = part'.isSome)
    (hsame : token? label part ++ rest = token? label part' ++ rest') :
    part = part' ∧ rest = rest' := by
  cases part with
  | none =>
      cases part' with
      | none => exact ⟨rfl, hsame⟩
      | some found' => simp at hsome
  | some found =>
      cases part' with
      | none => simp at hsome
      | some found' => simpa [token?] using hsame

@[simp] theorem child?_inj_iff {α : Type} {outline : α → Outline} {part part' : Option α} :
    child? label outline part = child? label outline part' ↔
      part.map outline = part'.map outline := by
  cases part <;> cases part' <;> simp [child?]

/-- A part that may be missing can be told from the parts behind it. -/
theorem child?_append_inj {α : Type} {outline : α → Outline} {part part' : Option α}
    {rest rest' : List Outline} (hrest : Lacks label rest) (hrest' : Lacks label rest')
    (hsame : child? label outline part ++ rest = child? label outline part' ++ rest') :
    part.map outline = part'.map outline ∧ rest = rest' := by
  cases part with
  | none =>
      cases part' with
      | none => exact ⟨rfl, hsame⟩
      | some value' =>
          have hsame : rest = child label (outline value') :: rest' := hsame
          simp [hsame] at hrest
  | some value =>
      cases part' with
      | none =>
          have hsame : child label (outline value) :: rest = rest' := hsame
          simp [← hsame] at hrest'
      | some value' => simpa [child?] using hsame

end Lacks

@[simp] theorem listing_inj_iff {label : String} {below below' : List Outline} :
    listing label below = listing label below' ↔ below = below' := by
  cases below <;> cases below' <;> simp [listing, leaf]

end Outline

theorem BadNode.outline_inj {name : String} {bad bad' : BadNode}
    (hsame : bad.outline name = bad'.outline name) : bad = bad' := by
  obtain ⟨first, last, reason⟩ := bad
  obtain ⟨first', last', reason'⟩ := bad'
  simp [outline, Outline.leaf] at hsame
  simp [hsame]

theorem TypeExpr.outline_inj {type type' : TypeExpr} (hsame : type.outline = type'.outline) :
    type = type' := by
  cases type with
  | named name =>
      cases type' with
      | named name' => simpa [outline] using hsame
      | bad node => simp [outline, BadNode.outline] at hsame
  | bad node =>
      cases type' with
      | named name' => simp [outline, BadNode.outline] at hsame
      | bad node' => exact congrArg bad (BadNode.outline_inj hsame)

/-- The name of a literal is that of no other form. -/
theorem Expr.nodeName_literal_ne (sort : LiteralSort) (value : Token) : ∀ name ∈ ["IdentExpr",
    "ParenExpr", "UnaryExpr", "BinaryExpr", "SelectorExpr", "IndexExpr", "CallExpr", "BadExpr"],
    name ≠ (Expr.literal sort value).nodeName := by
  cases sort <;> simp [nodeName]

/-- The name of a literal tells its sort. -/
theorem Expr.eq_literal_of_nodeName {sort : LiteralSort} {value : Token} {expr : Expr}
    (hname : (Expr.literal sort value).nodeName = expr.nodeName) :
    ∃ value', expr = .literal sort value' := by
  cases expr with
  | literal sort' value' =>
      refine ⟨value', ?_⟩
      cases sort <;> cases sort' <;> first | rfl | exact absurd hname (by simp [nodeName])
  | _ => exact absurd hname.symm (nodeName_literal_ne sort value _ (by simp [nodeName]))

mutual

/-- An expression can be read back from its outline. -/
theorem Expr.outline_inj (expr expr' : Expr) (hsame : expr.outline = expr'.outline) :
    expr = expr' := by
  have hname : expr.nodeName = expr'.nodeName := by
    rw [← expr.heading_outline, hsame, expr'.heading_outline]
  have hparts : expr.outline.parts = expr'.outline.parts := congrArg Outline.parts hsame
  match expr with
  | .ident name =>
      cases expr' with
      | ident name' => simpa [outline] using hparts
      | literal sort value => exact absurd hname (nodeName_literal_ne _ _ _ (by simp [nodeName]))
      | _ => simp [nodeName] at hname
  | .literal sort value =>
      obtain ⟨value', rfl⟩ := eq_literal_of_nodeName hname
      simpa [outline] using hparts
  | .paren opening inner closing =>
      cases expr' with
      | paren opening' inner' closing' =>
          obtain ⟨rfl, hinner, rfl⟩ : opening = opening' ∧ inner.outline = inner'.outline ∧
              closing = closing' := by
            simpa [outline] using hparts
          rw [Expr.outline_inj inner inner' hinner]
      | literal sort value => exact absurd hname (nodeName_literal_ne _ _ _ (by simp [nodeName]))
      | _ => simp [nodeName] at hname
  | .unary op operand =>
      cases expr' with
      | unary op' operand' =>
          obtain ⟨rfl, hoperand⟩ : op = op' ∧ operand.outline = operand'.outline := by
            simpa [outline] using hparts
          rw [Expr.outline_inj operand operand' hoperand]
      | literal sort value => exact absurd hname (nodeName_literal_ne _ _ _ (by simp [nodeName]))
      | _ => simp [nodeName] at hname
  | .binary left op right =>
      cases expr' with
      | binary left' op' right' =>
          obtain ⟨hleft, rfl, hright⟩ : left.outline = left'.outline ∧ op = op' ∧
              right.outline = right'.outline := by
            simpa [outline] using hparts
          rw [Expr.outline_inj left left' hleft, Expr.outline_inj right right' hright]
      | literal sort value => exact absurd hname (nodeName_literal_ne _ _ _ (by simp [nodeName]))
      | _ => simp [nodeName] at hname
  | .selector base dot name =>
      cases expr' with
      | selector base' dot' name' =>
          obtain ⟨hbase, rfl, rfl⟩ : base.outline = base'.outline ∧ dot = dot' ∧
              name = name' := by
            simpa [outline] using hparts
          rw [Expr.outline_inj base base' hbase]
      | literal sort value => exact absurd hname (nodeName_literal_ne _ _ _ (by simp [nodeName]))
      | _ => simp [nodeName] at hname
  | .index base opening inner closing =>
      cases expr' with
      | index base' opening' inner' closing' =>
          obtain ⟨hbase, rfl, hinner, rfl⟩ : base.outline = base'.outline ∧
              opening = opening' ∧ inner.outline = inner'.outline ∧ closing = closing' := by
            simpa [outline] using hparts
          rw [Expr.outline_inj base base' hbase, Expr.outline_inj inner inner' hinner]
      | literal sort value => exact absurd hname (nodeName_literal_ne _ _ _ (by simp [nodeName]))
      | _ => simp [nodeName] at hname
  | .call callee ⟨opening, args, closing⟩ =>
      cases expr' with
      | call callee' args' =>
          obtain ⟨opening', args', closing'⟩ := args'
          obtain ⟨hcallee, rfl, hargs, rfl⟩ : callee.outline = callee'.outline ∧
              opening = opening' ∧ Expr.outlines args = Expr.outlines args' ∧
                closing = closing' := by
            simpa [outline] using hparts
          rw [Expr.outline_inj callee callee' hcallee, Expr.outlines_inj args args' hargs]
      | literal sort value => exact absurd hname (nodeName_literal_ne _ _ _ (by simp [nodeName]))
      | _ => simp [nodeName] at hname
  | .bad node =>
      cases expr' with
      | bad node' =>
          rw [outline, outline] at hsame
          exact congrArg Expr.bad (BadNode.outline_inj hsame)
      | literal sort value => exact absurd hname (nodeName_literal_ne _ _ _ (by simp [nodeName]))
      | _ => simp [nodeName] at hname

theorem Expr.outlines_inj (exprs exprs' : List Expr)
    (hsame : Expr.outlines exprs = Expr.outlines exprs') : exprs = exprs' := by
  match exprs, exprs' with
  | [], [] => rfl
  | [], _ :: _ => simp [outlines] at hsame
  | _ :: _, [] => simp [outlines] at hsame
  | expr :: rest, expr' :: rest' =>
      rw [outlines, outlines, List.cons.injEq] at hsame
      rw [Expr.outline_inj expr expr' hsame.1, Expr.outlines_inj rest rest' hsame.2]

end

theorem Param.outline_inj {param param' : Param} (hsame : param.outline = param'.outline) :
    param = param' := by
  obtain ⟨name, type⟩ := param
  obtain ⟨name', type'⟩ := param'
  have hparts := congrArg Outline.parts hsame
  cases name with
  | none =>
      cases name' with
      | none =>
          have htype : type.outline = type'.outline := by
            simpa [outline, Outline.token?] using hparts
          rw [TypeExpr.outline_inj htype]
      | some name' => simp [outline, Outline.token?] at hparts
  | some name =>
      cases name' with
      | none => simp [outline, Outline.token?] at hparts
      | some name' =>
          obtain ⟨rfl, htype⟩ : name = name' ∧ type.outline = type'.outline := by
            simpa [outline, Outline.token?] using hparts
          rw [TypeExpr.outline_inj htype]

theorem Param.outlines_inj {params params' : List Param}
    (hsame : params.map Param.outline = params'.map Param.outline) : params = params' :=
  (List.map_inj_right fun _ _ => Param.outline_inj).1 hsame

theorem Results.outline_inj {results results' : Results}
    (hsame : results.outline = results'.outline) : results = results' := by
  have htype (type : TypeExpr) (params : ParamList) :
      (single type).outline ≠ (list params).outline := by
    intro hsame
    have hheading : type.nodeName = "ResultList" :=
      type.heading_outline.symm.trans (congrArg Outline.heading hsame)
    cases type <;> simp [TypeExpr.nodeName] at hheading
  cases results with
  | single type =>
      cases results' with
      | single type' => exact congrArg single (TypeExpr.outline_inj hsame)
      | list params' => exact absurd hsame (htype type params')
  | list params =>
      cases results' with
      | single type' => exact absurd hsame.symm (htype type' params)
      | list params' =>
          obtain ⟨opening, items, closing⟩ := params
          obtain ⟨opening', items', closing'⟩ := params'
          obtain ⟨rfl, hitems, rfl⟩ : opening = opening' ∧
              items.map Param.outline = items'.map Param.outline ∧ closing = closing' := by
            simpa [outline] using hsame
          rw [Param.outlines_inj hitems]

theorem QualifiedName.outlines_inj {name name' : QualifiedName}
    (hsame : name.outlines = name'.outlines) : name = name' := by
  obtain ⟨qualifier, name⟩ := name
  obtain ⟨qualifier', name'⟩ := name'
  cases qualifier with
  | none =>
      cases qualifier' with
      | none => simpa [outlines, Outline.token?] using hsame
      | some qualifier' => simp [outlines, Outline.token?] at hsame
  | some qualifier =>
      cases qualifier' with
      | none => simp [outlines, Outline.token?] at hsame
      | some qualifier' =>
          obtain ⟨package, dot⟩ := qualifier
          obtain ⟨package', dot'⟩ := qualifier'
          obtain ⟨rfl, rfl, rfl⟩ : package = package' ∧ dot = dot' ∧ name = name' := by
            simpa [outlines, Outline.token?] using hsame
          rfl

theorem FieldDecl.outline_inj {field field' : FieldDecl}
    (hsame : field.outline = field'.outline) : field = field' := by
  obtain ⟨name, type, default⟩ := field
  obtain ⟨name', type', default'⟩ := field'
  have hparts := congrArg Outline.parts hsame
  cases default with
  | none =>
      cases default' with
      | none =>
          obtain ⟨rfl, htype, -⟩ : name = name' ∧ type.outline = type'.outline ∧ _ := by
            simpa [outline, Outline.token?, Outline.child?] using hparts
          rw [TypeExpr.outline_inj htype]
      | some default' => simp [outline, Outline.token?, Outline.child?] at hparts
  | some default =>
      cases default' with
      | none => simp [outline, Outline.token?, Outline.child?] at hparts
      | some default' =>
          obtain ⟨eq, value⟩ := default
          obtain ⟨eq', value'⟩ := default'
          obtain ⟨rfl, htype, rfl, hvalue, -⟩ : name = name' ∧ type.outline = type'.outline ∧
              eq = eq' ∧ value.outline = value'.outline ∧ _ := by
            simpa [outline, Outline.token?, Outline.child?] using hparts
          rw [TypeExpr.outline_inj htype, Expr.outline_inj _ _ hvalue]

theorem ValueDecl.outline_inj {name : String} {decl decl' : ValueDecl}
    (hsame : decl.outline name = decl'.outline name) : decl = decl' := by
  obtain ⟨keyword, ident, type, eq, value⟩ := decl
  obtain ⟨keyword', ident', type', eq', value'⟩ := decl'
  have hparts := congrArg Outline.parts hsame
  obtain ⟨rfl, rfl, hrest⟩ : keyword = keyword' ∧ ident = ident' ∧
      Outline.child? "Type" TypeExpr.outline type ++
          [.token "Eq" eq, .child "Init" value.outline] =
        Outline.child? "Type" TypeExpr.outline type' ++
          [.token "Eq" eq', .child "Init" value'.outline] := by
    simpa [outline] using hparts
  obtain ⟨htype, hend⟩ := Outline.child?_append_inj (by simp) (by simp) hrest
  obtain rfl := Option.map_injective (fun _ _ => TypeExpr.outline_inj) htype
  obtain ⟨rfl, hvalue⟩ : eq = eq' ∧ value.outline = value'.outline := by simpa using hend
  rw [Expr.outline_inj value value' hvalue]

theorem ImplementsDecl.outline_inj {decl decl' : ImplementsDecl}
    (hsame : decl.outline = decl'.outline) : decl = decl' := by
  obtain ⟨typeName, keyword, interface⟩ := decl
  obtain ⟨typeName', keyword', interface'⟩ := decl'
  obtain ⟨rfl, rfl, hname⟩ : typeName = typeName' ∧ keyword = keyword' ∧
      interface.outlines = interface'.outlines := by
    simpa [outline] using hsame
  rw [QualifiedName.outlines_inj hname]

end OriSyntax
