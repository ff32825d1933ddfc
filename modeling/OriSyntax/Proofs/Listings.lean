import OriSyntax.Proofs.Rendering
import OriSyntax.Proofs.StmtShaping
import OriSyntax.Proofs.Walks
import OriSyntax.Tree.Listing

/-!
Listings and walks.  Both go through a tree on their own, a listing to write it down and
a walk to hand out its nodes.  They agree: of every sort of node that a walk hands out
the listing shows the same nodes in the same order, if `default` clauses have no values.
-/

namespace OriSyntax

/-- The outline of a node that a walk hands out.  A statement that is a block is shown as
its block, and a bad node as what it stands for. -/
def Visit.outline? : Visit → Option Outline
  | decl node => some node.outline
  | stmt (.block _) => none
  | stmt node => some node.outline
  | block body => some (Stmt.blockOutline body)
  | expr node => some node.outline
  | type node => some node.outline
  | bad _ => none

/-- The headings of nodes that are no nodes of a walk, at least not everywhere. -/
def unvisitedNames : List String :=
  ["File", "Param", "ResultList", "FieldDecl", "MethodSpec", "EmbeddedType", "SumVariant",
    "StructType", "InterfaceType", "EnumType", "SumType", "ImplementsDecl"]

/-- Names of nodes that a walk hands out wherever they stand.  No such name contains a
colon, as labels do. -/
structure Visited (names : String → Bool) : Prop where
  no_label : ∀ heading : String, ':' ∈ heading.toList → names heading = false
  no_part : ∀ heading ∈ unvisitedNames, names heading = false

/-- The outlines of the nodes with these names among visits. -/
def met (names : String → Bool) (visits : List Visit) : List Outline :=
  (visits.filterMap Visit.outline?).filter fun outline => names outline.heading

/-- Clauses of switches have no values if they are the `default`. -/
def PlainDefaults (visits : List Visit) : Prop :=
  ∀ keyword values colon body,
    Visit.stmt (.clause keyword values colon body) ∈ visits → keyword.kind = .defaultKw →
      values = []

namespace PlainDefaults

theorem of_subset {visits found : List Visit} (hvisits : PlainDefaults visits)
    (hfound : ∀ visit ∈ found, visit ∈ visits) : PlainDefaults found :=
  fun keyword values colon body hclause =>
    hvisits keyword values colon body (hfound _ hclause)

theorem tail {visit : Visit} {rest : List Visit} (hvisits : PlainDefaults (visit :: rest)) :
    PlainDefaults rest :=
  hvisits.of_subset fun _ => List.mem_cons_of_mem visit

theorem left {visits rest : List Visit} (hvisits : PlainDefaults (visits ++ rest)) :
    PlainDefaults visits :=
  hvisits.of_subset fun _ => List.mem_append_left rest

theorem right {visits rest : List Visit} (hvisits : PlainDefaults (visits ++ rest)) :
    PlainDefaults rest :=
  hvisits.of_subset fun _ => List.mem_append_right visits

theorem of_mem {α : Type} {visits : α → List Visit} {items : List α} {item : α}
    (hvisits : PlainDefaults (items.flatMap visits)) (hitem : item ∈ items) :
    PlainDefaults (visits item) :=
  hvisits.of_subset fun _ hvisit => List.mem_flatMap.2 ⟨item, hitem, hvisit⟩

end PlainDefaults

section

variable {names : String → Bool}

@[simp] theorem met_nil : met names [] = [] := rfl

@[simp] theorem met_append (visits rest : List Visit) :
    met names (visits ++ rest) = met names visits ++ met names rest := by
  rw [met, List.filterMap_append, List.filter_append]
  rfl

theorem met_flatMap {α : Type} (visits : α → List Visit) (items : List α) :
    met names (items.flatMap visits) = items.flatMap fun item => met names (visits item) := by
  induction items with
  | nil => rfl
  | cons item rest ih => rw [List.flatMap_cons, met_append, ih, List.flatMap_cons]

/-- A node that is shown adds its outline if it is asked for. -/
theorem met_cons {visit : Visit} {outline : Outline} (hvisit : visit.outline? = some outline)
    (rest : List Visit) :
    met names (visit :: rest) =
      (if names outline.heading then [outline] else []) ++ met names rest := by
  rw [met, List.filterMap_cons_some hvisit, List.filter_cons]
  by_cases hname : names outline.heading
  · rw [if_pos hname, if_pos hname, List.singleton_append]
    rfl
  · rw [if_neg hname, if_neg hname, List.nil_append]
    rfl

theorem met_cons_none {visit : Visit} (hvisit : visit.outline? = none) (rest : List Visit) :
    met names (visit :: rest) = met names rest := by
  rw [met, List.filterMap_cons_none hvisit]
  rfl

/-- A node that is handed out shows itself, if it is asked for, and its parts. -/
theorem shown_visit {visit : Visit} {outline : Outline} (hvisit : visit.outline? = some outline)
    {rest : List Visit} (hrest : Outline.shownIn names outline.parts = met names rest) :
    Outline.shown names outline = met names (visit :: rest) := by
  rw [Outline.shown_eq, met_cons hvisit, hrest]

theorem shownIn_map_eq {α : Type} {outline : α → Outline} (visits : α → List Visit)
    (items : List α)
    (hitems : ∀ item ∈ items, Outline.shown names (outline item) = met names (visits item)) :
    Outline.shownIn names (items.map outline) = met names (items.flatMap visits) := by
  rw [Outline.shownIn_map, met_flatMap]
  induction items with
  | nil => rfl
  | cons item rest ih =>
      have hfirst := hitems item List.mem_cons_self
      have hrest := ih fun other hother => hitems other (List.mem_cons_of_mem item hother)
      rw [List.flatMap_cons, List.flatMap_cons, hfirst, hrest]

theorem shownIn_map_eq_nil {α : Type} {outline : α → Outline} (items : List α)
    (hitems : ∀ item ∈ items, Outline.shown names (outline item) = []) :
    Outline.shownIn names (items.map outline) = [] := by
  rw [Outline.shownIn_map, List.flatMap_eq_nil_iff]
  exact hitems

end

namespace Visited

open Outline

variable {names : String → Bool}

section

variable (hnames : Visited names)

include hnames

theorem shown_token (label : String) (token : Token) :
    shown names (Outline.token label token) = [] := by
  have hlabel : names (label ++ ": " ++ token.display) = false := by
    apply hnames.no_label
    simp
  rw [Outline.token, leaf, shown_node_of_not names hlabel, shownIn_nil]

theorem shownIn_token? (label : String) (token : Option Token) :
    shownIn names (Outline.token? label token) = [] := by
  cases token with
  | none => rw [Outline.token?, shownIn_nil]
  | some token =>
      rw [Outline.token?, shownIn_cons, hnames.shown_token, shownIn_nil, List.nil_append]

theorem shown_flag (label : String) (value : Bool) :
    shown names (Outline.flag label value) = [] := by
  have hlabel : ∀ text, names (label ++ ": " ++ text) = false := by
    intro text
    apply hnames.no_label
    simp
  rw [Outline.flag, leaf, shown_node_of_not names (hlabel _), shownIn_nil]

theorem shown_child (label : String) (outline : Outline) :
    shown names (Outline.child label outline) = shown names outline := by
  have hlabel : names (label ++ ":") = false := by
    apply hnames.no_label
    simp
  rw [Outline.child, shown_node_of_not names hlabel, shownIn_cons, shownIn_nil, List.append_nil]

theorem shown_listing (label : String) (outlines : List Outline) :
    shown names (Outline.listing label outlines) = shownIn names outlines := by
  have hlabel : names (label ++ ":") = false := by
    apply hnames.no_label
    simp
  have hempty : names (label ++ ": (none)") = false := by
    apply hnames.no_label
    simp
  cases outlines with
  | nil =>
      rw [Outline.listing, List.isEmpty_nil, if_pos rfl, leaf,
        shown_node_of_not names hempty]
  | cons outline rest =>
      rw [Outline.listing, List.isEmpty_cons, if_neg Bool.false_ne_true,
        shown_node_of_not names hlabel]

/-- A bad node shows itself under the name of its category. -/
theorem shown_bad (name : String) (node : BadNode) :
    shown names (node.outline name) = if names name then [node.outline name] else [] := by
  have hreason : names ("Reason: " ++ node.reason) = false := by
    apply hnames.no_label
    simp
  rw [shown_eq, BadNode.outline, heading_node, parts_node, shownIn_cons, shownIn_cons,
    shownIn_cons, shownIn_nil, leaf, shown_node_of_not names hreason, shownIn_nil,
    hnames.shown_token, hnames.shown_token]
  simp

theorem shown_type (type : TypeExpr) : shown names type.outline = met names type.visits := by
  cases type with
  | named name =>
      rw [shown_eq, TypeExpr.visits, TypeExpr.walk, met_cons rfl, TypeExpr.outline, parts_node,
        shownIn_cons, hnames.shown_token, shownIn_nil, met_nil, List.append_nil]
  | bad node =>
      rw [TypeExpr.outline, hnames.shown_bad, TypeExpr.visits, TypeExpr.walk, met_cons rfl,
        met_cons_none rfl, met_nil, List.append_nil]
      rfl

theorem shownIn_child?_eq {α : Type} (label : String) {outline : α → Outline}
    {visits : α → List Visit} (part : Option α)
    (hpart : ∀ found ∈ part, shown names (outline found) = met names (visits found)) :
    shownIn names (Outline.child? label outline part) = met names (visitsOf? visits part) := by
  cases part with
  | none => rw [Outline.child?, shownIn_nil, visitsOf?_none, met_nil]
  | some found =>
      rw [Outline.child?, shownIn_cons, hnames.shown_child, hpart found rfl, shownIn_nil,
        List.append_nil, visitsOf?_some]

end

mutual

theorem shown_expr (hnames : Visited names) (expr : Expr) :
    shown names expr.outline = met names expr.visits := by
  match expr with
  | .ident _ | .literal .. =>
      apply shown_visit rfl
      simp [Expr.outline, hnames.shown_token]
  | .bad unread =>
      rw [Expr.outline, hnames.shown_bad, Expr.visits_bad, met_cons rfl, met_cons_none rfl,
        met_nil, List.append_nil]
      rfl
  | .paren _ inner _ | .unary _ inner | .selector inner _ _ =>
      have hinner := shown_expr hnames inner
      simp only [Expr.visits_paren, Expr.visits_unary, Expr.visits_selector]
      apply shown_visit rfl
      simp [Expr.outline, hnames.shown_token, hnames.shown_child, hinner]
  | .binary left _ right | .index left _ right _ =>
      have hleft := shown_expr hnames left
      have hright := shown_expr hnames right
      simp only [Expr.visits_binary, Expr.visits_index]
      apply shown_visit rfl
      simp [Expr.outline, hnames.shown_token, hnames.shown_child, hleft, hright]
  | .call callee ⟨opening, args, closing⟩ =>
      have hcallee := shown_expr hnames callee
      have hargs := shownIn_exprs hnames args
      rw [Expr.visits_call]
      apply shown_visit rfl
      simp [Expr.outline, hnames.shown_token, hnames.shown_child, hnames.shown_listing, hcallee,
        hargs]

theorem shownIn_exprs (hnames : Visited names) (exprs : List Expr) :
    shownIn names (Expr.outlines exprs) = met names (exprs.flatMap Expr.visits) := by
  match exprs with
  | [] => simp [Expr.outlines]
  | expr :: rest =>
      rw [Expr.outlines, shownIn_cons, shown_expr hnames expr, shownIn_exprs hnames rest,
        List.flatMap_cons, met_append]

end

section

variable (hnames : Visited names)

include hnames

/-- A node that is no node of a walk shows its parts only. -/
theorem shown_unvisited {name : String} (hname : name ∈ unvisitedNames)
    (below : List Outline) : shown names (.node name below) = shownIn names below :=
  shown_node_of_not names (hnames.no_part name hname) below

theorem shown_param (param : Param) :
    shown names param.outline = met names param.type.visits := by
  rw [Param.outline, hnames.shown_unvisited (by decide), shownIn_append,
    hnames.shownIn_token?, shownIn_cons, hnames.shown_child, hnames.shown_type, shownIn_nil,
    List.append_nil, List.nil_append]

theorem shownIn_params (params : ParamList) :
    shownIn names (params.items.map Param.outline) = met names (ParamList.visits params) :=
  shownIn_map_eq (fun param : Param => param.type.visits) params.items fun param _ =>
    hnames.shown_param param

theorem shown_params (params : ParamList) :
    shown names (ParamList.outline params) = met names (ParamList.visits params) := by
  rw [ParamList.outline, hnames.shown_listing, hnames.shownIn_params]

theorem shown_results (results : Results) :
    shown names results.outline = met names results.visits := by
  cases results with
  | single type => exact hnames.shown_type type
  | list params =>
      rw [Results.outline, hnames.shown_unvisited (by decide)]
      simp [hnames.shown_token, hnames.shown_listing, hnames.shownIn_params, Results.visits]

theorem shownIn_results? (label : String) (results : Option Results) :
    shownIn names (Outline.child? label Results.outline results) =
      met names (visitsOf? Results.visits results) :=
  hnames.shownIn_child?_eq label results fun results _ => hnames.shown_results results

theorem shownIn_qualifiedName (name : QualifiedName) : shownIn names name.outlines = [] := by
  simp [QualifiedName.outlines, hnames.shownIn_token?, hnames.shown_token]

theorem shown_field (field : FieldDecl) :
    shown names field.outline = met names field.visits := by
  have hdefault := hnames.shownIn_child?_eq "Default" field.default
    fun default _ => hnames.shown_expr default.value
  rw [FieldDecl.outline, hnames.shown_unvisited (by decide)]
  simp [hnames.shown_token, hnames.shown_child, hnames.shownIn_token?, hnames.shown_flag,
    hnames.shown_type, hdefault, FieldDecl.visits]

theorem shown_member (member : InterfaceMember) :
    shown names member.outline = met names member.visits := by
  cases member with
  | method spec =>
      rw [InterfaceMember.outline, hnames.shown_unvisited (by decide)]
      simp [hnames.shown_token, hnames.shown_params, hnames.shownIn_results?,
        InterfaceMember.visits]
  | embed name =>
      rw [InterfaceMember.outline, hnames.shown_unvisited (by decide),
        hnames.shownIn_qualifiedName]
      rfl

theorem shown_variant (variant : SumVariant) :
    shown names variant.outline = met names variant.visits := by
  rw [SumVariant.outline, hnames.shown_unvisited (by decide), shownIn_cons, hnames.shown_token,
    List.nil_append, SumVariant.visits]
  cases variant.params with
  | none => rfl
  | some params => simp [hnames.shown_params]

theorem met_cons_unvisited {visit : Visit} {name : String} {below : List Outline}
    (hvisit : visit.outline? = some (.node name below)) (hname : name ∈ unvisitedNames)
    (rest : List Visit) : met names (visit :: rest) = met names rest := by
  rw [met_cons hvisit, heading_node, hnames.no_part name hname, if_neg Bool.false_ne_true,
    List.nil_append]

/-- A type declaration shows what its members show. -/
theorem shown_typeDecl {α : Type} {name : String} (hname : name ∈ unvisitedNames)
    (label members : String) {outline : α → Outline} {visits : α → List Visit}
    (hmember : ∀ member, shown names (outline member) = met names (visits member))
    (decl : TypeDecl α) :
    shown names (decl.outline name label members outline) =
      met names (decl.body.items.flatMap visits) := by
  have hmembers := shownIn_map_eq visits decl.body.items fun member _ => hmember member
  rw [TypeDecl.outline, hnames.shown_unvisited hname]
  simp [hnames.shown_token, hnames.shown_listing, hnames.shown_flag, hmembers]

theorem shown_struct (decl : StructDecl) :
    shown names (StructDecl.outline decl) =
      met names (decl.body.items.flatMap FieldDecl.visits) :=
  hnames.shown_typeDecl (by decide) _ _ hnames.shown_field decl

theorem shown_interface (decl : InterfaceDecl) :
    shown names (InterfaceDecl.outline decl) =
      met names (decl.body.items.flatMap InterfaceMember.visits) :=
  hnames.shown_typeDecl (by decide) _ _ hnames.shown_member decl

theorem shown_sum (decl : SumDecl) :
    shown names (SumDecl.outline decl) =
      met names (decl.body.items.flatMap SumVariant.visits) :=
  hnames.shown_typeDecl (by decide) _ _ hnames.shown_variant decl

theorem shown_enum (decl : EnumDecl) : shown names (EnumDecl.outline decl) = [] := by
  have hnone : ∀ variant, shown names (Outline.token "Variant" variant) = met names [] :=
    hnames.shown_token "Variant"
  rw [EnumDecl.outline, hnames.shown_typeDecl (by decide) _ _ hnone decl, met_flatMap]
  simp

theorem shown_implements (decl : ImplementsDecl) : shown names decl.outline = [] := by
  have hlabel : names "Interface:" = false := by
    apply hnames.no_label
    decide
  rw [ImplementsDecl.outline, hnames.shown_unvisited (by decide)]
  simp [hnames.shown_token, shown_node_of_not names hlabel, hnames.shownIn_qualifiedName]

end

/-- Statements that are clauses show their values, unless they are the `default`. -/
theorem shownIn_clause (hnames : Visited names) {keyword : Token} {values : List Expr}
    (hvalues : keyword.kind = .defaultKw → values = []) :
    shownIn names
        (if keyword.kind = .defaultKw then []
          else [Outline.listing "Values" (Expr.outlines values)]) =
      met names (values.flatMap Expr.visits) := by
  by_cases hdefault : keyword.kind = .defaultKw
  · rw [if_pos hdefault, hvalues hdefault]
    simp
  · rw [if_neg hdefault, shownIn_cons, hnames.shown_listing, hnames.shownIn_exprs, shownIn_nil,
      List.append_nil]

theorem shown_valueDecl (hnames : Visited names) {visit : Visit} {name : String}
    {decl : ValueDecl} (hvisit : visit.outline? = some (decl.outline name)) :
    shown names (decl.outline name) = met names (visit :: decl.visits) := by
  have htype := hnames.shownIn_child?_eq "Type" decl.type
    fun type _ => hnames.shown_type type
  apply shown_visit hvisit
  simp [ValueDecl.outline, hnames.shown_token, hnames.shown_child, hnames.shown_expr, htype,
    ValueDecl.visits]

mutual

theorem shown_stmt (hnames : Visited names) (stmt : Stmt) (hplain : PlainDefaults stmt.visits) :
    shown names stmt.outline = met names stmt.visits := by
  match stmt with
  | .block body =>
      rw [Stmt.visits_block] at hplain ⊢
      rw [met_cons_none rfl]
      exact shown_block hnames body hplain.tail
  | .const decl =>
      rw [Stmt.visits_const]
      exact hnames.shown_valueDecl rfl
  | .var decl =>
      rw [Stmt.visits_var]
      exact hnames.shown_valueDecl rfl
  | .assign left op right =>
      rw [Stmt.visits_assign]
      apply shown_visit rfl
      simp [Stmt.outline, hnames.shown_token, hnames.shown_child, hnames.shown_expr]
  | .incDec target op =>
      rw [Stmt.visits_incDec]
      apply shown_visit rfl
      simp [Stmt.outline, hnames.shown_token, hnames.shown_child, hnames.shown_expr]
  | .effect value =>
      rw [Stmt.visits_effect]
      apply shown_visit rfl
      simp [Stmt.outline, hnames.shown_child, hnames.shown_expr]
  | .returns keyword values =>
      rw [Stmt.visits_returns]
      apply shown_visit rfl
      simp [Stmt.outline, hnames.shown_token, hnames.shown_listing, hnames.shownIn_exprs]
  | .ifElse keyword condition body otherwise =>
      rw [Stmt.visits_ifElse] at hplain ⊢
      have hbody := shown_block hnames body hplain.tail.right.left
      have hotherwise := shown_stmt? hnames "Else" otherwise hplain.tail.right.right
      apply shown_visit rfl
      simp [Stmt.outline, hnames.shown_token, hnames.shown_child, hnames.shown_expr, hbody,
        hotherwise]
  | .forLoop keyword first condition after body =>
      rw [Stmt.visits_forLoop] at hplain ⊢
      have hfirst := shown_stmt? hnames "Init" first hplain.tail.left
      have hcondition := hnames.shownIn_child?_eq "Condition" condition
        fun expr _ => hnames.shown_expr expr
      have hafter := shown_stmt? hnames "Post" after hplain.tail.right.right.left
      have hbody := shown_block hnames body hplain.tail.right.right.right
      apply shown_visit rfl
      simp [Stmt.outline, hnames.shown_token, hnames.shown_child, hfirst, hcondition, hafter,
        hbody]
  | .rangeLoop keyword key value op rangeKeyword subject body =>
      rw [Stmt.visits_rangeLoop] at hplain ⊢
      have hkey := hnames.shownIn_child?_eq "Key" key
        fun expr _ => hnames.shown_expr expr
      have hvalue := hnames.shownIn_child?_eq "Value" value
        fun expr _ => hnames.shown_expr expr
      have hbody := shown_block hnames body hplain.tail.right.right.right
      apply shown_visit rfl
      simp [Stmt.outline, hnames.shown_token, hnames.shown_child, hnames.shownIn_token?,
        hnames.shown_expr, hkey, hvalue, hbody]
  | .switch keyword first tag ⟨opening, cases, closing⟩ =>
      rw [Stmt.visits_switch] at hplain ⊢
      have hfirst := shown_stmt? hnames "Init" first hplain.tail.left
      have htag := hnames.shownIn_child?_eq "Tag" tag
        fun expr _ => hnames.shown_expr expr
      have hcases := shownIn_stmts hnames cases hplain.tail.right.right
      apply shown_visit rfl
      simp [Stmt.outline, hnames.shown_token, hnames.shown_listing, hfirst, htag, hcases]
  | .clause keyword values colon body =>
      have hvalues : keyword.kind = .defaultKw → values = [] :=
        hplain keyword values colon body List.mem_cons_self
      rw [Stmt.visits_clause] at hplain ⊢
      have hbody := shownIn_stmts hnames body hplain.tail.right
      apply shown_visit rfl
      simp [Stmt.outline, hnames.shown_token, hnames.shown_listing, hnames.shownIn_clause hvalues,
        hbody]
  | .breakLoop keyword | .continueLoop keyword | .fallThrough keyword =>
      apply shown_visit rfl
      simp [Stmt.outline, hnames.shown_token]
  | .decl inner =>
      rw [Stmt.visits_decl] at hplain ⊢
      have hinner := shown_decl hnames inner hplain.tail
      apply shown_visit rfl
      simp [Stmt.outline, hnames.shown_child, hinner]
  | .bad unread =>
      rw [Stmt.outline, hnames.shown_bad, Stmt.visits, Stmt.walk, met_cons rfl,
        met_cons_none rfl, met_nil, List.append_nil]
      rfl

theorem shown_block (hnames : Visited names) (block : Enclosed Stmt)
    (hplain : PlainDefaults (Stmt.blockVisits block)) :
    shown names (Stmt.blockOutline block) = met names (Stmt.blockVisits block) := by
  match block with
  | ⟨opening, stmts, closing⟩ =>
      rw [Stmt.blockVisits_eq] at hplain ⊢
      have hstmts := shownIn_stmts hnames stmts hplain.tail
      apply shown_visit rfl
      simp [Stmt.blockOutline, hnames.shown_token, hnames.shown_listing, hstmts]

theorem shown_stmt? (hnames : Visited names) (label : String) (stmt : Option Stmt)
    (hplain : PlainDefaults (visitsOf? Stmt.visits stmt)) :
    shownIn names (Stmt.outline? label stmt) = met names (visitsOf? Stmt.visits stmt) := by
  match stmt with
  | none => rw [Stmt.outline?, shownIn_nil, visitsOf?_none, met_nil]
  | some stmt =>
      rw [Stmt.outline?, shownIn_cons, hnames.shown_child, shown_stmt hnames stmt hplain,
        shownIn_nil, List.append_nil, visitsOf?_some]

theorem shownIn_stmts (hnames : Visited names) (stmts : List Stmt)
    (hplain : PlainDefaults (stmts.flatMap Stmt.visits)) :
    shownIn names (Stmt.outlines stmts) = met names (stmts.flatMap Stmt.visits) := by
  match stmts with
  | [] => rw [Stmt.outlines, shownIn_nil, List.flatMap_nil, met_nil]
  | stmt :: rest =>
      rw [List.flatMap_cons] at hplain ⊢
      rw [Stmt.outlines, shownIn_cons, shown_stmt hnames stmt hplain.left,
        shownIn_stmts hnames rest hplain.right, met_append]

theorem shown_func (hnames : Visited names) (decl : FuncDecl)
    (hplain : PlainDefaults decl.visits) :
    shown names decl.outline = met names (.decl (.func decl) :: decl.visits) := by
  match decl with
  | ⟨keyword, name, params, results, body⟩ =>
      rw [FuncDecl.visits_eq] at hplain ⊢
      have hbody := shown_block hnames body hplain.right.right
      apply shown_visit rfl
      simp [FuncDecl.outline, hnames.shown_token, hnames.shown_params, hnames.shownIn_results?,
        hnames.shown_child, hbody]

theorem shown_decl (hnames : Visited names) (decl : Decl) (hplain : PlainDefaults decl.visits) :
    shown names decl.outline = met names decl.visits := by
  match decl with
  | .func inner =>
      rw [Decl.visits_func] at hplain ⊢
      exact shown_func hnames inner hplain.tail
  | .struct inner =>
      rw [Decl.visits_struct, hnames.met_cons_unvisited rfl (by decide)]
      exact hnames.shown_struct inner
  | .interface inner =>
      rw [Decl.visits_interface, hnames.met_cons_unvisited rfl (by decide)]
      exact hnames.shown_interface inner
  | .enum inner =>
      rw [Decl.visits, Decl.walk, hnames.met_cons_unvisited rfl (by decide)]
      exact hnames.shown_enum inner
  | .sum inner =>
      rw [Decl.visits_sum, hnames.met_cons_unvisited rfl (by decide)]
      exact hnames.shown_sum inner
  | .implements inner =>
      rw [Decl.visits, Decl.walk, hnames.met_cons_unvisited rfl (by decide)]
      exact hnames.shown_implements inner
  | .bad unread =>
      rw [Decl.outline, hnames.shown_bad, Decl.visits, Decl.walk, met_cons rfl,
        met_cons_none rfl, met_nil, List.append_nil]
      rfl

end

/-- The listing of a file and a walk over it show the same nodes of every sort that the walk
hands out wherever it stands. -/
theorem shown_file (hnames : Visited names) (file : File) (hplain : PlainDefaults file.visits) :
    shown names file.outline = met names file.visits := by
  rw [File.visits_eq] at hplain ⊢
  have hconsts := shownIn_map_eq Stmt.visits file.consts fun stmt hstmt =>
    hnames.shown_stmt stmt (hplain.left.of_mem hstmt)
  have hdecls := shownIn_map_eq Decl.visits file.decls fun decl hdecl =>
    hnames.shown_decl decl (hplain.right.left.of_mem hdecl)
  have hstructs := shownIn_map_eq _ file.structs fun decl _ => hnames.shown_struct decl
  have hinterfaces := shownIn_map_eq _ file.interfaces fun decl _ => hnames.shown_interface decl
  have henums := shownIn_map_eq_nil file.enums fun decl _ => hnames.shown_enum decl
  have hsums := shownIn_map_eq _ file.sums fun decl _ => hnames.shown_sum decl
  have himplements := shownIn_map_eq_nil file.implements fun decl _ =>
    hnames.shown_implements decl
  rw [File.outline, hnames.shown_unvisited (by decide)]
  simp [hnames.shown_token, hnames.shown_listing, hconsts, hdecls, hstructs, hinterfaces,
    henums, hsums, himplements]

end Visited

end OriSyntax
