import OriSyntax.Proofs.FileReports
import OriSyntax.Proofs.Lossless
import OriSyntax.Proofs.ReadableFiles

/-!
Legible trees.  Apart from the reasons of bad nodes a tree is written in labels and in tokens,
which are quoted; and the reasons are messages of diagnostics, which are single lines.  So a tree
that comes from a source can be read back from its listing.
-/

namespace OriSyntax

namespace Outline

/-- A label that can open a heading of one line. -/
def Opens (label : String) : Prop := OneLine label ∧ label.toList.head?.any (· ≠ ' ')

instance (label : String) : Decidable (Opens label) := inferInstanceAs (Decidable (_ ∧ _))

theorem Opens.append {label text : String} (hlabel : Opens label) (htext : OneLine text) :
    Opens (label ++ text) := by
  refine ⟨hlabel.1.append htext, ?_⟩
  obtain ⟨-, hfirst⟩ := hlabel
  cases hchars : label.toList with
  | nil => simp [hchars] at hfirst
  | cons c rest => simpa [hchars] using hfirst

section

variable {label : String}

@[simp] theorem legibleAll_nil : LegibleAll [] := by
  rw [LegibleAll]
  trivial

@[simp] theorem legibleAll_cons {outline : Outline} {rest : List Outline} :
    LegibleAll (outline :: rest) ↔ outline.Legible ∧ LegibleAll rest := by
  rw [LegibleAll]

@[simp] theorem legibleAll_append {outlines rest : List Outline} :
    LegibleAll (outlines ++ rest) ↔ LegibleAll outlines ∧ LegibleAll rest := by
  simp only [legibleAll_iff, List.forall_mem_append]

@[simp] theorem legible_node {below : List Outline} (hlabel : Opens label) :
    (node label below).Legible ↔ LegibleAll below := by
  have hfirst : label.toList.head? ≠ some ' ' := by
    intro hblank
    simpa [hblank] using hlabel.2
  rw [Legible]
  exact ⟨And.right, fun hbelow => ⟨⟨hlabel.1, hfirst⟩, hbelow⟩⟩

@[simp] theorem legible_leaf (hlabel : Opens label) : (leaf label).Legible :=
  (legible_node hlabel).2 legibleAll_nil

@[simp] theorem legible_token {found : Token} (hlabel : Opens label) :
    (token label found).Legible :=
  legible_leaf ((hlabel.append (by decide)).append found.newline_notMem_display)

@[simp] theorem legible_flag {value : Bool} (hlabel : Opens label) :
    (flag label value).Legible := by
  have hvalue : OneLine (if value then "true" else "false") := by
    cases value <;> decide
  exact legible_leaf ((hlabel.append (by decide)).append hvalue)

@[simp] theorem legible_child {below : Outline} (hlabel : Opens label) :
    (child label below).Legible ↔ below.Legible := by
  have hcolon : Opens (label ++ ":") := hlabel.append (by decide)
  simp [child, hcolon]

@[simp] theorem legible_listing {below : List Outline} (hlabel : Opens label) :
    (listing label below).Legible ↔ LegibleAll below := by
  have hcolon : Opens (label ++ ":") := hlabel.append (by decide)
  have hnone : Opens (label ++ ": (none)") := hlabel.append (by decide)
  cases below with
  | nil => simp [listing, hnone]
  | cons outline rest => simp [listing, hcolon]

@[simp] theorem legibleAll_token? {part : Option Token} (hlabel : Opens label) :
    LegibleAll (token? label part) := by
  cases part <;> simp [token?, hlabel]

@[simp] theorem legibleAll_child? {α : Type} {outline : α → Outline} {part : Option α}
    (hlabel : Opens label) :
    LegibleAll (child? label outline part) ↔ ∀ found ∈ part, (outline found).Legible := by
  cases part <;> simp [child?, hlabel]

@[simp] theorem legibleAll_map {α : Type} {outline : α → Outline} {items : List α} :
    LegibleAll (items.map outline) ↔ ∀ item ∈ items, (outline item).Legible := by
  rw [legibleAll_iff, List.forall_mem_map]

end

end Outline

/-- The bad node that is met, if it is one, has a reason of one line. -/
def Visit.OneLine : Visit → Prop
  | bad node => OriSyntax.OneLine node.reason
  | decl _ | stmt _ | block _ | expr _ | type _ => True

theorem BadNode.legible_outline {name : String} {node : BadNode} (hname : Outline.Opens name)
    (hnode : OneLine node.reason) : (node.outline name).Legible := by
  have hreason : Outline.Opens ("Reason: " ++ node.reason) :=
    Outline.Opens.append (by decide) hnode
  rw [outline, Outline.legible_node hname]
  simp (disch := decide) [Outline.legible_leaf hreason]

theorem TypeExpr.legible_outline {type : TypeExpr}
    (hvisits : ∀ visit ∈ type.visits, visit.OneLine) : type.outline.Legible := by
  cases type with
  | named name => simp (disch := decide) [outline]
  | bad node =>
      have hnode := hvisits (.bad node) (by simp [visits, walk])
      exact BadNode.legible_outline (by decide) hnode

mutual

theorem Expr.legible_outline (expr : Expr) (hvisits : ∀ visit ∈ expr.visits, visit.OneLine) :
    expr.outline.Legible := by
  match expr with
  | .ident _ => simp (disch := decide) [outline, nodeName]
  | .literal sort _ => cases sort <;> simp (disch := decide) [outline, nodeName]
  | .bad node =>
      have hnode := hvisits (.bad node) (by simp)
      rw [outline]
      exact BadNode.legible_outline (by decide : Outline.Opens "BadExpr") hnode
  | .paren _ inner _ | .unary _ inner | .selector inner _ _ =>
      simp only [visits_paren, visits_unary, visits_selector, List.forall_mem_cons] at hvisits
      have hinner := Expr.legible_outline inner hvisits.2
      simp (disch := decide) [outline, nodeName, hinner]
  | .binary left _ right | .index left _ right _ =>
      simp only [visits_binary, visits_index, List.forall_mem_cons, List.forall_mem_append]
        at hvisits
      have hleft := Expr.legible_outline left hvisits.2.1
      have hright := Expr.legible_outline right hvisits.2.2
      simp (disch := decide) [outline, nodeName, hleft, hright]
  | .call callee ⟨opening, args, closing⟩ =>
      rw [visits_call, List.forall_mem_cons, List.forall_mem_append] at hvisits
      have hcallee := Expr.legible_outline callee hvisits.2.1
      have hargs := Expr.legible_outlines args hvisits.2.2
      simp (disch := decide) [outline, nodeName, hcallee, hargs]

theorem Expr.legible_outlines (exprs : List Expr)
    (hvisits : ∀ visit ∈ exprs.flatMap Expr.visits, visit.OneLine) :
    Outline.LegibleAll (Expr.outlines exprs) := by
  match exprs with
  | [] => simp [outlines]
  | expr :: rest =>
      rw [List.flatMap_cons, List.forall_mem_append] at hvisits
      have hexpr := Expr.legible_outline expr hvisits.1
      have hrest := Expr.legible_outlines rest hvisits.2
      simp [outlines, hexpr, hrest]

end

/-- What is met in each of some items is met in all of them. -/
theorem forall_visits_of_mem {α : Type} {visits : α → List Visit} {items : List α} {item : α}
    (hvisits : ∀ visit ∈ items.flatMap visits, visit.OneLine) (hitem : item ∈ items) :
    ∀ visit ∈ visits item, visit.OneLine :=
  fun visit hvisit => hvisits visit (List.mem_flatMap.2 ⟨item, hitem, hvisit⟩)

theorem forall_visits_of_some {α : Type} {visits : α → List Visit} {part : Option α} {found : α}
    (hvisits : ∀ visit ∈ visitsOf? visits part, visit.OneLine) (hfound : found ∈ part) :
    ∀ visit ∈ visits found, visit.OneLine := by
  rw [Option.mem_def] at hfound
  rwa [hfound, visitsOf?_some] at hvisits

theorem Param.legible_outline {param : Param}
    (hvisits : ∀ visit ∈ param.type.visits, visit.OneLine) : param.outline.Legible := by
  have htype := TypeExpr.legible_outline hvisits
  simp (disch := decide) [outline, htype]

theorem ParamList.legible_outlines {params : ParamList}
    (hvisits : ∀ visit ∈ ParamList.visits params, visit.OneLine) :
    ∀ param ∈ params.items, param.outline.Legible := by
  intro param hparam
  have htype := forall_visits_of_mem hvisits hparam
  exact Param.legible_outline htype

theorem ParamList.legible_outline {params : ParamList}
    (hvisits : ∀ visit ∈ ParamList.visits params, visit.OneLine) :
    (ParamList.outline params).Legible := by
  have hitems := ParamList.legible_outlines hvisits
  rw [outline, Outline.legible_listing (by decide), Outline.legibleAll_map]
  exact hitems

theorem Results.legible_outline {results : Results}
    (hvisits : ∀ visit ∈ results.visits, visit.OneLine) : results.outline.Legible := by
  cases results with
  | single type => exact TypeExpr.legible_outline hvisits
  | list params =>
      have hitems := ParamList.legible_outlines hvisits
      rw [outline]
      simp (disch := decide) only [Outline.legible_node, Outline.legibleAll_cons,
        Outline.legible_token, Outline.legible_listing, Outline.legibleAll_map,
        Outline.legibleAll_nil]
      exact ⟨trivial, hitems, trivial, trivial⟩

theorem QualifiedName.legible_outlines (name : QualifiedName) :
    Outline.LegibleAll name.outlines := by
  simp (disch := decide) [outlines]

theorem FieldDecl.legible_outline {field : FieldDecl}
    (hvisits : ∀ visit ∈ field.visits, visit.OneLine) : field.outline.Legible := by
  rw [visits, List.forall_mem_append] at hvisits
  have htype := TypeExpr.legible_outline hvisits.1
  have hdefault : ∀ default ∈ field.default, default.value.outline.Legible := by
    intro default hdefault
    have hvalue := forall_visits_of_some hvisits.2 hdefault
    exact default.value.legible_outline hvalue
  simpa (disch := decide) [outline, htype] using hdefault

theorem InterfaceMember.legible_outline {member : InterfaceMember}
    (hvisits : ∀ visit ∈ member.visits, visit.OneLine) : member.outline.Legible := by
  cases member with
  | method spec =>
      rw [visits, List.forall_mem_append] at hvisits
      have hparams := ParamList.legible_outline hvisits.1
      have hresults : ∀ results ∈ spec.results, results.outline.Legible :=
        fun _ hresults => Results.legible_outline (forall_visits_of_some hvisits.2 hresults)
      simpa (disch := decide) [outline, hparams] using hresults
  | embed name =>
      have hname := name.legible_outlines
      simp (disch := decide) [outline, hname]

theorem SumVariant.legible_outline {variant : SumVariant}
    (hvisits : ∀ visit ∈ variant.visits, visit.OneLine) : variant.outline.Legible := by
  obtain ⟨name, params⟩ := variant
  cases params with
  | none => simp (disch := decide) [outline]
  | some params =>
      have hparams := ParamList.legible_outline hvisits
      simp (disch := decide) [outline, hparams]

/-- A type is legible if its members are. -/
theorem TypeDecl.legible_outline {α : Type} {name label members : String}
    (hname : Outline.Opens name) (hlabel : Outline.Opens label)
    (hmembers : Outline.Opens members) {outline : α → Outline} {decl : TypeDecl α}
    (hitems : ∀ item ∈ decl.body.items, (outline item).Legible) :
    (TypeDecl.outline name label members outline decl).Legible := by
  have hbelow := (Outline.legible_listing hmembers).2 (Outline.legibleAll_map.2 hitems)
  rw [TypeDecl.outline, Outline.legible_node hname]
  simp (disch := decide) [Outline.legible_token hlabel, hbelow]

theorem StructDecl.legible_outline {decl : StructDecl}
    (hvisits : ∀ visit ∈ decl.body.items.flatMap FieldDecl.visits, visit.OneLine) :
    (StructDecl.outline decl).Legible :=
  TypeDecl.legible_outline (by decide) (by decide) (by decide) fun _ hfield =>
    FieldDecl.legible_outline (forall_visits_of_mem hvisits hfield)

theorem InterfaceDecl.legible_outline {decl : InterfaceDecl}
    (hvisits : ∀ visit ∈ decl.body.items.flatMap InterfaceMember.visits, visit.OneLine) :
    (InterfaceDecl.outline decl).Legible :=
  TypeDecl.legible_outline (by decide) (by decide) (by decide) fun _ hmember =>
    InterfaceMember.legible_outline (forall_visits_of_mem hvisits hmember)

theorem EnumDecl.legible_outline (decl : EnumDecl) : (EnumDecl.outline decl).Legible :=
  TypeDecl.legible_outline (by decide) (by decide) (by decide) fun _ _ =>
    Outline.legible_token (by decide)

theorem SumDecl.legible_outline {decl : SumDecl}
    (hvisits : ∀ visit ∈ decl.body.items.flatMap SumVariant.visits, visit.OneLine) :
    (SumDecl.outline decl).Legible :=
  TypeDecl.legible_outline (by decide) (by decide) (by decide) fun _ hvariant =>
    SumVariant.legible_outline (forall_visits_of_mem hvisits hvariant)

theorem ImplementsDecl.legible_outline (decl : ImplementsDecl) : decl.outline.Legible := by
  have hname := decl.interface.legible_outlines
  simp (disch := decide) [outline, hname]

theorem ValueDecl.legible_outline {name : String} (hname : Outline.Opens name) {decl : ValueDecl}
    (hvisits : ∀ visit ∈ decl.visits, visit.OneLine) : (decl.outline name).Legible := by
  rw [visits, List.forall_mem_append] at hvisits
  have htype : ∀ type ∈ decl.type, type.outline.Legible :=
    fun _ htype => TypeExpr.legible_outline (forall_visits_of_some hvisits.1 htype)
  have hvalue := decl.value.legible_outline hvisits.2
  rw [outline, Outline.legible_node hname]
  simpa (disch := decide) [hvalue] using htype

theorem Expr.legible_of_some {expr : Option Expr}
    (hvisits : ∀ visit ∈ visitsOf? Expr.visits expr, visit.OneLine) :
    ∀ found ∈ expr, found.outline.Legible :=
  fun found hfound => found.legible_outline (forall_visits_of_some hvisits hfound)

mutual

theorem Stmt.legible_outline (stmt : Stmt) (hvisits : ∀ visit ∈ stmt.visits, visit.OneLine) :
    stmt.outline.Legible := by
  match stmt with
  | .block body =>
      rw [Stmt.visits_block, List.forall_mem_cons] at hvisits
      rw [Stmt.outline]
      exact Stmt.legible_blockOutline body hvisits.2
  | .const value =>
      rw [Stmt.visits_const, List.forall_mem_cons] at hvisits
      rw [Stmt.outline]
      exact ValueDecl.legible_outline (by decide : Outline.Opens "ConstDecl") hvisits.2
  | .var value =>
      rw [Stmt.visits_var, List.forall_mem_cons] at hvisits
      rw [Stmt.outline]
      exact ValueDecl.legible_outline (by decide : Outline.Opens "VarDecl") hvisits.2
  | .assign left _ right =>
      rw [Stmt.visits_assign, List.forall_mem_cons, List.forall_mem_append] at hvisits
      have hleft := left.legible_outline hvisits.2.1
      have hright := right.legible_outline hvisits.2.2
      simp (disch := decide) [Stmt.outline, Stmt.nodeName, hleft, hright]
  | .incDec value _ | .effect value =>
      simp only [Stmt.visits_incDec, Stmt.visits_effect, List.forall_mem_cons] at hvisits
      have hvalue := value.legible_outline hvisits.2
      simp (disch := decide) [Stmt.outline, Stmt.nodeName, hvalue]
  | .returns _ values =>
      rw [Stmt.visits_returns, List.forall_mem_cons] at hvisits
      have hvalues := Expr.legible_outlines values hvisits.2
      simp (disch := decide) [Stmt.outline, Stmt.nodeName, hvalues]
  | .ifElse _ condition body otherwise =>
      simp only [Stmt.visits_ifElse, List.forall_mem_cons, List.forall_mem_append] at hvisits
      obtain ⟨-, hcondition, hbody, hotherwise⟩ := hvisits
      have hcondition := condition.legible_outline hcondition
      have hbody := Stmt.legible_blockOutline body hbody
      have hotherwise := Stmt.legible_of_some otherwise hotherwise
      simpa (disch := decide) [Stmt.outline, Stmt.nodeName, Stmt.outline?_eq, hcondition, hbody]
        using hotherwise
  | .forLoop _ first condition after body =>
      simp only [Stmt.visits_forLoop, List.forall_mem_cons, List.forall_mem_append] at hvisits
      obtain ⟨-, hfirst, hcondition, hafter, hbody⟩ := hvisits
      have hfirst := Stmt.legible_of_some first hfirst
      have hcondition := Expr.legible_of_some hcondition
      have hafter := Stmt.legible_of_some after hafter
      have hbody := Stmt.legible_blockOutline body hbody
      simpa (disch := decide) [Stmt.outline, Stmt.nodeName, Stmt.outline?_eq, hbody]
        using ⟨hfirst, hcondition, hafter⟩
  | .rangeLoop _ key value _ _ subject body =>
      simp only [Stmt.visits_rangeLoop, List.forall_mem_cons, List.forall_mem_append] at hvisits
      obtain ⟨-, hkey, hvalue, hsubject, hbody⟩ := hvisits
      have hkey := Expr.legible_of_some hkey
      have hvalue := Expr.legible_of_some hvalue
      have hsubject := subject.legible_outline hsubject
      have hbody := Stmt.legible_blockOutline body hbody
      simpa (disch := decide) [Stmt.outline, Stmt.nodeName, hsubject, hbody] using ⟨hkey, hvalue⟩
  | .switch _ first tag ⟨_, cases, _⟩ =>
      simp only [Stmt.visits_switch, List.forall_mem_cons, List.forall_mem_append] at hvisits
      obtain ⟨-, hfirst, htag, hcases⟩ := hvisits
      have hfirst := Stmt.legible_of_some first hfirst
      have htag := Expr.legible_of_some htag
      have hcases := Stmt.legible_outlines cases hcases
      simpa (disch := decide) [Stmt.outline, Stmt.nodeName, Stmt.outline?_eq, hcases]
        using ⟨hfirst, htag⟩
  | .clause keyword values _ body =>
      simp only [Stmt.visits_clause, List.forall_mem_cons, List.forall_mem_append] at hvisits
      obtain ⟨-, hvalues, hbody⟩ := hvisits
      have hvalues := Expr.legible_outlines values hvalues
      have hbody := Stmt.legible_outlines body hbody
      by_cases hdefault : keyword.kind = .defaultKw
      · simp (disch := decide) [Stmt.outline, Stmt.nodeName, hdefault, hbody]
      · simp (disch := decide) [Stmt.outline, Stmt.nodeName, hdefault, hvalues, hbody]
  | .breakLoop _ | .continueLoop _ | .fallThrough _ =>
      simp (disch := decide) [Stmt.outline, Stmt.nodeName]
  | .decl inner =>
      rw [Stmt.visits_decl, List.forall_mem_cons] at hvisits
      have hinner := Decl.legible_outline inner hvisits.2
      simp (disch := decide) [Stmt.outline, Stmt.nodeName, hinner]
  | .bad node =>
      have hnode := hvisits (.bad node) (by simp [Stmt.visits, Stmt.walk])
      rw [Stmt.outline]
      exact BadNode.legible_outline (by decide : Outline.Opens "BadStmt") hnode

theorem Stmt.legible_blockOutline (body : Enclosed Stmt)
    (hvisits : ∀ visit ∈ Stmt.blockVisits body, visit.OneLine) :
    (Stmt.blockOutline body).Legible := by
  match body with
  | ⟨_, stmts, _⟩ =>
      rw [Stmt.blockVisits_eq, List.forall_mem_cons] at hvisits
      have hstmts := Stmt.legible_outlines stmts hvisits.2
      simp (disch := decide) [Stmt.blockOutline, hstmts]

theorem Stmt.legible_of_some (part : Option Stmt)
    (hvisits : ∀ visit ∈ visitsOf? Stmt.visits part, visit.OneLine) :
    ∀ found ∈ part, found.outline.Legible := by
  match part with
  | none => simp
  | some stmt =>
      have hstmt := Stmt.legible_outline stmt hvisits
      simpa using hstmt

theorem Stmt.legible_outlines (stmts : List Stmt)
    (hvisits : ∀ visit ∈ stmts.flatMap Stmt.visits, visit.OneLine) :
    Outline.LegibleAll (Stmt.outlines stmts) := by
  match stmts with
  | [] => simp [Stmt.outlines]
  | stmt :: rest =>
      rw [List.flatMap_cons, List.forall_mem_append] at hvisits
      have hstmt := Stmt.legible_outline stmt hvisits.1
      have hrest := Stmt.legible_outlines rest hvisits.2
      simp [Stmt.outlines, hstmt, hrest]

theorem FuncDecl.legible_outline (decl : FuncDecl)
    (hvisits : ∀ visit ∈ decl.visits, visit.OneLine) : decl.outline.Legible := by
  match decl with
  | ⟨_, _, params, results, body⟩ =>
      simp only [FuncDecl.visits_eq, List.forall_mem_append] at hvisits
      obtain ⟨hparams, hresults, hbody⟩ := hvisits
      have hparams := ParamList.legible_outline hparams
      have hresults : ∀ found ∈ results, found.outline.Legible :=
        fun _ hfound => Results.legible_outline (forall_visits_of_some hresults hfound)
      have hbody := Stmt.legible_blockOutline body hbody
      simpa (disch := decide) [FuncDecl.outline, hparams, hbody] using hresults

theorem Decl.legible_outline (decl : Decl) (hvisits : ∀ visit ∈ decl.visits, visit.OneLine) :
    decl.outline.Legible := by
  match decl with
  | .func inner =>
      rw [Decl.visits_func, List.forall_mem_cons] at hvisits
      rw [Decl.outline]
      exact FuncDecl.legible_outline inner hvisits.2
  | .struct inner =>
      rw [Decl.visits_struct, List.forall_mem_cons] at hvisits
      rw [Decl.outline]
      exact StructDecl.legible_outline hvisits.2
  | .interface inner =>
      rw [Decl.visits_interface, List.forall_mem_cons] at hvisits
      rw [Decl.outline]
      exact InterfaceDecl.legible_outline hvisits.2
  | .enum inner =>
      rw [Decl.outline]
      exact EnumDecl.legible_outline inner
  | .sum inner =>
      rw [Decl.visits_sum, List.forall_mem_cons] at hvisits
      rw [Decl.outline]
      exact SumDecl.legible_outline hvisits.2
  | .implements inner =>
      rw [Decl.outline]
      exact inner.legible_outline
  | .bad node =>
      have hnode := hvisits (.bad node) (by simp [Decl.visits, Decl.walk])
      rw [Decl.outline]
      exact BadNode.legible_outline (by decide) hnode

end

/-- A tree whose bad nodes have reasons of one line each is legible. -/
theorem File.legible_outline {file : File} (hbad : ∀ node ∈ file.badNodes, OneLine node.reason) :
    file.outline.Legible := by
  have hvisits : ∀ visit ∈ file.visits, visit.OneLine := by
    intro visit hvisit
    cases visit with
    | bad node => exact hbad node (List.mem_filterMap.2 ⟨.bad node, hvisit, rfl⟩)
    | _ => trivial
  simp only [visits_eq, List.forall_mem_append] at hvisits
  obtain ⟨hconsts, hdecls, hstructs, hinterfaces, hsums⟩ := hvisits
  have hconsts : ∀ stmt ∈ file.consts, stmt.outline.Legible :=
    fun stmt hstmt => stmt.legible_outline (forall_visits_of_mem hconsts hstmt)
  have hdecls : ∀ decl ∈ file.decls, decl.outline.Legible :=
    fun decl hdecl => decl.legible_outline (forall_visits_of_mem hdecls hdecl)
  have hstructs : ∀ decl ∈ file.structs, (StructDecl.outline decl).Legible := by
    intro decl hdecl
    have hmembers := forall_visits_of_mem hstructs hdecl
    exact StructDecl.legible_outline hmembers
  have hinterfaces : ∀ decl ∈ file.interfaces, (InterfaceDecl.outline decl).Legible := by
    intro decl hdecl
    have hmembers := forall_visits_of_mem hinterfaces hdecl
    exact InterfaceDecl.legible_outline hmembers
  have henums : ∀ decl ∈ file.enums, (EnumDecl.outline decl).Legible :=
    fun decl _ => EnumDecl.legible_outline decl
  have hsums : ∀ decl ∈ file.sums, (SumDecl.outline decl).Legible := by
    intro decl hdecl
    have hmembers := forall_visits_of_mem hsums hdecl
    exact SumDecl.legible_outline hmembers
  have himplements : ∀ decl ∈ file.implements, decl.outline.Legible :=
    fun decl _ => decl.legible_outline
  simpa (disch := decide) [outline] using
    ⟨hconsts, hdecls, hstructs, hinterfaces, henums, hsums, himplements⟩

/-- The tree of a source is legible, for its bad nodes repeat what the diagnostics say. -/
theorem Source.legible_parse (source : String) : (Source.parse source).file.outline.Legible := by
  apply File.legible_outline
  intro node hnode
  have hreason := (reasons_subperm (Source.tokens source)).1.subset
    (List.mem_map_of_mem hnode)
  obtain ⟨diagnostic, hdiagnostic, hmessage⟩ := List.mem_map.1 hreason
  rw [← hmessage]
  exact Source.oneLine_message hdiagnostic

/-- Two sources with one listing have one tree, but for the parentheses around the parameters of
functions, methods and variants, which no listing shows. -/
theorem Source.withoutParens_of_listing {source source' : String}
    (hsame : (Source.parse source).file.listing = (Source.parse source').file.listing) :
    (Source.parse source).file.withoutParens = (Source.parse source').file.withoutParens := by
  have hshaped (source : String) : (Source.parse source).file.Shaped :=
    Grammar.file_shapes { cursor := .ofTokens (Source.tokens source) } trivial
  have houtline := Outline.render_inj (Source.legible_parse source) (Source.legible_parse source')
    hsame
  exact File.withoutParens_of_outline (hshaped source) (hshaped source') houtline

/-- A blank on one side of a parenthesis or on the other leads to trees of different tokens. -/
theorem withoutParens_of_listing_blank :
    (Source.parse "package p\nfunc f()  \x7b\x7d").file.listing =
        (Source.parse "package p\nfunc f( ) \x7b\x7d").file.listing ∧
      (Source.parse "package p\nfunc f()  \x7b\x7d").file.withoutParens =
        (Source.parse "package p\nfunc f( ) \x7b\x7d").file.withoutParens ∧
      (Source.parse "package p\nfunc f()  \x7b\x7d").file.items.flatMap Item.tokens ≠
        (Source.parse "package p\nfunc f( ) \x7b\x7d").file.items.flatMap Item.tokens := by
  have hsame : (Source.parse "package p\nfunc f()  \x7b\x7d").file.listing =
      (Source.parse "package p\nfunc f( ) \x7b\x7d").file.listing := by
    decide +kernel
  exact ⟨hsame, Source.withoutParens_of_listing hsame, by decide +kernel⟩

end OriSyntax
