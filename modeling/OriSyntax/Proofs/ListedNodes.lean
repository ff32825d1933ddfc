import OriSyntax.Proofs.Listings

/-!
Bad nodes and expressions in listings.  The lines of a listing show the bad nodes of a
file and its expressions, each with all that it consists of, in the order in which a walk
over the file meets them.
-/

namespace OriSyntax

/-- Whether a node met on a walk is a statement. -/
def Visit.isStmt : Visit → Bool
  | stmt _ => true
  | decl _ | block _ | expr _ | type _ | bad _ => false

namespace PlainDefaults

theorem of_not_isStmt {visits : List Visit} (hvisits : ∀ visit ∈ visits, visit.isStmt = false) :
    PlainDefaults visits := by
  intro keyword values colon body hclause
  exact absurd (hvisits _ hclause) (by simp [Visit.isStmt])

theorem cons {visit : Visit} {rest : List Visit}
    (hvisit : ∀ keyword values colon body, visit = .stmt (.clause keyword values colon body) →
      keyword.kind = .defaultKw → values = [])
    (hrest : PlainDefaults rest) : PlainDefaults (visit :: rest) := by
  intro keyword values colon body hclause
  cases List.mem_cons.1 hclause with
  | inl hvisited => exact hvisit keyword values colon body hvisited.symm
  | inr hclause => exact hrest keyword values colon body hclause

theorem append {visits rest : List Visit} (hvisits : PlainDefaults visits)
    (hrest : PlainDefaults rest) : PlainDefaults (visits ++ rest) := by
  intro keyword values colon body hclause
  cases List.mem_append.1 hclause with
  | inl hclause => exact hvisits keyword values colon body hclause
  | inr hclause => exact hrest keyword values colon body hclause

theorem flatMap {α : Type} {visits : α → List Visit} {items : List α}
    (hitems : ∀ item ∈ items, PlainDefaults (visits item)) :
    PlainDefaults (items.flatMap visits) := by
  intro keyword values colon body hclause
  obtain ⟨item, hitem, hclause⟩ := List.mem_flatMap.1 hclause
  exact hitems item hitem keyword values colon body hclause

theorem option {α : Type} {visits : α → List Visit} {part : Option α}
    (hpart : ∀ found ∈ part, PlainDefaults (visits found)) :
    PlainDefaults (visitsOf? visits part) := by
  cases part with
  | none => exact of_not_isStmt (List.forall_mem_nil _)
  | some found => exact hpart found rfl

end PlainDefaults

theorem TypeExpr.plain_visits (type : TypeExpr) : PlainDefaults type.visits := by
  apply PlainDefaults.of_not_isStmt
  cases type <;> simp [TypeExpr.visits, TypeExpr.walk, Visit.isStmt]

mutual

theorem Expr.plain_visits (expr : Expr) : PlainDefaults expr.visits := by
  match expr with
  | .ident _ | .literal .. | .bad _ =>
      apply PlainDefaults.of_not_isStmt
      simp [Visit.isStmt]
  | .paren _ inner _ | .unary _ inner | .selector inner _ _ =>
      simp only [Expr.visits_paren, Expr.visits_unary, Expr.visits_selector]
      exact .cons (by simp) inner.plain_visits
  | .binary left _ right | .index left _ right _ =>
      simp only [Expr.visits_binary, Expr.visits_index]
      exact .cons (by simp) (left.plain_visits.append right.plain_visits)
  | .call callee ⟨_, args, _⟩ =>
      rw [Expr.visits_call]
      exact .cons (by simp) (callee.plain_visits.append (Expr.plain_visitsOf args))

theorem Expr.plain_visitsOf (exprs : List Expr) :
    PlainDefaults (exprs.flatMap Expr.visits) := by
  match exprs with
  | [] => exact .of_not_isStmt (List.forall_mem_nil _)
  | expr :: rest => exact expr.plain_visits.append (Expr.plain_visitsOf rest)

end

theorem ParamList.plain_visits (params : ParamList) :
    PlainDefaults (ParamList.visits params) :=
  .flatMap fun param _ => param.type.plain_visits

theorem Results.plain_visits (results : Results) : PlainDefaults results.visits := by
  cases results with
  | single type => exact type.plain_visits
  | list params => exact ParamList.plain_visits params

theorem ValueDecl.plain_visits (decl : ValueDecl) : PlainDefaults decl.visits :=
  (PlainDefaults.option fun type _ => type.plain_visits).append decl.value.plain_visits

theorem FieldDecl.plain_visits (field : FieldDecl) : PlainDefaults field.visits :=
  field.type.plain_visits.append (.option fun default _ => default.value.plain_visits)

theorem InterfaceMember.plain_visits (member : InterfaceMember) :
    PlainDefaults member.visits := by
  cases member with
  | method spec =>
      exact (ParamList.plain_visits spec.params).append
        (.option fun results _ => results.plain_visits)
  | embed name => exact .of_not_isStmt (List.forall_mem_nil _)

theorem SumVariant.plain_visits (variant : SumVariant) : PlainDefaults variant.visits :=
  .option fun params _ => ParamList.plain_visits params

/-- A type declared inside a body has no clauses. -/
theorem Decl.plain_of_shapedType {decl : Decl} (hdecl : decl.ShapedType) :
    PlainDefaults decl.visits := by
  cases decl with
  | struct inner =>
      rw [Decl.visits_struct]
      exact .cons (by simp) (.flatMap fun field _ => field.plain_visits)
  | interface inner =>
      rw [Decl.visits_interface]
      exact .cons (by simp) (.flatMap fun member _ => member.plain_visits)
  | sum inner =>
      rw [Decl.visits_sum]
      exact .cons (by simp) (.flatMap fun variant _ => variant.plain_visits)
  | enum inner =>
      apply PlainDefaults.of_not_isStmt
      simp [Decl.visits, Decl.walk, Visit.isStmt]
  | func _ | implements _ | bad _ => exact absurd hdecl (by simp [Decl.ShapedType])

mutual

theorem Stmt.plain_of_shaped {stmt : Stmt} (hstmt : stmt.Shaped) : PlainDefaults stmt.visits := by
  match stmt with
  | .block body =>
      rw [Stmt.Shaped] at hstmt
      rw [Stmt.visits_block]
      exact .cons (by simp) (Stmt.plain_of_shapedBlock hstmt)
  | .const value =>
      rw [Stmt.visits_const]
      exact .cons (by simp) value.plain_visits
  | .var value =>
      rw [Stmt.visits_var]
      exact .cons (by simp) value.plain_visits
  | .assign left _ right =>
      rw [Stmt.visits_assign]
      exact .cons (by simp) (left.plain_visits.append right.plain_visits)
  | .incDec target _ =>
      rw [Stmt.visits_incDec]
      exact .cons (by simp) target.plain_visits
  | .effect value =>
      rw [Stmt.visits_effect]
      exact .cons (by simp) value.plain_visits
  | .returns _ values =>
      rw [Stmt.visits_returns]
      exact .cons (by simp) (Expr.plain_visitsOf values)
  | .ifElse _ condition body otherwise =>
      rw [Stmt.Shaped] at hstmt
      obtain ⟨-, -, hbody, hotherwise⟩ := hstmt
      have hbody := Stmt.plain_of_shapedBlock hbody
      rw [Stmt.visits_ifElse]
      exact .cons (by simp) (condition.plain_visits.append
        (hbody.append (Stmt.plain_of_shapedPart hotherwise)))
  | .forLoop _ first condition after body =>
      rw [Stmt.Shaped] at hstmt
      obtain ⟨-, hfirst, -, hafter, hbody⟩ := hstmt
      have hcondition : PlainDefaults (visitsOf? Expr.visits condition) :=
        .option fun expr _ => expr.plain_visits
      have hafter := Stmt.plain_of_shapedPart hafter
      rw [Stmt.visits_forLoop]
      exact .cons (by simp) ((Stmt.plain_of_shapedPart hfirst).append
        (hcondition.append (hafter.append (Stmt.plain_of_shapedBlock hbody))))
  | .rangeLoop _ key value _ _ subject body =>
      rw [Stmt.Shaped] at hstmt
      obtain ⟨-, -, -, -, hbody⟩ := hstmt
      have htargets : ∀ target, PlainDefaults (visitsOf? Expr.visits target) :=
        fun target => .option fun expr _ => expr.plain_visits
      rw [Stmt.visits_rangeLoop]
      exact .cons (by simp) ((htargets key).append ((htargets value).append
        (subject.plain_visits.append (Stmt.plain_of_shapedBlock hbody))))
  | .switch _ first tag ⟨_, cases, _⟩ =>
      rw [Stmt.Shaped] at hstmt
      obtain ⟨-, hfirst, -, -, hcases, -⟩ := hstmt
      have htag : PlainDefaults (visitsOf? Expr.visits tag) :=
        .option fun expr _ => expr.plain_visits
      rw [Stmt.visits_switch]
      exact .cons (by simp) ((Stmt.plain_of_shapedPart hfirst).append
        (htag.append (Stmt.plain_of_shapedAll hcases)))
  | .clause keyword values colon body =>
      rw [Stmt.Shaped] at hstmt
      obtain ⟨hvalues, -, -, hbody⟩ := hstmt
      rw [Stmt.visits_clause]
      apply PlainDefaults.cons
      · intro _ _ _ _ hclause hdefault
        cases hclause
        cases hvalues with
        | inl hcase => exact absurd (hcase.1.symm.trans hdefault) (by decide)
        | inr hdefault => exact hdefault.2
      · exact (Expr.plain_visitsOf values).append (Stmt.plain_of_shapedAll hbody)
  | .breakLoop _ | .continueLoop _ | .fallThrough _ =>
      exact .cons (by simp) (.of_not_isStmt (List.forall_mem_nil _))
  | .bad node =>
      have hnode : PlainDefaults [.bad node] := by
        apply PlainDefaults.of_not_isStmt
        simp [Visit.isStmt]
      exact .cons (by simp) hnode
  | .decl inner =>
      rw [Stmt.Shaped] at hstmt
      rw [Stmt.visits_decl]
      exact .cons (by simp) (Decl.plain_of_shapedType hstmt)

theorem Stmt.plain_of_shapedBlock {block : Enclosed Stmt} (hblock : Stmt.ShapedBlock block) :
    PlainDefaults (Stmt.blockVisits block) := by
  match block with
  | ⟨_, stmts, _⟩ =>
      rw [Stmt.ShapedBlock] at hblock
      rw [Stmt.blockVisits_eq]
      exact .cons (by simp) (Stmt.plain_of_shapedAll hblock.2.1)

theorem Stmt.plain_of_shapedAll {allowed : Stmt → Bool} {stmts : List Stmt}
    (hstmts : Stmt.ShapedAll allowed stmts) : PlainDefaults (stmts.flatMap Stmt.visits) := by
  match stmts with
  | [] => exact .of_not_isStmt (List.forall_mem_nil _)
  | stmt :: rest =>
      rw [Stmt.ShapedAll] at hstmts
      exact (Stmt.plain_of_shaped hstmts.2.1).append (Stmt.plain_of_shapedAll hstmts.2.2)

theorem Stmt.plain_of_shapedPart {allowed : Stmt → Bool} {part : Option Stmt}
    (hpart : Stmt.ShapedPart allowed part) : PlainDefaults (visitsOf? Stmt.visits part) := by
  match part with
  | none => exact .of_not_isStmt (List.forall_mem_nil _)
  | some stmt =>
      rw [Stmt.ShapedPart] at hpart
      exact Stmt.plain_of_shaped hpart.2

end

/-- Of what stands at the top level of a file only functions have clauses. -/
theorem File.plain_of_shaped {file : File} (hfile : file.Shaped) : PlainDefaults file.visits := by
  have hconsts : ∀ stmt ∈ file.consts, PlainDefaults stmt.visits := by
    intro stmt hstmt
    have hshaped := hfile.consts stmt hstmt
    apply Stmt.plain_of_shaped
    cases stmt <;> simp_all [Stmt.ShapedConst, Stmt.Shaped]
  have hdecls : ∀ decl ∈ file.decls, PlainDefaults decl.visits := by
    intro decl hdecl
    have hshaped := hfile.decls decl hdecl
    cases decl with
    | func inner =>
        have hbody := Stmt.plain_of_shapedBlock hshaped.body
        rw [Decl.visits_func, FuncDecl.visits_eq]
        apply PlainDefaults.cons (by simp)
        apply (ParamList.plain_visits inner.params).append
        exact (PlainDefaults.option fun results _ => results.plain_visits).append hbody
    | bad node =>
        apply PlainDefaults.of_not_isStmt
        simp [Decl.visits, Decl.walk, Visit.isStmt]
    | struct _ | interface _ | enum _ | sum _ | implements _ =>
        exact absurd hshaped (by simp [Decl.ShapedItem])
  rw [File.visits_eq]
  apply (PlainDefaults.flatMap hconsts).append
  apply (PlainDefaults.flatMap hdecls).append
  apply PlainDefaults.append (.flatMap fun decl _ => .flatMap fun field _ => field.plain_visits)
  apply PlainDefaults.append (.flatMap fun decl _ => .flatMap fun member _ => member.plain_visits)
  exact .flatMap fun decl _ => .flatMap fun variant _ => variant.plain_visits

/-- The names under which bad nodes are listed. -/
def badNodeNames : List String := ["BadType", "BadExpr", "BadStmt", "BadDecl"]

/-- The names under which expressions are listed. -/
def Expr.nodeNames : List String :=
  ["IdentExpr", "IntLitExpr", "FloatLitExpr", "BoolLitExpr", "StringLitExpr", "ParenExpr",
    "UnaryExpr", "BinaryExpr", "SelectorExpr", "IndexExpr", "CallExpr", "BadExpr"]

/-- The expression that was met, if it is one. -/
def Visit.expr? : Visit → Option Expr
  | expr node => some node
  | decl _ | stmt _ | block _ | type _ | bad _ => none

theorem Expr.nodeName_mem (expr : Expr) : expr.nodeName ∈ Expr.nodeNames := by
  cases expr with
  | literal sort value => cases sort <;> simp [Expr.nodeName, Expr.nodeNames]
  | _ => simp [Expr.nodeName, Expr.nodeNames]

theorem Expr.heading_outline (expr : Expr) : expr.outline.heading = expr.nodeName := by
  cases expr <;> rfl

theorem Stmt.heading_blockOutline (body : Enclosed Stmt) :
    (Stmt.blockOutline body).heading = "BlockStmt" := by
  cases body
  rfl

theorem Stmt.heading_outline (stmt : Stmt) : stmt.outline.heading = stmt.nodeName := by
  cases stmt with
  | block body => exact Stmt.heading_blockOutline body
  | _ => rfl

theorem Decl.heading_outline (decl : Decl) : decl.outline.heading = decl.nodeName := by
  cases decl with
  | func inner =>
      cases inner
      rfl
  | _ => rfl

theorem TypeExpr.heading_outline (type : TypeExpr) : type.outline.heading = type.nodeName := by
  cases type <;> rfl

/-- A list of names without colons and without names of nodes that a walk passes over. -/
theorem visited_of_list {found : List String} (hcolon : ∀ name ∈ found, ':' ∉ name.toList)
    (hpart : ∀ name ∈ unvisitedNames, name ∉ found) : Visited fun name => name ∈ found where
  no_label := by
    intro heading hheading
    apply decide_eq_false
    intro hname
    exact hcolon heading hname hheading
  no_part := by
    intro heading hheading
    exact decide_eq_false (hpart heading hheading)

theorem visited_badNodeNames : Visited fun name => name ∈ badNodeNames :=
  visited_of_list (by decide) (by decide)

theorem visited_nodeNames : Visited fun name => name ∈ Expr.nodeNames :=
  visited_of_list (by decide) (by decide)

/-- Which outlines are met is decided visit by visit. -/
theorem met_eq_map {α : Type} {names : String → Bool} {select : Visit → Option α}
    {outline : α → Outline}
    (hselect : ∀ visit : Visit,
      visit.outline?.filter (fun outline => names outline.heading) =
        (select visit).map outline)
    (visits : List Visit) : met names visits = (visits.filterMap select).map outline := by
  rw [met, List.filter_filterMap, List.map_filterMap]
  exact congrArg (List.filterMap · visits) (funext hselect)

/-- An outline counts if its name is asked for. -/
theorem filter_heading {names : List String} {outline : Outline} {name : String}
    (hname : outline.heading = name) :
    (some outline).filter (fun outline => decide (outline.heading ∈ names)) =
      if name ∈ names then some outline else none := by
  simp [Option.filter_some, hname]

theorem met_nodeNames (visits : List Visit) :
    met (fun name => name ∈ Expr.nodeNames) visits =
      (visits.filterMap Visit.expr?).map Expr.outline := by
  apply met_eq_map
  intro visit
  cases visit with
  | expr node =>
      rw [Visit.outline?, filter_heading node.heading_outline, if_pos node.nodeName_mem]
      rfl
  | decl node =>
      rw [Visit.outline?, filter_heading node.heading_outline]
      cases node <;> simp [Decl.nodeName, Expr.nodeNames, Visit.expr?]
  | stmt node =>
      cases node with
      | block body => rfl
      | _ =>
          apply (filter_heading (Stmt.heading_outline _)).trans
          simp [Stmt.nodeName, Expr.nodeNames, Visit.expr?]
  | block body =>
      rw [Visit.outline?, filter_heading (Stmt.heading_blockOutline body)]
      rfl
  | type node =>
      rw [Visit.outline?, filter_heading node.heading_outline]
      cases node <;> simp [TypeExpr.nodeName, Expr.nodeNames, Visit.expr?]
  | bad node => rfl

theorem met_badNodeNames (visits : List Visit) :
    met (fun name => name ∈ badNodeNames) visits =
      (visits.filterMap Visit.named?).map fun named => named.2.outline named.1 := by
  apply met_eq_map
  intro visit
  cases visit with
  | expr node =>
      rw [Visit.outline?, filter_heading node.heading_outline]
      cases node with
      | bad node => rfl
      | literal sort value => cases sort <;> simp [Expr.nodeName, badNodeNames, Visit.named?]
      | _ => simp [Expr.nodeName, badNodeNames, Visit.named?]
  | decl node =>
      rw [Visit.outline?, filter_heading node.heading_outline]
      cases node with
      | bad node => rfl
      | _ => simp [Decl.nodeName, badNodeNames, Visit.named?]
  | stmt node =>
      cases node with
      | block body => rfl
      | _ =>
          apply (filter_heading (Stmt.heading_outline _)).trans
          simp [Stmt.nodeName, badNodeNames, Visit.named?, Stmt.outline]
  | block body =>
      rw [Visit.outline?, filter_heading (Stmt.heading_blockOutline body)]
      rfl
  | type node =>
      rw [Visit.outline?, filter_heading node.heading_outline]
      cases node with
      | named name => simp [TypeExpr.nodeName, badNodeNames, Visit.named?]
      | bad node => rfl
  | bad node => rfl

/-- The lines that show a bad node: its name, and below it the reason and both ends. -/
def BadNode.lines (name : String) (node : BadNode) : List Outline.Line :=
  [⟨0, name⟩, ⟨1, "Reason: " ++ node.reason⟩, ⟨1, "From: " ++ node.first.display⟩,
    ⟨1, "To: " ++ node.last.display⟩]

theorem BadNode.lines_outline (name : String) (node : BadNode) :
    (node.outline name).lines = node.lines name := by
  simp [BadNode.outline, BadNode.lines, Outline.lines, Outline.linesAt, Outline.linesOfAll,
    Outline.leaf, Outline.token]

/-- A listing consists of the lines of the outline of the file.  If the `default` clauses of
the file have no values, as in every file that comes from the parser, then these lines show
the bad nodes that a walk over the file meets and no others, in the same order, each with its
name, its reason and its two ends, and they show the expressions that the walk meets and no
others, in the same order, each with everything it consists of. -/
theorem listing_shows_walk :
    (∀ file : File, PlainDefaults file.visits →
      file.listing = String.join (file.outline.lines.map Outline.Line.write) ∧
      Outline.listed (fun name => name ∈ badNodeNames) file.outline.lines =
        file.namedBadNodes.map (fun named => named.2.lines named.1) ∧
      file.namedBadNodes.map Prod.snd = file.badNodes ∧
      Outline.listed (fun name => name ∈ Expr.nodeNames) file.outline.lines =
        (file.visits.filterMap Visit.expr?).map fun expr => expr.outline.lines) ∧
      ∀ tokens, PlainDefaults (parse tokens).file.visits := by
  constructor
  · intro file hplain
    refine ⟨?_, ?_, file.namedBadNodes_eq, ?_⟩
    · rw [File.listing, Outline.render, String.join, List.foldl_map]
    · rw [Outline.listed_lines, visited_badNodeNames.shown_file file hplain, met_badNodeNames,
        List.map_map]
      apply List.map_congr_left
      intro named _
      exact BadNode.lines_outline named.1 named.2
    · rw [Outline.listed_lines, visited_nodeNames.shown_file file hplain, met_nodeNames,
        List.map_map]
      rfl
  · intro tokens
    exact File.plain_of_shaped (Grammar.file_shapes { cursor := .ofTokens tokens } trivial)

/-- An expression of which nothing could be read. -/
def unreadValue : BadNode :=
  ⟨⟨.rparen, ")", 4, 14⟩, ⟨.rparen, ")", 4, 14⟩, "missing expression"⟩

/-- An item of which nothing could be read. -/
def unreadItem : BadNode :=
  ⟨⟨.illegal, "#", 6, 1⟩, ⟨.illegal, "#", 6, 1⟩, "unexpected token"⟩

/-- A call in which the right operand is missing. -/
def unfinishedCall : Expr :=
  .call (.ident ⟨.ident, "f", 4, 10⟩)
    ⟨⟨.lparen, "(", 4, 11⟩,
      [.binary (.ident ⟨.ident, "x", 4, 12⟩) ⟨.plus, "+", 4, 13⟩ (.bad unreadValue)],
      ⟨.rparen, ")", 4, 14⟩⟩

/-- A function with a switch that has only a `default`, and behind it an item that could not
be read. -/
def defaultFile : File where
  package := ⟨.packageKw, "package", 1, 1⟩
  name := ⟨.ident, "p", 1, 9⟩
  consts := []
  decls :=
    [.func ⟨⟨.funcKw, "func", 2, 1⟩, ⟨.ident, "g", 2, 6⟩,
        ⟨⟨.lparen, "(", 2, 7⟩, [], ⟨.rparen, ")", 2, 8⟩⟩, none,
        ⟨⟨.lbrace, "\x7b", 2, 10⟩,
          [.switch ⟨.switchKw, "switch", 3, 3⟩ none none
            ⟨⟨.lbrace, "\x7b", 3, 10⟩,
              [.clause ⟨.defaultKw, "default", 4, 1⟩ [] ⟨.colon, ":", 4, 8⟩
                [.effect unfinishedCall]],
              ⟨.rbrace, "\x7d", 4, 16⟩⟩],
          ⟨.rbrace, "\x7d", 5, 1⟩⟩⟩,
      .bad unreadItem]
  structs := []
  interfaces := []
  enums := []
  sums := []
  implements := []

theorem listing_shows_walk_defaultFile :
    PlainDefaults defaultFile.visits ∧
      Outline.listed (fun name => name ∈ badNodeNames) defaultFile.outline.lines =
        [unreadValue.lines "BadExpr", unreadItem.lines "BadDecl"] ∧
      defaultFile.badNodes = [unreadValue, unreadItem] ∧
      Outline.listed (fun name => name ∈ Expr.nodeNames) defaultFile.outline.lines =
        [unfinishedCall.outline.lines, (Expr.ident ⟨.ident, "f", 4, 10⟩).outline.lines,
          (Expr.binary (.ident ⟨.ident, "x", 4, 12⟩) ⟨.plus, "+", 4, 13⟩
            (.bad unreadValue)).outline.lines,
          (Expr.ident ⟨.ident, "x", 4, 12⟩).outline.lines,
          (Expr.bad unreadValue).outline.lines] := by
  have hplain : PlainDefaults defaultFile.visits := by
    intro keyword values colon body hclause _
    simp [defaultFile, unfinishedCall, File.visits, Stmt.walkAll, Decl.walk, FuncDecl.walk,
      ParamList.walk, Results.walk?, Stmt.walkBlock, Stmt.walk, Stmt.walk?, Expr.walk?,
      Expr.walkAll, Expr.walk] at hclause
    exact hclause.2.1
  obtain ⟨-, hbad, hnodes, hexprs⟩ := listing_shows_walk.1 defaultFile hplain
  exact ⟨hplain, hbad, hnodes.symm, hexprs⟩

end OriSyntax
