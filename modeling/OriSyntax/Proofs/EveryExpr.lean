import OriSyntax.Proofs.Streams
import OriSyntax.Proofs.Walks

/-!
Every expression of a tree is made where expressions are read.  So what is true of all
expressions in what `Nested.expr` makes, as long as it reads from one list of tokens, is
true of all expressions in the tree of that list.
-/

namespace OriSyntax

/-- All expressions among visits have a property. -/
def EveryExpr (holds : Expr → Prop) (visits : List Visit) : Prop :=
  ∀ expr, Visit.expr expr ∈ visits → holds expr

namespace EveryExpr

variable {holds : Expr → Prop} {visits rest : List Visit}

theorem nil : EveryExpr holds [] :=
  fun _ hnil => nomatch hnil

theorem append (hvisits : EveryExpr holds visits) (hrest : EveryExpr holds rest) :
    EveryExpr holds (visits ++ rest) := by
  intro expr hexpr
  cases List.mem_append.1 hexpr with
  | inl hexpr => exact hvisits expr hexpr
  | inr hexpr => exact hrest expr hexpr

theorem cons {visit : Visit} (hvisit : ∀ expr, visit ≠ .expr expr)
    (hrest : EveryExpr holds rest) : EveryExpr holds (visit :: rest) := by
  intro expr hexpr
  cases List.mem_cons.1 hexpr with
  | inl hexpr => exact absurd hexpr.symm (hvisit expr)
  | inr hexpr => exact hrest expr hexpr

theorem node {expr : Expr} (hexpr : holds expr) (hrest : EveryExpr holds rest) :
    EveryExpr holds (.expr expr :: rest) := by
  intro other hother
  cases List.mem_cons.1 hother with
  | inl hother => exact (Visit.expr.inj hother) ▸ hexpr
  | inr hother => exact hrest other hother

theorem flatMap {α : Type} {walk : α → List Visit} {items : List α}
    (hitems : ∀ item ∈ items, EveryExpr holds (walk item)) :
    EveryExpr holds (items.flatMap walk) := by
  intro expr hexpr
  obtain ⟨item, hitem, hexpr⟩ := List.mem_flatMap.1 hexpr
  exact hitems item hitem expr hexpr

theorem option {α : Type} {walk : α → List Visit} {part : Option α}
    (hpart : ∀ found ∈ part, EveryExpr holds (walk found)) :
    EveryExpr holds (visitsOf? walk part) := by
  cases part with
  | none => exact nil
  | some found => exact hpart found rfl

theorem of_cons {visit : Visit} (hvisits : EveryExpr holds (visit :: rest)) :
    EveryExpr holds rest :=
  fun expr hexpr => hvisits expr (List.mem_cons_of_mem visit hexpr)

end EveryExpr

section Parts

variable (holds : Expr → Prop)

theorem TypeExpr.everyExpr (type : TypeExpr) : EveryExpr holds type.visits := by
  cases type with
  | named name => exact .cons (by simp) .nil
  | bad node => exact .cons (by simp) (.cons (by simp) .nil)

theorem ParamList.everyExpr (params : ParamList) : EveryExpr holds (ParamList.visits params) :=
  .flatMap fun param _ => param.type.everyExpr holds

theorem Results.everyExpr (results : Results) : EveryExpr holds results.visits := by
  cases results with
  | single type => exact type.everyExpr holds
  | list params => exact ParamList.everyExpr holds params

theorem InterfaceMember.everyExpr (member : InterfaceMember) :
    EveryExpr holds member.visits := by
  cases member with
  | method spec =>
      exact (ParamList.everyExpr holds spec.params).append
        (.option fun results _ => results.everyExpr holds)
  | embed name => exact .nil

theorem SumVariant.everyExpr (variant : SumVariant) : EveryExpr holds variant.visits :=
  .option fun params _ => ParamList.everyExpr holds params

theorem Stmt.everyExpr_bad (node : BadNode) : EveryExpr holds (Stmt.bad node).visits :=
  .cons (by simp) (.cons (by simp) .nil)

theorem Decl.everyExpr_interface (decl : InterfaceDecl) :
    EveryExpr holds (Decl.interface decl).visits := by
  rw [Decl.visits_interface]
  exact .cons (by simp) (.flatMap fun member _ => member.everyExpr holds)

theorem Decl.everyExpr_enum (decl : EnumDecl) : EveryExpr holds (Decl.enum decl).visits :=
  .cons (by simp) .nil

theorem Decl.everyExpr_sum (decl : SumDecl) : EveryExpr holds (Decl.sum decl).visits := by
  rw [Decl.visits_sum]
  exact .cons (by simp) (.flatMap fun variant _ => variant.everyExpr holds)

theorem Decl.everyExpr_bad (node : BadNode) : EveryExpr holds (Decl.bad node).visits :=
  .cons (by simp) (.cons (by simp) .nil)

end Parts

namespace Grammar

variable {stream : List Token}

/-- Reading from `stream`, the productions of a level make expressions of which all parts
have a property. -/
structure Nested.MakesExprs (stream : List Token) (holds : Expr → Prop) (nested : Nested) :
    Prop where
  expr : ∀ least, MakesFrom stream (fun expr => EveryExpr holds expr.visits) (nested.expr least)
  stmt : MakesFrom stream (fun stmt => EveryExpr holds stmt.visits) nested.stmt
  ifElse : MakesOrFailsFrom stream (fun stmt => EveryExpr holds stmt.visits) nested.ifElse

section Levels

variable {nested : Nested} {holds : Expr → Prop} (hnested : nested.MakesExprs stream holds)
include hnested

theorem exprList_makesFrom :
    MakesFrom stream (fun exprs => ∀ expr ∈ exprs, EveryExpr holds expr.visits)
      (exprList nested) := by
  refine .repeatList fun found hfound => .bind (hnested.expr _) fun expr hexpr => ?_
  have hexprs : ∀ other ∈ expr :: found, EveryExpr holds other.visits :=
    List.forall_mem_cons.2 ⟨hexpr, hfound⟩
  refine .past (accept?_orderly _) fun comma => ?_
  cases comma with
  | some comma => exact .pure hexprs
  | none => exact .pure hexprs

theorem field_makesFrom :
    MakesOrFailsFrom stream (fun field => EveryExpr holds field.visits) (field nested) := by
  refine .past (expectName_orderly _) fun name => .past (typeName_orderly _ _) fun type =>
    .past (accept?_orderly _) fun eq => ?_
  cases eq with
  | some eq =>
      apply MakesOrFailsFrom.bind (.lift (hnested.expr _))
      intro value hvalue
      exact .pure ((type.everyExpr holds).append hvalue)
  | none => exact .pure ((type.everyExpr holds).append .nil)

theorem typeDecl_makesFrom :
    MakesOrFailsFrom stream (fun decl => EveryExpr holds decl.visits) (typeDecl nested) := by
  refine .past advance_orderly fun typeKeyword => .past (expectName_orderly _) fun name =>
    .covering _ (.past get_orderly fun kind => ?_)
  split
  · apply MakesOrFailsFrom.bind (typeBody_makesFrom (field_makesFrom hnested) _ _)
    intro decl hdecl
    apply MakesOrFailsFrom.pure
    rw [Decl.visits_struct]
    exact .cons (by simp) (.flatMap hdecl)
  · exact .past (typeBody_orderly _ _ interfaceMember_orderly) fun decl =>
      .pure (Decl.everyExpr_interface holds decl)
  · exact .past (nonemptyBody_orderly _ _ _ (expectName_orderly _)) fun decl =>
      .pure (Decl.everyExpr_enum holds decl)
  · exact .past (nonemptyBody_orderly _ _ _ sumVariant_orderly) fun decl =>
      .pure (Decl.everyExpr_sum holds decl)
  · exact .past get_orderly fun _ => .failHere _

theorem valueDecl_makesFrom (what : String) :
    MakesOrFailsFrom stream (fun decl => EveryExpr holds decl.visits)
      (valueDecl nested what) := by
  refine .past advance_orderly fun keyword => .past (expectName_orderly what) fun name =>
    .past (unlessAt_orderly _ (typeName_orderly _ _)) fun type =>
      .past (expect_orderly _ _) fun eq => ?_
  apply MakesOrFailsFrom.bind (.lift (hnested.expr _))
  intro value hvalue
  apply MakesOrFailsFrom.pure
  exact EveryExpr.append (.option fun found _ => found.everyExpr holds) hvalue

theorem simpleStmt_makesFrom :
    MakesOrFailsFrom stream (fun stmt => EveryExpr holds stmt.visits) (simpleStmt nested) := by
  apply MakesOrFailsFrom.bind (.lift (hnested.expr _))
  intro expr hexpr
  split
  · exact .throw _
  refine .past get_orderly fun _ => .ite ?_ (.ite ?_ (.ite ?_ ?_))
  · refine .past advance_orderly fun op => .bind (.lift (hnested.expr _)) fun right hright => ?_
    apply MakesOrFailsFrom.pure
    rw [Stmt.visits_assign]
    exact .cons (by simp) (hexpr.append hright)
  · refine .past advance_orderly fun op => .pure ?_
    rw [Stmt.visits_incDec]
    exact .cons (by simp) hexpr
  · apply MakesOrFailsFrom.pure
    rw [Stmt.visits_effect]
    exact .cons (by simp) hexpr
  · exact .fail _ _ _

theorem returnStmt_makesFrom :
    MakesFrom stream (fun stmt => EveryExpr holds stmt.visits) (returnStmt nested) := by
  refine .past advance_orderly fun keyword => .past atReturnEnd_orderly fun _ => .ite ?_ ?_
  · apply MakesFrom.pure
    exact .cons (by simp) .nil
  · apply MakesFrom.bind (exprList_makesFrom hnested)
    intro values hvalues
    apply MakesFrom.pure
    rw [Stmt.visits_returns]
    exact .cons (by simp) (.flatMap hvalues)

theorem steppingStmt_makesFrom :
    MakesFrom stream (fun stmt => EveryExpr holds stmt.visits) (steppingStmt nested) :=
  .past State.Follows.refl fun _ => .bind hnested.stmt fun _ hstmt =>
    .past State.Follows.refl fun _ =>
      .ite (.past moveNext_orderly fun _ => .pure hstmt) (.pure hstmt)

theorem stmtList_makesFrom (stops : Kind → Bool) :
    MakesFrom stream (fun stmts => ∀ stmt ∈ stmts, EveryExpr holds stmt.visits)
      (stmtList nested stops) := by
  refine .repeatList fun found hfound => .past get_orderly fun _ => .ite (.pure hfound)
    (.ite (.past advance_orderly fun _ => .pure hfound) ?_)
  exact .bind (steppingStmt_makesFrom hnested) fun stmt hstmt =>
    .pure (List.forall_mem_cons.2 ⟨hstmt, hfound⟩)

theorem block_makesFrom :
    MakesOrFailsFrom stream (fun body => EveryExpr holds (Stmt.blockVisits body))
      (block nested) := by
  refine .past (expect_orderly _ _) fun opening => .bind (.lift (stmtList_makesFrom hnested _)) ?_
  intro stmts hstmts
  refine .past (covering_orderly _ (expect_orderly _ _)) fun closing => .pure ?_
  rw [Stmt.blockVisits_eq]
  exact .cons (by simp) (.flatMap hstmts)

theorem elseBranch_makesFrom :
    MakesOrFailsFrom stream (fun branch => EveryExpr holds (visitsOf? Stmt.visits branch))
      (elseBranch nested) := by
  refine .past (accept?_orderly _) fun keyword => ?_
  cases keyword with
  | none => exact .pure .nil
  | some keyword =>
      refine .past get_orderly fun _ => .ite ?_ (.ite ?_ ?_)
      · exact .bind hnested.ifElse fun branch hbranch => .pure hbranch
      · refine .bind (block_makesFrom hnested) fun body hbody => .pure ?_
        rw [visitsOf?_some, Stmt.visits_block]
        exact .cons (by simp) hbody
      · exact .past get_orderly fun _ => .past get_orderly fun _ => .fail _ _ _

theorem ifStmt_makesFrom :
    MakesOrFailsFrom stream (fun stmt => EveryExpr holds stmt.visits) (ifStmt nested) := by
  refine .past advance_orderly fun keyword => .past get_orderly fun _ => .ite ?_ ?_
  · exact .past get_orderly fun _ => .past get_orderly fun _ => .fail _ _ _
  refine .bind (.lift (hnested.expr _)) fun condition hcondition => .past get_orderly fun _ => ?_
  refine .ite (.past get_orderly fun _ => .fail _ _ _) ?_
  refine .bind (block_makesFrom hnested) fun body hbody =>
    .bind (elseBranch_makesFrom hnested) fun otherwise hotherwise => .pure ?_
  rw [Stmt.visits_ifElse]
  exact .cons (by simp) (hcondition.append (hbody.append hotherwise))

theorem loopBody_makesFrom :
    MakesOrFailsFrom stream (fun body => EveryExpr holds (Stmt.blockVisits body))
      (loopBody nested) := by
  apply MakesOrFailsFrom.between (block_makesFrom hnested)
  · exact fun _ => rfl
  · intro start stop hstop
    exact ⟨hstop.reads, hstop.reports, hstop.nesting, by simp [hstop.loopDepth]⟩

theorem rangeTargets_makesFrom (keyword : Token) :
    MakesOrFailsFrom stream (fun targets => EveryExpr holds (visitsOf? Expr.visits targets.1) ∧
      EveryExpr holds (visitsOf? Expr.visits targets.2.1)) (rangeTargets nested keyword) := by
  have hsecond : MakesFrom stream (fun value => EveryExpr holds (visitsOf? Expr.visits value))
      (rangeValue nested) := by
    refine .past (accept?_orderly _) fun comma => ?_
    cases comma with
    | some comma => exact .bind (hnested.expr _) fun value hvalue => .pure hvalue
    | none => exact .pure .nil
  refine .past get_orderly fun _ => .ite (.pure ⟨.nil, .nil⟩) ?_
  refine .bind (.lift (hnested.expr _)) fun key hkey => .bind (.lift hsecond) fun value hvalue => ?_
  refine .past get_orderly fun _ => .ite ?_ ?_
  · exact .past advance_orderly fun _ => .pure ⟨hkey, hvalue⟩
  · exact .past get_orderly fun _ => .past get_orderly fun _ => .fail _ _ _

theorem forClause_makesFrom (clause : ForClause) :
    MakesOrFailsFrom stream (fun stmt => EveryExpr holds stmt.visits)
      (forClause nested clause) :=
  .bind (simpleStmt_makesFrom hnested) fun _ hstmt => .ite (.pure hstmt) (.fail _ _ _)

/-- The parts of a loop header that may be missing. -/
theorem forLoop_makesFrom {keyword : Token} {first after : Option Stmt} {condition : Option Expr}
    (hfirst : ∀ stmt ∈ first, EveryExpr holds stmt.visits)
    (hcondition : ∀ expr ∈ condition, EveryExpr holds expr.visits)
    (hafter : ∀ stmt ∈ after, EveryExpr holds stmt.visits) :
    MakesOrFailsFrom stream (fun stmt : Stmt => EveryExpr holds stmt.visits)
      (do return .forLoop keyword first condition after (← loopBody nested)) := by
  apply MakesOrFailsFrom.bind (loopBody_makesFrom hnested)
  intro body hbody
  apply MakesOrFailsFrom.pure
  rw [Stmt.visits_forLoop]
  exact .cons (by simp) ((EveryExpr.option hfirst).append
    ((EveryExpr.option hcondition).append ((EveryExpr.option hafter).append hbody)))

theorem loop_makesFrom :
    MakesOrFailsFrom stream (fun stmt => EveryExpr holds stmt.visits) (loop nested) := by
  have hstmt : ∀ stmt ∈ (none : Option Stmt), EveryExpr holds stmt.visits :=
    fun _ hnone => nomatch hnone
  have hexpr : ∀ expr ∈ (none : Option Expr), EveryExpr holds expr.visits :=
    fun _ hnone => nomatch hnone
  refine .past advance_orderly fun keyword => .covering _ (.skipping _ ?_)
  refine .past get_orderly fun _ => .ite (forLoop_makesFrom hnested hstmt hexpr hstmt) ?_
  refine .past get_orderly fun _ => .ite ?_ (.past get_orderly fun _ => .ite ?_ ?_)
  · refine .bind (rangeTargets_makesFrom hnested keyword) fun targets htargets => ?_
    refine .past (expect_orderly _ _) fun rangeKeyword => ?_
    refine .bind (.lift (hnested.expr _)) fun subject hsubject => ?_
    refine .bind (loopBody_makesFrom hnested) fun body hbody => .pure ?_
    rw [Stmt.visits_rangeLoop]
    exact .cons (by simp) (htargets.1.append (htargets.2.append (hsubject.append hbody)))
  · refine .bind ((forClause_makesFrom hnested _).unlessAt _) fun first hfirst => ?_
    refine .past (expect_orderly _ _) fun _ => ?_
    refine .bind (.unlessAt _ (.lift (hnested.expr _))) fun condition hcondition => ?_
    refine .past (expect_orderly _ _) fun _ => ?_
    refine .bind ((forClause_makesFrom hnested _).unlessAt _) fun after hafter => ?_
    exact forLoop_makesFrom hnested hfirst hcondition hafter
  · refine .bind (.lift (hnested.expr _)) fun condition hcondition => ?_
    apply forLoop_makesFrom hnested hstmt _ hstmt
    intro expr hfound
    exact Option.mem_some_iff.1 hfound ▸ hcondition

theorem caseClause_makesFrom :
    MakesOrFailsFrom stream (fun stmt => EveryExpr holds stmt.visits) (caseClause nested) := by
  have hcaseValues (keyword : Token) :
      MakesFrom stream (fun values => ∀ value ∈ values, EveryExpr holds value.visits)
        (caseValues nested keyword) :=
    .ite (exprList_makesFrom hnested) (.pure (List.forall_mem_nil _))
  refine .past advance_orderly fun keyword => .bind (.lift (hcaseValues keyword)) ?_
  intro values hvalues
  refine .past (expect_orderly _ _) fun colon => ?_
  refine .bind (.lift (stmtList_makesFrom hnested _)) fun body hbody => .pure ?_
  rw [Stmt.visits_clause]
  exact .cons (by simp) ((EveryExpr.flatMap hvalues).append (.flatMap hbody))

theorem caseList_makesFrom :
    MakesFrom stream (fun stmts => ∀ stmt ∈ stmts, EveryExpr holds stmt.visits)
      (caseList nested) := by
  have hstmt (found : List Stmt) : MakesFrom stream (fun stmt => EveryExpr holds stmt.visits)
      (caseStmt nested found) := by
    refine .past get_orderly fun _ => .bind_run (caseClause_makesFrom hnested) ?_ ?_
    · exact fun clause hclause => .ite
        (.past (report_orderly _ _ _) fun bad => .pure (Stmt.everyExpr_bad holds bad))
        (.pure hclause)
    · exact fun _ => .past (skip_orderly _) fun _ => .past (cover_orderly _ _) fun bad =>
        .pure (Stmt.everyExpr_bad holds bad)
  have hstray : MakesFrom stream (fun stmt => EveryExpr holds stmt.visits) strayCase :=
    .past get_orderly fun _ => .past get_orderly fun _ => .past (reportHere_orderly _) fun _ =>
      .past moveNext_orderly fun _ => .past (skip_orderly _) fun _ =>
        .past (cover_orderly _ _) fun bad => .pure (Stmt.everyExpr_bad holds bad)
  refine .repeatList fun found hfound => .past get_orderly fun _ => .ite (.pure hfound)
    (.ite (.past advance_orderly fun _ => .pure hfound) (.ite ?_ ?_))
  · exact .bind (hstmt found) fun stmt hstmt => .pure (List.forall_mem_cons.2 ⟨hstmt, hfound⟩)
  · exact .bind hstray fun stmt hstmt => .pure (List.forall_mem_cons.2 ⟨hstmt, hfound⟩)

theorem switch_makesFrom :
    MakesOrFailsFrom stream (fun stmt => EveryExpr holds stmt.visits) (switch nested) := by
  have hfirst : MakesOrFailsFrom stream
      (fun first => EveryExpr holds (visitsOf? Stmt.visits first)) (switchInit nested) := by
    refine .past get_orderly fun _ => .ite ?_ (.pure .nil)
    exact .bind (simpleStmt_makesFrom hnested) fun stmt hstmt =>
      .past (expect_orderly _ _) fun _ => .pure hstmt
  refine .past advance_orderly fun keyword => .covering _ (.skipping _ ?_)
  refine .bind hfirst fun first hfirst => ?_
  refine .bind (.unlessAt _ (.lift (hnested.expr _))) fun tag htag => ?_
  refine .past (expect_orderly _ _) fun opening => ?_
  refine .bind (.lift (caseList_makesFrom hnested)) fun cases hcases => ?_
  refine .past (covering_orderly _ (expect_orderly _ _)) fun closing => .pure ?_
  rw [Stmt.visits_switch]
  exact .cons (by simp) (hfirst.append ((EveryExpr.option htag).append (.flatMap hcases)))

omit hnested in
theorem branchStmt_makesFrom :
    MakesOrFailsFrom stream (fun stmt => EveryExpr holds stmt.visits) branchStmt := by
  refine .past advance_orderly fun keyword => .past State.Follows.refl fun _ => ?_
  refine .ite (.fail _ _ _) (.past get_orderly fun _ => .past get_orderly fun _ => .ite ?_ ?_)
  · apply MakesOrFailsFrom.pure
    split
    · exact .cons (by simp) .nil
    · exact .cons (by simp) .nil
  · exact .past get_orderly fun _ => .fail _ _ _

omit hnested in
theorem fallThroughStmt_makesFrom :
    MakesOrFailsFrom stream (fun stmt => EveryExpr holds stmt.visits) fallThroughStmt := by
  refine .past advance_orderly fun keyword => .past (accept?_orderly _) fun _ => ?_
  refine .past get_orderly fun _ => .ite (.pure ?_) (.past get_orderly fun _ => .fail _ _ _)
  exact .cons (by simp) .nil

theorem stmtInside_makesFrom :
    MakesOrFailsFrom stream (fun stmt => EveryExpr holds stmt.visits) (stmtInside nested) := by
  refine .past get_orderly fun kind => ?_
  split
  · refine .bind (valueDecl_makesFrom hnested _) fun decl hdecl => .pure ?_
    rw [Stmt.visits_const]
    exact .cons (by simp) hdecl
  · refine .bind (valueDecl_makesFrom hnested _) fun decl hdecl => .pure ?_
    rw [Stmt.visits_var]
    exact .cons (by simp) hdecl
  · exact .lift (returnStmt_makesFrom hnested)
  · exact ifStmt_makesFrom hnested
  · exact loop_makesFrom hnested
  · exact switch_makesFrom hnested
  · exact branchStmt_makesFrom
  · exact branchStmt_makesFrom
  · exact fallThroughStmt_makesFrom
  · refine .bind (block_makesFrom hnested) fun body hbody => .pure ?_
    rw [Stmt.visits_block]
    exact .cons (by simp) hbody
  · refine .past get_orderly fun _ => .ite ?_ (simpleStmt_makesFrom hnested)
    refine .bind (typeDecl_makesFrom hnested) fun decl hdecl => .pure ?_
    rw [Stmt.visits_decl]
    exact .cons (by simp) hdecl
  · exact simpleStmt_makesFrom hnested

end Levels

section Files

variable {holds : Expr → Prop}
  (hexpr : ∀ levels least, MakesFrom stream (fun expr => EveryExpr holds expr.visits)
    ((nested levels).expr least))
include hexpr

/-- What is true of the expressions of all levels is true of everything that is made of
them. -/
theorem nested_makesExprs (levels : Nat) : (nested levels).MakesExprs stream holds := by
  have hstmt {inside : Production Stmt}
      (hinside : MakesOrFailsFrom stream (fun stmt => EveryExpr holds stmt.visits) inside) :
      MakesFrom stream (fun stmt => EveryExpr holds stmt.visits) (stmtOf inside) :=
    .past get_orderly fun _ => .recoverWith _ _ (Stmt.everyExpr_bad holds) hinside
  induction levels with
  | zero => exact ⟨hexpr 0, hstmt .failTooDeep, .failTooDeep⟩
  | succ levels ih =>
      constructor
      · exact hexpr (levels + 1)
      · exact hstmt (stmtInside_makesFrom ih).descend
      · exact (ifStmt_makesFrom ih).descend

theorem funcDecl_makesFrom :
    MakesOrFailsFrom stream (fun decl => EveryExpr holds decl.visits) funcDecl := by
  have hbody : MakesOrFailsFrom stream (fun body => EveryExpr holds (Stmt.blockVisits body))
      funcBody := by
    intro start hstart
    have hblock := block_makesFrom (nested_makesExprs hexpr maxNesting)
    obtain ⟨hfollows, houtcome⟩ := hblock { start with loopDepth := 0 } hstart
    exact ⟨funcBody_orderly start, houtcome⟩
  refine .past advance_orderly fun keyword => .past (expectName_orderly _) fun name => ?_
  refine .past (attempt_orderly (paramList_orderly _)) fun params => ?_
  refine .past (attempt_orderly results_orderly) fun results => ?_
  refine .bind hbody.attempt fun body hbody => ?_
  refine .past (covering_orderly _ (settle_orderly _)) fun params => ?_
  refine .past (settle_orderly _) fun results => .bind (.settle hbody) fun body hbody => .pure ?_
  rw [FuncDecl.visits_eq]
  exact (ParamList.everyExpr holds params).append
    ((EveryExpr.option fun found _ => found.everyExpr holds).append hbody)

end Files

end Grammar

/-- The nodes that a walk over a file meets in a top-level item. -/
def Item.visits : Item → List Visit
  | const stmt => stmt.visits
  | decl inner => inner.visits
  | struct type => type.body.items.flatMap FieldDecl.visits
  | interface type => type.body.items.flatMap InterfaceMember.visits
  | sum type => type.body.items.flatMap SumVariant.visits
  | enum _ | implements _ => []

/-- A type declaration is walked from inside as an item. -/
theorem Item.everyExpr_ofTypeDecl {holds : Expr → Prop} {decl : Decl}
    (hdecl : EveryExpr holds decl.visits) : EveryExpr holds (Item.ofTypeDecl decl).visits := by
  cases decl with
  | struct type =>
      rw [Decl.visits_struct] at hdecl
      exact hdecl.of_cons
  | interface type =>
      rw [Decl.visits_interface] at hdecl
      exact hdecl.of_cons
  | sum type =>
      rw [Decl.visits_sum] at hdecl
      exact hdecl.of_cons
  | enum type => exact .nil
  | func _ | implements _ | bad _ => exact hdecl

/-- What is true of all expressions of the items is true of those of the file. -/
theorem File.everyExpr_ofItems {holds : Expr → Prop} {items : List Item}
    (hitems : ∀ item ∈ items, EveryExpr holds item.visits) (package name : Token) :
    EveryExpr holds (File.ofItems package name items).visits := by
  rw [File.visits_eq]
  refine .append (.flatMap ?_) (.append (.flatMap ?_) (.append (.flatMap ?_)
    (.append (.flatMap ?_) (.flatMap ?_))))
  all_goals
    simp only [File.ofItems, List.mem_filterMap]
    rintro part ⟨item, hmem, hpart⟩
    have hitem := hitems item hmem
    cases item <;> simp_all [Item.visits]

namespace Grammar

section Files

variable {stream : List Token} {holds : Expr → Prop}
  (hexpr : ∀ levels least, MakesFrom stream (fun expr => EveryExpr holds expr.visits)
    ((nested levels).expr least))
include hexpr

theorem item_makesFrom : MakesFrom stream (fun item => EveryExpr holds item.visits) item := by
  have hnested := nested_makesExprs hexpr maxNesting
  have hbad (bad : BadNode) : EveryExpr holds (Item.decl (.bad bad)).visits :=
    Decl.everyExpr_bad holds bad
  have hconst (bad : BadNode) : EveryExpr holds (Item.const (.bad bad)).visits :=
    Stmt.everyExpr_bad holds bad
  have hstray : MakesOrFailsFrom stream (fun item => EveryExpr holds item.visits)
      (strayItem : Production Item) :=
    .past get_orderly fun _ => .past (reportHere_orderly _) fun _ =>
      .past moveNext_orderly fun _ => .throw _
  have hvariable : MakesOrFailsFrom stream (fun decl => EveryExpr holds decl.visits)
      fileVariable :=
    .past (valueDecl_consumes outermost_orderly _).orderly fun _ =>
      .past (.run_lift (report_orderly _ _ _)) fun bad => .pure (Decl.everyExpr_bad holds bad)
  apply MakesFrom.past get_orderly
  intro start
  dsimp only
  split
  · refine .recoverWith _ _ hconst (.bind (valueDecl_makesFrom hnested _) fun decl hdecl => ?_)
    apply MakesOrFailsFrom.pure
    change EveryExpr holds (Stmt.const decl).visits
    rw [Stmt.visits_const]
    exact .cons (by simp) hdecl
  · exact .recoverWith _ _ hbad (.bind hvariable fun decl hdecl => .pure hdecl)
  · refine .recoverWith _ _ hbad (.bind (funcDecl_makesFrom hexpr) fun decl hdecl => .pure ?_)
    change EveryExpr holds (Decl.func decl).visits
    rw [Decl.visits_func]
    exact .cons (by simp) hdecl
  · exact .recoverWith _ _ hbad (.bind (typeDecl_makesFrom hnested) fun decl hdecl =>
      .pure (Item.everyExpr_ofTypeDecl hdecl))
  · refine .past get_orderly fun _ => .ite (.recoverWith _ _ hbad ?_)
      (.recoverWith _ _ hbad hstray)
    exact .past implementsDecl_consumes.orderly fun _ => .pure .nil
  · exact .recoverWith _ _ hbad hstray

/-- What is true of the expressions of all levels is true of all expressions of a file. -/
theorem file_makesFrom : MakesFrom stream (fun file => EveryExpr holds file.visits) file := by
  have hitems : MakesFrom stream (fun found => ∀ item ∈ found, EveryExpr holds item.visits)
      items := by
    refine .repeatList fun found hfound => .past get_orderly fun _ => .ite (.pure hfound)
      (.ite (.past advance_orderly fun _ => .pure hfound) ?_)
    exact .bind (item_makesFrom hexpr) fun item hitem =>
      .pure (List.forall_mem_cons.2 ⟨hitem, hfound⟩)
  refine .past packageClause_orderly fun outcome => ?_
  cases outcome with
  | ok clause =>
      exact .bind hitems fun found hfound => .pure (File.everyExpr_ofItems hfound _ _)
  | error bad =>
      refine .bind hitems fun found hfound => .pure (File.everyExpr_ofItems ?_ _ _)
      exact List.forall_mem_cons.2 ⟨Decl.everyExpr_bad holds bad, hfound⟩

end Files

end Grammar

end OriSyntax
