import OriSyntax.Proofs.FileComplete
import OriSyntax.Proofs.Heights
import OriSyntax.Proofs.Lists

/-!
How deep the trees are that the grammar makes.  Reading an expression or a statement costs a
level, and there are `maxNesting` of them.  Between two levels at most one more statement
stands: a clause, a body behind `else`, or a part of a header.  Folding costs no level, so
the depth of a tree is bounded only together with its longest fold.
-/

namespace OriSyntax.Grammar

variable {α β : Type} {nested : Nested} {room : Nat}

/-- What the productions of a level make has at most `room` levels inside. -/
structure Nested.Shallow (nested : Nested) (room : Nat) : Prop where
  expr : ∀ least, Makes (·.nesting ≤ room + 1) (nested.expr least)
  stmt : Makes (·.height 1 Expr.nesting ≤ 2 * room + 1) nested.stmt
  ifElse : MakesOrFails (·.height 1 Expr.nesting ≤ 2 * room + 1) nested.ifElse

section Expressions

variable (hnested : nested.Shallow room)
include hnested

theorem parenthesized_makes :
    MakesOrFails (·.nesting ≤ room + 2) (parenthesized nested) := by
  refine .after fun _ => .after fun _ => .ite ?_ ?_
  · exact .after fun _ => .after fun _ => .fail _ _ _
  · refine .bind (.lift (hnested.expr _)) fun inner hinner => .after fun _ => .pure ?_
    exact Nat.succ_le_succ hinner

theorem operand_makes : MakesOrFails (·.nesting ≤ room + 2) (operand nested) := by
  apply MakesOrFails.after
  intro kind
  split
  case h_6 => exact parenthesized_makes hnested
  case h_7 | h_8 =>
    refine .after fun _ => .bind (.lift (hnested.expr _)) fun inner hinner => .pure ?_
    exact Nat.succ_le_succ hinner
  case h_9 => exact .after fun _ => .after fun _ => .after fun _ => .throw _
  all_goals exact .after fun _ => .pure (Nat.succ_le_succ (Nat.zero_le _))

variable {left : Expr} (hleft : left.nesting ≤ room + 2)
include hleft

theorem binary_makes (level : Precedence) :
    Makes (·.nesting ≤ room + 2) (binary nested left level) := by
  refine .after fun op => .bind (hnested.expr _) fun right hright => .ite ?_ (.pure ?_)
  · exact .after fun _ => .pure (Nat.succ_le_succ (Nat.zero_le _))
  · simp only [Expr.nesting, Expr.inside] at hleft hright ⊢
    omega

theorem suffix_makes : MakesOrFails (·.nesting ≤ room + 2) (suffix nested left) := by
  refine .after fun opening => .ite ?_ (.ite ?_ ?_)
  · exact .after fun _ => .pure hleft
  · refine .bind (.lift (hnested.expr _)) fun inner hinner => .after fun _ => .pure ?_
    simp only [Expr.nesting, Expr.inside] at hleft hinner ⊢
    omega
  · refine .bind (restOfList_makes _ opening (.lift (hnested.expr _))) fun args hargs => ?_
    apply MakesOrFails.pure
    have hnesting : Expr.nestingOfAll args.items ≤ room + 1 := by
      rwa [Expr.nestingOfAll_eq, greatest_le_iff]
    simp only [Expr.nesting, Expr.inside] at hleft ⊢
    omega

theorem exprPass_makes (least : Precedence) :
    Makes (Gathered (·.nesting ≤ room + 2)) (exprPass nested least left) := by
  refine .after fun _ => .after fun _ => .ite (.pure hleft) (.ite ?_ ?_)
  · refine .bind_run (suffix_makes hnested hleft) (fun _ hexpr => .pure hexpr) fun _ => ?_
    exact .after fun _ => .pure (Nat.succ_le_succ (Nat.zero_le _))
  · exact .bind (binary_makes hnested hleft _) fun _ hexpr => .pure hexpr

omit hleft in
theorem exprInside_makes (least : Precedence) :
    Makes (·.nesting ≤ room + 2) (exprInside nested least) := by
  refine .bind_run (operand_makes hnested) (fun left hleft => ?_) fun _ => .pure ?_
  · exact .repeatStep (fun _ hleft => exprPass_makes hnested hleft least) hleft
  · exact Nat.succ_le_succ (Nat.zero_le _)

omit hleft in
theorem exprList_makes : Makes (greatest Expr.nesting · ≤ room + 1) (exprList nested) := by
  simp only [greatest_le_iff]
  refine .repeatList fun found hfound => .bind (hnested.expr _) fun expr hexpr => ?_
  have hexprs : ∀ item ∈ expr :: found, item.nesting ≤ room + 1 :=
    List.forall_mem_cons.2 ⟨hexpr, hfound⟩
  refine .after fun comma => ?_
  cases comma <;> exact .pure hexprs

end Expressions

section Statements

variable (hnested : nested.Shallow room)
include hnested

theorem field_makes :
    MakesOrFails (fun field => measureOf? Expr.nesting (field.default.map Default.value) ≤ room + 1)
      (field nested) := by
  refine .after fun name => .after fun type => .after fun eq => ?_
  cases eq with
  | some eq => exact .bind (.lift (hnested.expr _)) fun value hvalue => .pure hvalue
  | none => exact .pure (Nat.zero_le _)

theorem structBody_makes (keyword name : Token) :
    MakesOrFails (StructDecl.height Expr.nesting · ≤ room + 1)
      (typeBody keyword name (field nested)) := by
  refine .after fun _ => .bind (members_makes (field_makes hnested)) fun body hbody => .pure ?_
  exact greatest_le_iff.2 hbody

theorem typeDecl_makes :
    MakesOrFails (·.height 1 Expr.nesting ≤ room + 2) (typeDecl nested) := by
  refine .after fun keyword => .after fun name => .onFailure (.after fun kind => ?_) _
  split
  · refine .bind (structBody_makes hnested keyword name) fun decl hdecl => .pure ?_
    exact Nat.succ_le_succ hdecl
  case h_5 => exact .after fun _ => .failHere _
  all_goals exact .after fun _ => .pure (Nat.succ_le_succ (Nat.zero_le _))

theorem valueDecl_makes (what : String) :
    MakesOrFails (·.value.nesting ≤ room + 1) (valueDecl nested what) := by
  refine .after fun _ => .after fun _ => .after fun _ => .after fun _ => ?_
  exact .bind (.lift (hnested.expr _)) fun value hvalue => .pure hvalue

/-- A statement without a body adds itself to its expressions. -/
theorem simpleStmt_makes :
    MakesOrFails (·.height 1 Expr.nesting ≤ room + 2) (simpleStmt nested) := by
  refine .bind (.lift (hnested.expr _)) fun expr hexpr => ?_
  split
  · exact .throw _
  · refine .after fun _ => .ite ?_ (.ite ?_ (.ite (.pure ?_) (.fail _ _ _)))
    · refine .after fun _ => .bind (.lift (hnested.expr _)) fun right hright => .pure ?_
      simp only [Stmt.height]
      omega
    · exact .after fun _ => .pure (Nat.succ_le_succ hexpr)
    · exact Nat.succ_le_succ hexpr

theorem returnStmt_makes :
    Makes (·.height 1 Expr.nesting ≤ room + 2) (returnStmt nested) := by
  refine .after fun _ => .after fun _ => .ite (.pure (Nat.succ_le_succ (Nat.zero_le _))) ?_
  exact .bind (exprList_makes hnested) fun values hvalues => .pure (Nat.succ_le_succ hvalues)

omit hnested in
theorem branchStmt_makes : MakesOrFails (·.height 1 Expr.nesting ≤ room + 2) branchStmt := by
  refine .after fun keyword => .after fun _ => .ite (.fail _ _ _) (.after fun _ => ?_)
  refine .after fun _ => .ite (.pure ?_) (.after fun _ => .fail _ _ _)
  split <;> exact Nat.succ_le_succ (Nat.zero_le _)

omit hnested in
theorem fallThroughStmt_makes :
    MakesOrFails (·.height 1 Expr.nesting ≤ room + 2) fallThroughStmt := by
  refine .after fun _ => .after fun _ => .after fun _ => .ite (.pure ?_) ?_
  · exact Nat.succ_le_succ (Nat.zero_le _)
  · exact .after fun _ => .fail _ _ _

theorem steppingStmt_makes :
    Makes (·.height 1 Expr.nesting ≤ 2 * room + 1) (steppingStmt nested) :=
  .after fun _ => .bind hnested.stmt fun _ hstmt => .after fun _ =>
    .ite (.after fun _ => .pure hstmt) (.pure hstmt)

theorem stmtPass_makes (stops : Kind → Bool) {found : List Stmt}
    (hfound : ∀ stmt ∈ found, stmt.height 1 Expr.nesting ≤ 2 * room + 1) :
    Makes (Gathered fun stmts => ∀ stmt ∈ stmts, stmt.height 1 Expr.nesting ≤ 2 * room + 1)
      (stmtPass nested stops found) := by
  refine .after fun _ => .ite (.pure hfound) (.ite (.after fun _ => .pure hfound) ?_)
  exact .bind (steppingStmt_makes hnested) fun stmt hstmt =>
    .pure (List.forall_mem_cons.2 ⟨hstmt, hfound⟩)

theorem stmtList_makes (stops : Kind → Bool) :
    Makes (Stmt.heightOfAll 1 Expr.nesting · ≤ 2 * room + 1) (stmtList nested stops) := by
  simp only [Stmt.heightOfAll_le_iff]
  exact .repeatList fun _ => stmtPass_makes hnested stops

theorem block_makes :
    MakesOrFails (Stmt.heightOfBlock 1 Expr.nesting · ≤ 2 * room + 1) (block nested) :=
  .after fun _ => .bind (.lift (stmtList_makes hnested _)) fun _ hstmts =>
    .after fun _ => .pure hstmts

/-- A body behind `else` is one more statement on the same level. -/
theorem elseBranch_makes :
    MakesOrFails (Stmt.height? 1 Expr.nesting · ≤ 2 * room + 2) (elseBranch nested) := by
  refine .after fun keyword => ?_
  cases keyword with
  | none => exact .pure (Nat.zero_le _)
  | some keyword =>
      refine .after fun _ => .ite ?_ (.ite ?_ ?_)
      · exact .bind hnested.ifElse fun branch hbranch => .pure (Nat.le_succ_of_le hbranch)
      · exact .bind (block_makes hnested) fun body hbody => .pure (Nat.succ_le_succ hbody)
      · exact .after fun _ => .after fun _ => .fail _ _ _

theorem ifStmt_makes :
    MakesOrFails (·.height 1 Expr.nesting ≤ 2 * room + 3) (ifStmt nested) := by
  refine .after fun _ => .after fun _ => .ite (.after fun _ => .after fun _ => .fail _ _ _) ?_
  refine .bind (.lift (hnested.expr _)) fun condition hcondition => .after fun _ => ?_
  refine .ite (.after fun _ => .fail _ _ _) ?_
  refine .bind (block_makes hnested) fun body hbody => ?_
  refine .bind (elseBranch_makes hnested) fun otherwise hotherwise => .pure ?_
  simp only [Stmt.height]
  omega

theorem loopBody_makes :
    MakesOrFails (Stmt.heightOfBlock 1 Expr.nesting · ≤ 2 * room + 1) (loopBody nested) :=
  (block_makes hnested).between _ _

theorem rangeTargets_makes (keyword : Token) :
    MakesOrFails (fun targets => measureOf? Expr.nesting targets.1 ≤ room + 1 ∧
      measureOf? Expr.nesting targets.2.1 ≤ room + 1) (rangeTargets nested keyword) := by
  refine .after fun _ => .ite (.pure ⟨Nat.zero_le _, Nat.zero_le _⟩) ?_
  have hvalue : Makes (measureOf? Expr.nesting · ≤ room + 1) (rangeValue nested) := by
    refine .after fun comma => ?_
    cases comma with
    | some comma => exact .bind (hnested.expr _) fun value hvalue => .pure hvalue
    | none => exact .pure (Nat.zero_le _)
  refine .bind (.lift (hnested.expr _)) fun key hkey => ?_
  refine .bind (.lift hvalue) fun value hvalue => .after fun _ => .ite ?_ ?_
  · exact .after fun _ => .pure ⟨hkey, hvalue⟩
  · exact .after fun _ => .after fun _ => .fail _ _ _

theorem rangeLoop_makes (keyword : Token) :
    MakesOrFails (·.height 1 Expr.nesting ≤ 2 * room + 3) (rangeLoop nested keyword) := by
  refine .bind (rangeTargets_makes hnested keyword) fun targets htargets => ?_
  obtain ⟨key, value, op⟩ := targets
  obtain ⟨hkey, hvalue⟩ : measureOf? Expr.nesting key ≤ room + 1 ∧
    measureOf? Expr.nesting value ≤ room + 1 := htargets
  refine .after fun _ => .bind (.lift (hnested.expr _)) fun subject hsubject => ?_
  refine .bind (loopBody_makes hnested) fun body hbody => .pure ?_
  simp only [Stmt.height]
  omega

theorem forClause_makes (clause : ForClause) :
    MakesOrFails (·.height 1 Expr.nesting ≤ room + 2) (forClause nested clause) :=
  .bind (simpleStmt_makes hnested) fun _ hstmt => .ite (.pure hstmt) (.fail _ _ _)

theorem threeClauseLoop_makes (keyword : Token) :
    MakesOrFails (·.height 1 Expr.nesting ≤ 2 * room + 3) (threeClauseLoop nested keyword) := by
  refine .bind ((forClause_makes hnested .init).unlessAt _) fun first hfirst => ?_
  refine .after fun _ => .bind (.unlessAt (.lift (hnested.expr _)) _) fun condition hcondition => ?_
  refine .after fun _ => .bind ((forClause_makes hnested .post).unlessAt _) fun after hafter => ?_
  refine .bind (loopBody_makes hnested) fun body hbody => .pure ?_
  rw [← Stmt.height?_le_iff] at hfirst hafter
  rw [← measureOf?_le_iff] at hcondition
  simp only [Stmt.height]
  omega

theorem restOfLoop_makes (keyword : Token) :
    MakesOrFails (·.height 1 Expr.nesting ≤ 2 * room + 3) (restOfLoop nested keyword) := by
  refine .after fun _ => .ite ?_ (.after fun _ => .ite (rangeLoop_makes hnested keyword) ?_)
  · refine .bind (loopBody_makes hnested) fun body hbody => .pure ?_
    simp only [Stmt.height, Stmt.height?, measureOf?, Option.map_none, Option.getD_none]
    omega
  · refine .after fun _ => .ite (threeClauseLoop_makes hnested keyword) ?_
    refine .bind (.lift (hnested.expr _)) fun condition hcondition => ?_
    refine .bind (loopBody_makes hnested) fun body hbody => .pure ?_
    simp only [Stmt.height, Stmt.height?, measureOf?, Option.map_some, Option.getD_some]
    omega

theorem loop_makes : MakesOrFails (·.height 1 Expr.nesting ≤ 2 * room + 3) (loop nested) :=
  .after fun keyword => ((restOfLoop_makes hnested keyword).onFailure _).onFailure _

theorem caseValues_makes (keyword : Token) :
    Makes (greatest Expr.nesting · ≤ room + 1) (caseValues nested keyword) :=
  .ite (exprList_makes hnested) (.pure (Nat.zero_le _))

/-- A clause is one more statement on the level of its switch. -/
theorem caseClause_makes :
    MakesOrFails (·.height 1 Expr.nesting ≤ 2 * room + 2) (caseClause nested) := by
  refine .after fun keyword =>
    .bind (.lift (caseValues_makes hnested keyword)) fun values hvalues => ?_
  refine .after fun _ => .bind (.lift (stmtList_makes hnested _)) fun body hbody => .pure ?_
  simp only [Stmt.height]
  omega

theorem caseStmt_makes (found : List Stmt) :
    Makes (·.height 1 Expr.nesting ≤ 2 * room + 2) (caseStmt nested found) := by
  have hbad (node : BadNode) : (Stmt.bad node).height 1 Expr.nesting ≤ 2 * room + 2 :=
    Nat.succ_le_succ (Nat.zero_le _)
  refine .after fun _ => .bind_run (caseClause_makes hnested) (fun clause hclause => ?_) ?_
  · exact .ite (.after fun _ => .pure (hbad _)) (.pure hclause)
  · exact fun _ => .after fun _ => .after fun _ => .pure (hbad _)

omit hnested in
theorem strayCase_makes : Makes (·.height 1 Expr.nesting ≤ 2 * room + 2) strayCase :=
  .after fun _ => .after fun _ => .after fun _ => .after fun _ => .after fun _ =>
    .after fun _ => .pure (Nat.succ_le_succ (Nat.zero_le _))

theorem caseList_makes :
    Makes (Stmt.heightOfAll 1 Expr.nesting · ≤ 2 * room + 2) (caseList nested) := by
  simp only [Stmt.heightOfAll_le_iff]
  refine .repeatList fun found hfound => .after fun _ => .ite (.pure hfound) (.ite ?_ (.ite ?_ ?_))
  · exact .after fun _ => .pure hfound
  · exact .bind (caseStmt_makes hnested found) fun stmt hstmt =>
      .pure (List.forall_mem_cons.2 ⟨hstmt, hfound⟩)
  · exact .bind strayCase_makes fun stmt hstmt =>
      .pure (List.forall_mem_cons.2 ⟨hstmt, hfound⟩)

theorem switchInit_makes :
    MakesOrFails (Stmt.height? 1 Expr.nesting · ≤ room + 2) (switchInit nested) := by
  refine .after fun _ => .ite ?_ (.pure (Nat.zero_le _))
  exact .bind (simpleStmt_makes hnested) fun _ hstmt => .after fun _ => .pure hstmt

theorem switch_makes : MakesOrFails (·.height 1 Expr.nesting ≤ 2 * room + 3) (switch nested) := by
  refine .after fun keyword => .onFailure (.onFailure ?_ _) _
  refine .bind (switchInit_makes hnested) fun first hfirst => ?_
  refine .bind (.unlessAt (.lift (hnested.expr _)) _) fun tag htag => .after fun _ => ?_
  refine .bind (.lift (caseList_makes hnested)) fun cases hcases => .after fun _ => .pure ?_
  rw [← measureOf?_le_iff] at htag
  simp only [Stmt.height]
  omega

theorem stmtInside_makes :
    MakesOrFails (·.height 1 Expr.nesting ≤ 2 * room + 3) (stmtInside nested) := by
  have hlow {stmt : Stmt} (hstmt : stmt.height 1 Expr.nesting ≤ room + 2) :
      stmt.height 1 Expr.nesting ≤ 2 * room + 3 := by omega
  have hsimple := (simpleStmt_makes hnested).weaken hlow
  have hvalue (what : String) (make : ValueDecl → Stmt)
      (hmake : ∀ decl, (make decl).height 1 Expr.nesting = decl.value.nesting + 1) :
      MakesOrFails (·.height 1 Expr.nesting ≤ 2 * room + 3)
        (do return make (← valueDecl nested what)) := by
    refine .bind (valueDecl_makes hnested what) fun decl hdecl => .pure (hlow ?_)
    rw [hmake decl]
    exact Nat.succ_le_succ hdecl
  apply MakesOrFails.after
  intro kind
  split
  · exact hvalue _ .const fun _ => rfl
  · exact hvalue _ .var fun _ => rfl
  · exact .lift ((returnStmt_makes hnested).weaken hlow)
  · exact ifStmt_makes hnested
  · exact loop_makes hnested
  · exact switch_makes hnested
  · exact branchStmt_makes.weaken hlow
  · exact branchStmt_makes.weaken hlow
  · exact fallThroughStmt_makes.weaken hlow
  · refine .bind (block_makes hnested) fun body hbody => .pure ?_
    exact Nat.le_succ_of_le (Nat.succ_le_succ hbody)
  · refine .after fun _ => .ite ?_ hsimple
    refine .bind (typeDecl_makes hnested) fun decl hdecl => .pure ?_
    simp only [Stmt.height]
    omega
  · exact hsimple

end Statements

theorem nested_shallow (levels : Nat) : (Grammar.nested levels).Shallow levels := by
  have hexpr (bad : BadNode) (bound : Nat) : (Expr.bad bad).nesting ≤ bound + 1 :=
    Nat.le_add_left 1 bound
  have hstmt (bad : BadNode) (bound : Nat) :
      (Stmt.bad bad).height 1 Expr.nesting ≤ bound + 1 := Nat.le_add_left 1 bound
  induction levels with
  | zero =>
      -- With no level left, all that is read is a bad node.
      constructor
      · exact fun _ => .after fun _ => .recoverWith .failTooDeep (hexpr · _) _ _
      · exact .after fun _ => .recoverWith .failTooDeep (hstmt · _) _ _
      · exact .failTooDeep
  | succ levels ih =>
      constructor
      · exact fun least => .after fun _ => .recoverWith
          (.descend (.lift (exprInside_makes ih least))) (hexpr · _) _ _
      · exact .after fun _ => .recoverWith (stmtInside_makes ih).descend (hstmt · _) _ _
      · exact (ifStmt_makes ih).descend

theorem outermost_shallow : outermost.Shallow maxNesting := nested_shallow maxNesting

theorem funcDecl_makes :
    MakesOrFails (Stmt.heightOfBlock 1 Expr.nesting ·.body ≤ 2 * maxNesting + 1) funcDecl := by
  have hbody : MakesOrFails (Stmt.heightOfBlock 1 Expr.nesting · ≤ 2 * maxNesting + 1) funcBody :=
    .after fun _ => (block_makes outermost_shallow).between _ _
  refine .after fun _ => .after fun _ => .after fun _ => .after fun _ => ?_
  refine .bind hbody.attempt fun body hbody => .after fun _ => .after fun _ => ?_
  exact .bind (.settle hbody) fun body hbody => .pure hbody

end OriSyntax.Grammar

namespace OriSyntax

/-- How many levels a top-level item has. -/
def Item.levels : Item → Nat
  | .const stmt => stmt.height 1 Expr.nesting
  | .decl inner => inner.height 1 Expr.nesting
  | .struct inner => StructDecl.height Expr.nesting inner
  | .interface _ | .enum _ | .sum _ | .implements _ => 0

theorem File.height_ofItems_le {items : List Item} {bound : Nat}
    (hitems : ∀ item ∈ items, item.levels ≤ bound) (package name : Token) :
    (File.ofItems package name items).height 1 Expr.nesting ≤ bound := by
  rw [File.height, Nat.max_le, Nat.max_le, Stmt.heightOfAll_le_iff, greatest_le_iff,
    greatest_le_iff]
  simp only [File.ofItems, List.mem_filterMap]
  refine ⟨?_, ?_, ?_⟩
  all_goals
    rintro part ⟨item, hmem, hpart⟩
    have hitem := hitems item hmem
    cases item <;> simp_all [Item.levels]

namespace Grammar

theorem fileVariable_makes :
    MakesOrFails (·.height 1 Expr.nesting ≤ 2 * maxNesting + 2) fileVariable :=
  .after fun _ => .after fun _ => .pure (Nat.le_add_left 1 _)

theorem levels_ofTypeDecl_le (decl : Decl) :
    (Item.ofTypeDecl decl).levels ≤ decl.height 1 Expr.nesting := by
  cases decl with
  | struct inner => exact Nat.le_succ _
  | func _ | implements _ | bad _ => exact Nat.le_refl _
  | interface _ | enum _ | sum _ => exact Nat.zero_le _

theorem item_makes : Makes (·.levels ≤ 2 * maxNesting + 2) item := by
  have hbad (bad : BadNode) : (Item.decl (.bad bad)).levels ≤ 2 * maxNesting + 2 :=
    Nat.le_add_left 1 _
  have hconst (bad : BadNode) : (Item.const (.bad bad)).levels ≤ 2 * maxNesting + 2 :=
    Nat.le_add_left 1 _
  have hstray : MakesOrFails (·.levels ≤ 2 * maxNesting + 2) (strayItem : Production Item) :=
    .after fun _ => .after fun _ => .after fun _ => .throw _
  apply Makes.after
  intro start
  dsimp only
  split
  · refine .recoverWith ?_ hconst _ _
    refine .bind (valueDecl_makes outermost_shallow _) fun decl hdecl => .pure ?_
    simp only [Item.levels, Stmt.height]
    omega
  · exact .recoverWith (.bind fileVariable_makes fun _ hdecl => .pure hdecl) hbad _ _
  · refine .recoverWith (.bind funcDecl_makes fun decl hdecl => .pure ?_) hbad _ _
    obtain ⟨_, _, _, _, body⟩ := decl
    exact Nat.succ_le_succ hdecl
  · refine .recoverWith ?_ hbad _ _
    refine .bind (typeDecl_makes outermost_shallow) fun decl hdecl => .pure ?_
    exact Nat.le_trans (levels_ofTypeDecl_le decl) (by omega)
  · refine .after fun _ => .ite (.recoverWith ?_ hbad _ _) (.recoverWith hstray hbad _ _)
    exact .after fun _ => .pure (Nat.zero_le _)
  · exact .recoverWith hstray hbad _ _

theorem file_makes : Makes (·.height 1 Expr.nesting ≤ 2 * maxNesting + 2) file := by
  have hitems : Makes (fun found => ∀ item ∈ found, item.levels ≤ 2 * maxNesting + 2) items := by
    refine .repeatList fun found hfound => .after fun _ => .ite (.pure hfound) (.ite ?_ ?_)
    · exact .after fun _ => .pure hfound
    · exact .bind item_makes fun item hitem => .pure (List.forall_mem_cons.2 ⟨hitem, hfound⟩)
  refine .bind_run .any (fun clause _ => ?_) fun bad => ?_
  · exact .bind hitems fun found hfound => .pure (File.height_ofItems_le hfound _ _)
  · refine .bind hitems fun found hfound => .pure (File.height_ofItems_le ?_ _ _)
    exact List.forall_mem_cons.2 ⟨Nat.le_add_left 1 _, hfound⟩

end Grammar

/-- A tree has at most `2 * maxNesting + 2` levels if what is folded onto one operand counts
as one of them, and it is at most as many times deeper as its longest fold tells. -/
theorem depth_parse_le (tokens : List Token) :
    (parse tokens).file.height 1 Expr.nesting ≤ 2 * Grammar.maxNesting + 2 ∧
      (parse tokens).file.depth ≤
        (2 * Grammar.maxNesting + 2) * ((parse tokens).file.longestFold + 1) := by
  have hlevels : (parse tokens).file.height 1 Expr.nesting ≤ 2 * Grammar.maxNesting + 2 :=
    Grammar.file_makes { cursor := .ofTokens tokens } trivial
  exact ⟨hlevels, File.depth_le hlevels⟩

/-- A name with selections folded onto it, all in one place. -/
def selections : Nat → Expr
  | 0 => .ident ⟨.ident, "b", 1, 1⟩
  | count + 1 => .selector (selections count) ⟨.dot, ".", 1, 1⟩ ⟨.ident, "c", 1, 1⟩

/-- The tokens of such a chain. -/
def selectionTokens : Nat → List Token
  | 0 => [⟨.ident, "b", 1, 1⟩]
  | count + 1 => selectionTokens count ++ [⟨.dot, ".", 1, 1⟩, ⟨.ident, "c", 1, 1⟩]

/-- A constant whose value is a chain of selections. -/
def selectionDecl (count : Nat) : ValueDecl where
  keyword := ⟨.constKw, "const", 1, 1⟩
  name := ⟨.ident, "a", 1, 1⟩
  type := none
  eq := ⟨.assign, "=", 1, 1⟩
  value := selections count

/-- The file of that constant. -/
def selectionFile (count : Nat) : File where
  package := ⟨.packageKw, "package", 1, 1⟩
  name := ⟨.ident, "p", 1, 1⟩
  consts := [.const (selectionDecl count)]
  decls := []
  structs := []
  interfaces := []
  enums := []
  sums := []
  implements := []

/-- The tokens of that file. -/
def selectionFileTokens (count : Nat) : List Token :=
  [⟨.packageKw, "package", 1, 1⟩, ⟨.ident, "p", 1, 1⟩, ⟨.constKw, "const", 1, 1⟩,
    ⟨.ident, "a", 1, 1⟩, ⟨.assign, "=", 1, 1⟩] ++ selectionTokens count ++
    [⟨.semicolon, ";", 1, 1⟩]

theorem selections_canonical (count : Nat) (least : Precedence) :
    (selections count).isHead ∧ (selections count).Canonical least := by
  induction count generalizing least with
  | zero => exact ⟨rfl, rfl⟩
  | succ count ih =>
      constructor
      · rfl
      · simp only [selections, Expr.Canonical, (ih .suffix).1, (ih .suffix).2, and_self]

theorem depth_selections (count : Nat) : (selections count).depth = count + 1 := by
  induction count with
  | zero => rfl
  | succ count ih => rw [selections, Expr.depth, ih]

theorem inside_selections (count : Nat) : (selections count).inside = 0 := by
  induction count with
  | zero => rfl
  | succ count ih => rw [selections, Expr.inside, ih]

theorem takes_selections (count : Nat) :
    List.Forall₂ Slot.Takes (selections count).slots (selectionTokens count) := by
  induction count with
  | zero => exact .cons rfl .nil
  | succ count ih => exact List.rel_append ih (.cons rfl (.cons rfl .nil))

theorem wellFormed_selectionDecl (count : Nat) : (selectionDecl count).WellFormed .constKw where
  keyword := rfl
  name := rfl
  type := by simp [selectionDecl]
  eq := rfl
  value := by simpa only [selectionDecl] using (selections_canonical count .lowest).2

theorem wellFormed_selectionFile (count : Nat) : (selectionFile count).WellFormed where
  package := rfl
  name := rfl
  consts := by
    intro stmt hstmt
    exact ⟨selectionDecl count, List.mem_singleton.1 hstmt, wellFormed_selectionDecl count⟩
  decls := by simp [selectionFile]
  structs := by simp [selectionFile]
  interfaces := by simp [selectionFile]
  enums := by simp [selectionFile]
  sums := by simp [selectionFile]
  implements := by simp [selectionFile]

theorem takes_selectionFile (count : Nat) :
    List.Forall₂ Slot.Takes (selectionFile count).slots (selectionFileTokens count) := by
  have hend : List.Forall₂ Slot.Takes [.separator .semicolon] [⟨.semicolon, ";", 1, 1⟩] :=
    .cons rfl .nil
  simpa [File.slots, selectionFile, selectionFileTokens, selectionDecl, Stmt.slots,
    ValueDecl.slots, slotsOf?, Slot.Takes] using List.rel_append (takes_selections count) hend

theorem line_selectionFileTokens (count : Nat) :
    ∀ token ∈ selectionFileTokens count, token.line = 1 := by
  have hchain : ∀ token ∈ selectionTokens count, token.line = 1 := by
    induction count with
    | zero => decide
    | succ count ih => exact List.forall_mem_append.2 ⟨ih, by decide⟩
  exact List.forall_mem_append.2 ⟨List.forall_mem_append.2 ⟨by decide, hchain⟩, by decide⟩

theorem parse_selectionFileTokens (count : Nat) :
    parse (selectionFileTokens count) = ⟨selectionFile count, []⟩ := by
  have hfile := wellFormed_selectionFile count
  have htakes := takes_selectionFile count
  have hwritten := Slot.Takes.isWritten_of_mem htakes (File.written_slots hfile)
  have hending : ∀ token ∈ ([] : List Token).head?, token.kind = .eof := nofun
  have hahead := Cursor.ahead_ofTokens_append hwritten hending
  rw [List.append_nil] at hahead
  obtain ⟨last, hfaces, hrest⟩ := Cursor.exists_faces htakes
    (hahead.trans (List.append_nil _).symm) (line_selectionFileTokens count) nofun
  refine parse_of_faces hfile ?_ hfaces (Cursor.kind_eq_eof_iff.2 hrest)
  simp only [File.nesting, selectionFile, greatest, List.foldr, Stmt.inside, selectionDecl,
    Expr.nesting, inside_selections]
  decide

/-- No number bounds the depth of all trees: what is folded onto one operand costs no level
and is nested all the same. -/
theorem depth_parse_unbounded : ¬ ∃ bound, ∀ tokens, (parse tokens).file.depth ≤ bound := by
  rintro ⟨bound, hbound⟩
  have hdepth := hbound (selectionFileTokens bound)
  rw [parse_selectionFileTokens, File.depth, selectionFile, Stmt.depthOfAll, Stmt.depth,
    selectionDecl, depth_selections] at hdepth
  omega

end OriSyntax
