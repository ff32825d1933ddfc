import OriSyntax.Grammar.File
import OriSyntax.Proofs.Reading

/-!
Every production only moves forward, and every loop of the grammar reads a token in
each pass but the last.  Many productions fail without reading anything; the loop
around them then fails too, leaves, or steps over the token at which they stand.
-/

namespace OriSyntax.Grammar

variable {α β : Type} {nested : Nested}

/-- The productions of a level only move forward. -/
structure Nested.Orderly (nested : Nested) : Prop where
  expr : ∀ least, Grammar.Orderly (nested.expr least)
  stmt : Grammar.Orderly nested.stmt
  ifElse : Grammar.Orderly nested.ifElse.run

theorem failList_orderly (message : String) :
    Orderly (failList message : Production α).run :=
  .run_bind get_orderly fun _ => failHere_orderly _

theorem commaPass_orderly (noun : String) {entry : Production α}
    (hentry : Orderly entry.run) (found : List α) :
    Orderly (commaPass noun entry found).run := by
  refine .run_bind get_orderly fun _ => .run_ite (.run_pure _) ?_
  apply Orderly.run_ite (failExpected_orderly _ _)
  refine .run_bind hentry fun _ => .run_bind get_orderly fun _ => .run_ite ?_ ?_
  · refine .run_bind advance_orderly fun _ => .run_bind get_orderly fun _ => ?_
    exact .run_ite (failList_orderly _) (.run_pure _)
  · exact .run_ite (.run_pure _) (failList_orderly _)

theorem commaList_orderly (noun : String) {entry : Production α}
    (hentry : Orderly entry.run) : Orderly (commaList noun entry).run := by
  refine .run_bind get_orderly fun _ => .run_ite (failList_orderly _) ?_
  exact .run_bind (repeatProduction_orderly (commaPass_orderly noun hentry) _)
    fun _ => .run_pure _

theorem restOfList_orderly (noun : String) (opening : Token) {entry : Production α}
    (hentry : Orderly entry.run) : Orderly (restOfList noun opening entry).run :=
  .run_bind (skipping_orderly _ (commaList_orderly noun hentry)) fun _ =>
    .run_bind advance_orderly fun _ => .run_pure _

theorem typeName_orderly (accepts : Kind → Bool) (what : String) :
    Orderly (typeName accepts what) := by
  refine .bind get_orderly fun _ => .ite (.bind advance_orderly fun _ => .pure _) ?_
  refine .bind get_orderly fun _ => .bind (reportHere_orderly _) fun _ => ?_
  exact .bind (stepOverUnless_orderly _) fun _ => .pure _

theorem paramName_orderly (named : Bool) : Orderly (paramName named).run :=
  .run_ite (.run_bind (expectName_orderly _) fun _ => .run_pure _) (.run_pure _)

theorem param_orderly (named : Bool) : Orderly (param named).run :=
  .run_bind (paramName_orderly named) fun _ =>
    .run_bind (typeName_orderly _ _) fun _ => .run_pure _

theorem paramList_orderly (named : Bool) : Orderly (paramList named).run :=
  .run_bind (expect_orderly _ _) fun opening =>
    covering_orderly _ (restOfList_orderly _ opening (param_orderly named))

theorem atSignatureEnd_orderly : Orderly atSignatureEnd := State.Follows.refl

theorem results_orderly : Orderly results.run := by
  refine .run_bind atSignatureEnd_orderly fun _ => ?_
  refine .run_ite (.run_pure _) (.run_bind get_orderly fun _ => .run_ite ?_ ?_)
  · exact .run_bind get_orderly fun _ =>
      .run_bind (paramList_orderly _) fun _ => .run_pure _
  · exact .run_bind (typeName_orderly _ _) fun _ => .run_pure _

theorem qualifiedName_orderly (what : String) : Orderly (qualifiedName what).run := by
  refine .run_bind (expectName_orderly what) fun _ =>
    .run_bind (accept?_orderly _) fun dot => ?_
  cases dot with
  | some dot => exact .run_bind (expectName_orderly what) fun _ => .run_pure _
  | none => exact .run_pure _

theorem parenthesized_orderly (hnested : nested.Orderly) :
    Orderly (parenthesized nested).run := by
  refine .run_bind advance_orderly fun opening => .run_bind get_orderly fun _ => ?_
  refine .run_ite ?_ (.run_bind (hnested.expr _) fun _ => ?_)
  · exact .run_bind get_orderly fun _ =>
      .run_bind advance_orderly fun _ => fail_orderly _ _ _
  · exact .run_bind (covering_orderly _ (expect_orderly _ _)) fun _ => .run_pure _

theorem operand_orderly (hnested : nested.Orderly) : Orderly (operand nested).run := by
  apply Orderly.run_bind get_orderly
  intro kind
  split
  case h_6 => exact parenthesized_orderly hnested
  case h_7 | h_8 =>
    exact .run_bind advance_orderly fun _ =>
      .run_bind (hnested.expr _) fun _ => .run_pure _
  case h_9 =>
    refine .run_bind get_orderly fun _ => .run_bind (reportHere_orderly _) fun _ => ?_
    exact .run_bind skipUnexpected_orderly fun _ => .run_throw _
  all_goals exact .run_bind advance_orderly fun _ => .run_pure _

theorem binary_consumes (hnested : nested.Orderly) (left : Expr) (level : Precedence) :
    Consumes (binary nested left level) := by
  refine .bind advance_consumes fun _ => .bind (hnested.expr _) fun _ => ?_
  exact .ite (.bind (report_orderly _ _ _) fun _ => .pure _) (.pure _)

theorem suffix_consumes (hnested : nested.Orderly) (base : Expr) :
    Consumes (suffix nested base).run := by
  refine .run_bind (.run_lift advance_consumes) fun opening => .run_ite ?_ (.run_ite ?_ ?_)
  · exact .run_bind (expectName_orderly _) fun _ => .run_pure _
  · exact .run_bind (hnested.expr _) fun _ =>
      .run_bind (expect_orderly _ _) fun _ => .run_pure _
  · exact .run_bind (restOfList_orderly _ opening (hnested.expr _)) fun _ => .run_pure _

theorem exprPass_orderly (hnested : nested.Orderly) (least : Precedence) (left : Expr) :
    Orderly (exprPass nested least left) := by
  refine .bind get_orderly fun _ => .bind get_orderly fun _ => .ite (.pure _) (.ite ?_ ?_)
  · apply Orderly.bind (suffix_consumes hnested left).orderly
    intro outcome
    cases outcome with
    | ok expr => exact .pure _
    | error bad => exact .bind (cover_orderly _ _) fun _ => .pure _
  · exact .bind (binary_consumes hnested left _).orderly fun _ => .pure _

theorem exprInside_orderly (hnested : nested.Orderly) (least : Precedence) :
    Orderly (exprInside nested least) := by
  apply Orderly.bind (operand_orderly hnested)
  intro outcome
  cases outcome with
  | ok left => exact repeatStep_orderly (exprPass_orderly hnested least) left
  | error bad => exact .pure _

theorem exprListPass_orderly (hnested : nested.Orderly) (found : List Expr) :
    Orderly (exprListPass nested found) := by
  refine .bind (hnested.expr _) fun _ => .bind (accept?_orderly _) fun comma => ?_
  cases comma <;> exact .pure _

theorem exprList_orderly (hnested : nested.Orderly) : Orderly (exprList nested) :=
  .bind (repeatStep_orderly (exprListPass_orderly hnested) _) fun _ => .pure _

theorem memberEnd_orderly : Orderly memberEnd.run :=
  .run_bind get_orderly fun _ => .run_bind get_orderly fun _ =>
    .run_ite (.run_pure _) (failExpected_orderly _ _)

theorem memberPass_orderly {member : Production α} (hmember : Orderly member.run)
    (found : List α) : Orderly (memberPass member found).run := by
  refine .run_bind get_orderly fun _ => .run_ite (.run_pure _) ?_
  refine .run_ite (failExpected_orderly _ _) (.run_ite ?_ ?_)
  · exact .run_bind advance_orderly fun _ => .run_pure _
  · refine .run_bind (skipping_orderly _ ?_) fun _ => .run_pure _
    exact .run_bind hmember fun _ => .run_bind memberEnd_orderly fun _ => .run_pure _

theorem members_orderly {member : Production α} (hmember : Orderly member.run) :
    Orderly (members member).run :=
  .run_bind (expect_orderly _ _) fun _ =>
    .run_bind (repeatProduction_orderly (memberPass_orderly hmember) _) fun _ =>
      .run_bind advance_orderly fun _ => .run_pure _

theorem field_orderly (hnested : nested.Orderly) : Orderly (field nested).run := by
  refine .run_bind (expectName_orderly _) fun _ =>
    .run_bind (typeName_orderly _ _) fun _ => .run_bind (accept?_orderly _) fun eq => ?_
  cases eq with
  | some eq => exact .run_bind (hnested.expr _) fun _ => .run_pure _
  | none => exact .run_pure _

theorem interfaceMember_orderly : Orderly interfaceMember.run := by
  refine .run_bind get_orderly fun _ => .run_bind get_orderly fun _ => .run_ite ?_ ?_
  · exact .run_bind advance_orderly fun _ => .run_bind (paramList_orderly _) fun _ =>
      .run_bind results_orderly fun _ => .run_pure _
  · exact .run_bind (qualifiedName_orderly _) fun _ => .run_pure _

theorem sumVariant_orderly : Orderly sumVariant.run :=
  .run_bind (expectName_orderly _) fun _ => .run_bind get_orderly fun _ =>
    .run_ite (.run_bind (paramList_orderly _) fun _ => .run_pure _) (.run_pure _)

theorem typeBody_orderly (typeKeyword name : Token) {member : Production α}
    (hmember : Orderly member.run) : Orderly (typeBody typeKeyword name member).run :=
  .run_bind advance_orderly fun _ => .run_bind (members_orderly hmember) fun _ => .run_pure _

theorem nonemptyBody_orderly (what : String) (typeKeyword name : Token)
    {member : Production α} (hmember : Orderly member.run) :
    Orderly (nonemptyBody what typeKeyword name member).run :=
  .run_bind (typeBody_orderly _ _ hmember) fun _ =>
    .run_ite (fail_orderly _ _ _) (.run_pure _)

theorem typeDecl_consumes (hnested : nested.Orderly) : Consumes (typeDecl nested).run := by
  refine .run_bind (.run_lift advance_consumes) fun _ =>
    .run_bind (expectName_orderly _) fun _ => ?_
  refine covering_orderly _ (.run_bind get_orderly fun _ => ?_)
  split
  · exact .run_bind (typeBody_orderly _ _ (field_orderly hnested)) fun _ => .run_pure _
  · exact .run_bind (typeBody_orderly _ _ interfaceMember_orderly) fun _ => .run_pure _
  · exact .run_bind (nonemptyBody_orderly _ _ _ (expectName_orderly _)) fun _ => .run_pure _
  · exact .run_bind (nonemptyBody_orderly _ _ _ sumVariant_orderly) fun _ => .run_pure _
  · exact failExpected_orderly _ _

theorem valueDecl_consumes (hnested : nested.Orderly) (what : String) :
    Consumes (valueDecl nested what).run :=
  .run_bind (.run_lift advance_consumes) fun _ => .run_bind (expectName_orderly what) fun _ =>
    .run_bind (unlessAt_orderly _ (typeName_orderly _ _)) fun _ =>
      .run_bind (expect_orderly _ _) fun _ =>
        .run_bind (hnested.expr _) fun _ => .run_pure _

theorem simpleStmt_orderly (hnested : nested.Orderly) :
    Orderly (simpleStmt nested).run := by
  refine .run_bind (hnested.expr _) fun expr => ?_
  split
  · exact .run_throw _
  · refine .run_bind get_orderly fun _ => .run_ite ?_ (.run_ite ?_ (.run_ite ?_ ?_))
    · exact .run_bind advance_orderly fun _ =>
        .run_bind (hnested.expr _) fun _ => .run_pure _
    · exact .run_bind advance_orderly fun _ => .run_pure _
    · exact .run_pure _
    · exact fail_orderly _ _ _

theorem atReturnEnd_orderly : Orderly atReturnEnd := State.Follows.refl

theorem returnStmt_orderly (hnested : nested.Orderly) : Orderly (returnStmt nested) :=
  .bind advance_orderly fun _ => .bind atReturnEnd_orderly fun _ =>
    .ite (.pure _) (.bind (exprList_orderly hnested) fun _ => .pure _)

theorem branchStmt_orderly : Orderly branchStmt.run := by
  refine .run_bind advance_orderly fun _ => .run_bind State.Follows.refl fun _ => ?_
  refine .run_ite (fail_orderly _ _ _) (.run_bind get_orderly fun _ => ?_)
  refine .run_bind get_orderly fun _ => .run_ite (.run_pure _) ?_
  exact .run_bind get_orderly fun _ => fail_orderly _ _ _

theorem fallThroughStmt_orderly : Orderly fallThroughStmt.run := by
  refine .run_bind advance_orderly fun _ => .run_bind (accept?_orderly _) fun _ => ?_
  refine .run_bind get_orderly fun _ => .run_ite (.run_pure _) ?_
  exact .run_bind get_orderly fun _ => fail_orderly _ _ _

/-- A statement that read nothing is stepped over. -/
theorem steppingStmt_consumes (hnested : nested.Orderly) :
    Consumes (steppingStmt nested) where
  orderly := by
    refine .bind State.Follows.refl fun _ => .bind hnested.stmt fun _ => ?_
    refine .bind State.Follows.refl fun _ => .ite ?_ (.pure _)
    exact .bind moveNext_orderly fun _ => .pure _
  reads bound := by
    refine .of_each fun start hstart => .bind get_meets fun _ => .of_each fun _ hstate => ?_
    obtain ⟨rfl, rfl⟩ := hstate
    refine .bind (hnested.stmt.meets_follows _) fun stmt => .bind get_meets fun stop => ?_
    split
    · next hidle =>
        refine .bind ((moveNext_consumes.reads bound).strengthen ?_) fun _ =>
          .pure fun _ hstate => hstate
        intro state hstate
        rcases hstate with ⟨hfollows, rfl⟩
        obtain ⟨run, hrun⟩ := hfollows.reads
        rw [hrun.eq_of_position hidle]
        exact hstart
    · next hmoved =>
        apply Meets.pure
        intro state hstate
        rcases hstate with ⟨hfollows, rfl⟩
        refine Nat.lt_of_not_le fun hbound => hmoved ?_
        rw [hfollows.cursor_eq (Nat.le_trans hstart.1 hbound)]

theorem stmtPass_orderly (hnested : nested.Orderly) (stops : Kind → Bool)
    (found : List Stmt) : Orderly (stmtPass nested stops found) := by
  refine .bind get_orderly fun _ => .ite (.pure _) (.ite ?_ ?_)
  · exact .bind advance_orderly fun _ => .pure _
  · exact .bind (steppingStmt_consumes hnested).orderly fun _ => .pure _

theorem stmtList_orderly (hnested : nested.Orderly) (stops : Kind → Bool) :
    Orderly (stmtList nested stops) :=
  .bind (repeatStep_orderly (stmtPass_orderly hnested stops) _) fun _ => .pure _

theorem block_orderly (hnested : nested.Orderly) : Orderly (block nested).run :=
  .run_bind (expect_orderly _ _) fun _ =>
    .run_bind (.run_lift (stmtList_orderly hnested _)) fun _ =>
    .run_bind (covering_orderly _ (expect_orderly _ _)) fun _ => .run_pure _

theorem elseBranch_orderly (hnested : nested.Orderly) :
    Orderly (elseBranch nested).run := by
  refine .run_bind (accept?_orderly _) fun keyword => ?_
  cases keyword with
  | none => exact .run_pure _
  | some keyword =>
      refine .run_bind get_orderly fun _ => .run_ite ?_ (.run_ite ?_ ?_)
      · exact .run_bind hnested.ifElse fun _ => .run_pure _
      · exact .run_bind (block_orderly hnested) fun _ => .run_pure _
      · exact .run_bind get_orderly fun _ =>
          .run_bind get_orderly fun _ => fail_orderly _ _ _

theorem ifStmt_consumes (hnested : nested.Orderly) : Consumes (ifStmt nested).run := by
  refine .run_bind (.run_lift advance_consumes) fun _ => .run_bind get_orderly fun _ =>
    .run_ite ?_ ?_
  · exact .run_bind get_orderly fun _ =>
      .run_bind get_orderly fun _ => fail_orderly _ _ _
  · refine .run_bind (hnested.expr _) fun _ => .run_bind get_orderly fun _ => .run_ite ?_ ?_
    · exact .run_bind get_orderly fun _ => fail_orderly _ _ _
    · exact .run_bind (block_orderly hnested) fun _ =>
        .run_bind (elseBranch_orderly hnested) fun _ => .run_pure _

theorem ifStmt_orderly (hnested : nested.Orderly) : Orderly (ifStmt nested).run :=
  (ifStmt_consumes hnested).orderly

theorem loopBody_orderly (hnested : nested.Orderly) : Orderly (loopBody nested).run := by
  apply between_orderly (block_orderly hnested)
  intro start stop hstop
  exact ⟨hstop.reads, hstop.reports, hstop.nesting, by simp [hstop.loopDepth]⟩

theorem rangeValue_orderly (hnested : nested.Orderly) : Orderly (rangeValue nested) := by
  refine .bind (accept?_orderly _) fun comma => ?_
  cases comma with
  | some comma => exact .bind (hnested.expr _) fun _ => .pure _
  | none => exact .pure _

theorem rangeTargets_orderly (hnested : nested.Orderly) (keyword : Token) :
    Orderly (rangeTargets nested keyword).run := by
  refine .run_bind get_orderly fun _ => .run_ite (.run_pure _) ?_
  refine .run_bind (hnested.expr _) fun _ => .run_bind (rangeValue_orderly hnested) fun _ => ?_
  refine .run_bind get_orderly fun _ => .run_ite ?_ ?_
  · exact .run_bind advance_orderly fun _ => .run_pure _
  · exact .run_bind get_orderly fun _ =>
      .run_bind get_orderly fun _ => fail_orderly _ _ _

theorem rangeLoop_orderly (hnested : nested.Orderly) (keyword : Token) :
    Orderly (rangeLoop nested keyword).run :=
  .run_bind (rangeTargets_orderly hnested keyword) fun _ =>
    .run_bind (expect_orderly _ _) fun _ => .run_bind (hnested.expr _) fun _ =>
      .run_bind (loopBody_orderly hnested) fun _ => .run_pure _

theorem forClause_orderly (hnested : nested.Orderly) (clause : ForClause) :
    Orderly (forClause nested clause).run :=
  .run_bind (simpleStmt_orderly hnested) fun _ =>
    .run_ite (.run_pure _) (fail_orderly _ _ _)

theorem threeClauseLoop_orderly (hnested : nested.Orderly) (keyword : Token) :
    Orderly (threeClauseLoop nested keyword).run := by
  apply Orderly.run_bind (unlessAt_orderly _ (forClause_orderly hnested _))
  intro _
  apply Orderly.run_bind (expect_orderly _ _)
  intro _
  refine .run_bind (unlessAt_orderly _ (hnested.expr _)) fun _ => ?_
  apply Orderly.run_bind (expect_orderly _ _)
  intro _
  apply Orderly.run_bind (unlessAt_orderly _ (forClause_orderly hnested _))
  intro _
  exact .run_bind (loopBody_orderly hnested) fun _ => .run_pure _

theorem restOfLoop_orderly (hnested : nested.Orderly) (keyword : Token) :
    Orderly (restOfLoop nested keyword).run := by
  refine .run_bind get_orderly fun _ => .run_ite ?_ ?_
  · exact .run_bind (loopBody_orderly hnested) fun _ => .run_pure _
  · refine .run_bind get_orderly fun _ => .run_ite (rangeLoop_orderly hnested keyword) ?_
    refine .run_bind get_orderly fun _ => .run_ite (threeClauseLoop_orderly hnested keyword) ?_
    exact .run_bind (hnested.expr _) fun _ =>
      .run_bind (loopBody_orderly hnested) fun _ => .run_pure _

theorem loop_consumes (hnested : nested.Orderly) : Consumes (loop nested).run :=
  .run_bind (.run_lift advance_consumes) fun keyword =>
    covering_orderly _ (skipping_orderly _ (restOfLoop_orderly hnested keyword))

theorem loop_orderly (hnested : nested.Orderly) : Orderly (loop nested).run :=
  (loop_consumes hnested).orderly

theorem caseValues_orderly (hnested : nested.Orderly) (keyword : Token) :
    Orderly (caseValues nested keyword) :=
  .ite (exprList_orderly hnested) (.pure _)

theorem caseClause_consumes (hnested : nested.Orderly) :
    Consumes (caseClause nested).run :=
  .run_bind (.run_lift advance_consumes) fun keyword =>
    .run_bind (caseValues_orderly hnested keyword) fun _ =>
      .run_bind (expect_orderly _ _) fun _ =>
        .run_bind (.run_lift (stmtList_orderly hnested _)) fun _ => .run_pure _

theorem caseStmt_consumes (hnested : nested.Orderly) (found : List Stmt) :
    Consumes (caseStmt nested found) := by
  refine .after_get fun _ => .bind (caseClause_consumes hnested) fun outcome => ?_
  cases outcome with
  | ok clause => exact .ite (.bind (report_orderly _ _ _) fun _ => .pure _) (.pure _)
  | error bad =>
      exact .bind (skip_orderly _) fun _ => .bind (cover_orderly _ _) fun _ => .pure _

theorem strayCase_consumes : Consumes strayCase := by
  refine .after_get fun _ => .after_get fun _ => ?_
  refine .after (reportHere_orderly _) (fun _ => rfl) fun _ => .bind moveNext_consumes fun _ => ?_
  exact .bind (skip_orderly _) fun _ => .bind (cover_orderly _ _) fun _ => .pure _

theorem casePass_orderly (hnested : nested.Orderly) (found : List Stmt) :
    Orderly (casePass nested found) := by
  refine .bind get_orderly fun _ => .ite (.pure _) (.ite ?_ (.ite ?_ ?_))
  · exact .bind advance_orderly fun _ => .pure _
  · exact .bind (caseStmt_consumes hnested found).orderly fun _ => .pure _
  · exact .bind strayCase_consumes.orderly fun _ => .pure _

theorem caseList_orderly (hnested : nested.Orderly) : Orderly (caseList nested) :=
  .bind (repeatStep_orderly (casePass_orderly hnested) _) fun _ => .pure _

theorem switchInit_orderly (hnested : nested.Orderly) : Orderly (switchInit nested).run := by
  refine .run_bind get_orderly fun _ => .run_ite ?_ (.run_pure _)
  exact .run_bind (simpleStmt_orderly hnested) fun _ =>
    .run_bind (expect_orderly _ _) fun _ => .run_pure _

theorem restOfSwitch_orderly (hnested : nested.Orderly) (keyword : Token) :
    Orderly (restOfSwitch nested keyword).run :=
  .run_bind (switchInit_orderly hnested) fun _ =>
    .run_bind (unlessAt_orderly _ (hnested.expr _)) fun _ =>
      .run_bind (expect_orderly _ _) fun _ => .run_bind (caseList_orderly hnested) fun _ =>
        .run_bind (covering_orderly _ (expect_orderly _ _)) fun _ => .run_pure _

theorem switch_consumes (hnested : nested.Orderly) : Consumes (switch nested).run :=
  .run_bind (.run_lift advance_consumes) fun keyword =>
    covering_orderly _ (skipping_orderly _ (restOfSwitch_orderly hnested keyword))

theorem switch_orderly (hnested : nested.Orderly) : Orderly (switch nested).run :=
  (switch_consumes hnested).orderly

theorem stmtInside_orderly (hnested : nested.Orderly) : Orderly (stmtInside nested).run := by
  apply Orderly.run_bind get_orderly
  intro _
  split
  · exact .run_bind (valueDecl_consumes hnested _).orderly fun _ => .run_pure _
  · exact .run_bind (valueDecl_consumes hnested _).orderly fun _ => .run_pure _
  · exact returnStmt_orderly hnested
  · exact ifStmt_orderly hnested
  · exact loop_orderly hnested
  · exact switch_orderly hnested
  · exact branchStmt_orderly
  · exact branchStmt_orderly
  · exact fallThroughStmt_orderly
  · exact .run_bind (block_orderly hnested) fun _ => .run_pure _
  · refine .run_bind get_orderly fun _ => .run_ite ?_ (simpleStmt_orderly hnested)
    exact .run_bind (typeDecl_consumes hnested).orderly fun _ => .run_pure _
  · exact simpleStmt_orderly hnested

theorem exprOf_orderly {inside : Production Expr} (hinside : Orderly inside.run) :
    Orderly (exprOf inside) :=
  .bind get_orderly fun _ => recoverWith_orderly _ _ _ hinside

theorem stmtOf_orderly {inside : Production Stmt} (hinside : Orderly inside.run) :
    Orderly (stmtOf inside) :=
  .bind get_orderly fun _ => recoverWith_orderly _ _ _ hinside

theorem nested_orderly (levels : Nat) : (Grammar.nested levels).Orderly := by
  induction levels with
  | zero =>
      exact ⟨fun _ => exprOf_orderly failTooDeep_orderly,
        stmtOf_orderly failTooDeep_orderly, failTooDeep_orderly⟩
  | succ levels ih =>
      exact ⟨fun least => exprOf_orderly (descend_orderly (exprInside_orderly ih least)),
        stmtOf_orderly (descend_orderly (stmtInside_orderly ih)),
        descend_orderly (ifStmt_orderly ih)⟩

theorem outermost_orderly : outermost.Orderly := nested_orderly maxNesting

theorem funcBody_orderly : Orderly funcBody.run := by
  intro start
  have hblock := block_orderly outermost_orderly { start with loopDepth := 0 }
  exact ⟨hblock.reads, hblock.reports, hblock.nesting, rfl⟩

theorem funcDecl_consumes : Consumes funcDecl.run :=
  .run_bind (.run_lift advance_consumes) fun _ => .run_bind (expectName_orderly _) fun _ =>
    .run_bind (attempt_orderly (paramList_orderly _)) fun _ =>
      .run_bind (attempt_orderly results_orderly) fun _ =>
        .run_bind (attempt_orderly funcBody_orderly) fun _ =>
          .run_bind (covering_orderly _ (settle_orderly _)) fun _ =>
            .run_bind (settle_orderly _) fun _ =>
              .run_bind (settle_orderly _) fun _ => .run_pure _

theorem implementsDecl_consumes : Consumes implementsDecl.run :=
  .run_bind (.run_lift advance_consumes) fun _ => .run_bind advance_orderly fun _ =>
    .run_bind (qualifiedName_orderly _) fun _ => .run_pure _

theorem fileVariable_consumes : Consumes fileVariable.run :=
  .run_bind (valueDecl_consumes outermost_orderly _) fun _ =>
    .run_bind (.run_lift (report_orderly _ _ _)) fun _ => .run_pure _

theorem strayItem_consumes : Consumes (strayItem : Production α).run := by
  apply Consumes.run_after get_orderly (fun _ => rfl)
  intro _
  apply Consumes.run_after (reportHere_orderly _) (fun _ => rfl)
  intro _
  exact .run_bind (.run_lift moveNext_consumes) fun _ => .run_throw _

theorem item_consumes : Consumes item := by
  apply Consumes.after_get
  intro start
  dsimp only
  split
  case h_5 =>
    refine .after_get fun _ => .ite (recoverWith_consumes _ _ _ ?_)
      (recoverWith_consumes _ _ _ strayItem_consumes)
    exact .run_bind implementsDecl_consumes fun _ => .run_pure _
  all_goals refine recoverWith_consumes _ _ _ ?_
  · exact .run_bind (valueDecl_consumes outermost_orderly _) fun _ => .run_pure _
  · exact .run_bind fileVariable_consumes fun _ => .run_pure _
  · exact .run_bind funcDecl_consumes fun _ => .run_pure _
  · exact .run_bind (typeDecl_consumes outermost_orderly) fun _ => .run_pure _
  · exact strayItem_consumes

theorem packageClause_orderly : Orderly packageClause.run := by
  refine .run_bind get_orderly fun _ => .run_ite ?_ (failExpected_orderly _ _)
  exact .run_bind advance_orderly fun _ =>
    .run_bind (covering_orderly _ (expectName_orderly _)) fun _ => .run_pure _

theorem itemPass_orderly (found : List Item) : Orderly (itemPass outermost found) := by
  refine .bind get_orderly fun _ => .ite (.pure _) (.ite ?_ ?_)
  · exact .bind advance_orderly fun _ => .pure _
  · exact .bind item_consumes.orderly fun _ => .pure _

theorem items_orderly : Orderly items :=
  .bind (repeatStep_orderly itemPass_orderly _) fun _ => .pure _

theorem file_orderly : Orderly file := by
  apply Orderly.bind packageClause_orderly
  intro outcome
  cases outcome with
  | ok clause => exact .bind items_orderly fun _ => .pure _
  | error bad => exact .bind items_orderly fun _ => .pure _

/-- A pass that goes on behind a step that reads a token. -/
theorem Consumes.turns {step : Step α} (hstep : Consumes step)
    (outcome : α → ForInStep β) (bound : Nat) :
    Meets (fun state => state.cursor.remaining ≤ bound ∧ state.cursor.kind ≠ .eof)
      (do return outcome (← step))
      (Turns (fun _ state => state.cursor.remaining < bound) fun _ _ => True) :=
  .bind (hstep.reads bound) fun _ => .pure fun _ hstate => .of_lt hstate

/-- An entry of a comma list may read nothing, as an expression does at a closing
bracket.  The pass then reads a comma, or fails. -/
theorem commaPass_gains (noun : String) {entry : Production α} (hentry : Orderly entry.run) :
    GainsOrFails (commaPass noun entry) := by
  intro found bound
  refine .of_each fun start hstart => .bind (.lift currentKind_meets) fun kind => ?_
  apply Yields.of_each
  intro _ hkind
  obtain ⟨rfl, rfl⟩ := hkind
  split
  · exact .pure fun _ _ => trivial
  split
  · exact .bind (.lift .top) fun _ => .bind (.lift .top) fun _ => .throw fun _ _ => trivial
  next hopen _ =>
    refine .bind ((hentry.run_follows _).weaken (fun _ _ hstop => hstop) fun _ _ _ => trivial)
      fun value => .bind (.lift currentKind_meets) fun kind => ?_
    split
    · next hcomma =>
        refine .bind (.lift ((advance_consumes.reads bound).strengthen ?_)) fun _ => ?_
        · intro stop hstop
          rcases hstop with ⟨hstop, rfl⟩
          exact ⟨Nat.le_trans hstop.remaining_le hstart, by simp [hcomma]⟩
        apply Yields.bind (.lift currentKind_meets)
        intro _
        split
        · exact .bind (.lift .top) fun _ => .bind (.lift .top) fun _ =>
            .throw fun _ _ => trivial
        · exact .pure fun _ hstate => hstate.1
    split
    · next hclosing =>
        apply Yields.pure
        intro stop hstop
        rcases hstop with ⟨hfollows, rfl⟩
        refine Nat.lt_of_not_le fun hidle => hopen ?_
        rw [← hclosing, hfollows.cursor_eq (Nat.le_trans hstart hidle)]
    · exact .bind (.lift .top) fun _ => .bind (.lift .top) fun _ => .throw fun _ _ => trivial

theorem exprPass_gains (hnested : nested.Orderly) (least : Precedence) :
    Gains (exprPass nested least) := by
  intro left bound
  refine .bind currentKind_meets fun kind => .bind opensLine_meets fun line => ?_
  split
  · exact .pure fun _ _ => trivial
  next hmore =>
    have hkind : kind ≠ .eof := by
      intro hcase
      rcases hcase with rfl
      simp [Kind.precedence] at hmore
    split
    · refine .bind (((suffix_consumes hnested left).reads bound).strengthen ?_) fun outcome => ?_
      · intro state hstate
        rcases hstate with ⟨⟨hremaining, rfl⟩, -⟩
        exact ⟨hremaining, hkind⟩
      cases outcome with
      | ok expr => exact .pure fun _ hstate => hstate
      | error bad => exact .bind .top fun _ => .pure fun _ _ => trivial
    · apply ((binary_consumes hnested left _).turns .yield bound).strengthen
      intro state hstate
      rcases hstate with ⟨⟨hremaining, rfl⟩, -⟩
      exact ⟨hremaining, hkind⟩

theorem accept?_reads {kind : Kind} (hkind : kind ≠ .eof) (bound : Nat) :
    Meets (fun state => state.cursor.remaining ≤ bound) (accept? kind)
      fun token state => token.isSome → state.cursor.remaining < bound := by
  refine .bind currentKind_meets fun found => ?_
  split
  · refine .bind ((advance_consumes.reads bound).strengthen ?_) fun _ =>
      .pure fun _ hstate _ => hstate
    intro state hstate
    rcases hstate with ⟨hremaining, rfl⟩
    simp_all
  · exact .pure fun _ _ hsome => nomatch hsome

theorem exprListPass_gains (hnested : nested.Orderly) : Gains (exprListPass nested) := by
  intro found bound
  have hexpr : Meets (fun state => state.cursor.remaining ≤ bound) (nested.expr .lowest)
      fun _ state => state.cursor.remaining ≤ bound :=
    (hnested.expr _).keeps fun _ _ hfollows hstart => Nat.le_trans hfollows.remaining_le hstart
  refine .bind hexpr fun expr => .bind (accept?_reads (by decide) bound) fun comma => ?_
  cases comma with
  | some comma => exact .pure fun _ hstate => hstate rfl
  | none => exact .pure fun _ _ => trivial

theorem field_consumesOrFails (hnested : nested.Orderly) :
    ConsumesOrFails (field nested) := by
  refine (expectName_consumesOrFails _).bind fun _ => .run_bind (typeName_orderly _ _) fun _ =>
    .run_bind (accept?_orderly _) fun eq => ?_
  cases eq with
  | some eq => exact .run_bind (hnested.expr _) fun _ => .run_pure _
  | none => exact .run_pure _

theorem interfaceMember_consumesOrFails : ConsumesOrFails interfaceMember where
  orderly := interfaceMember_orderly
  reads bound := by
    refine .bind (.lift currentKind_meets) fun kind => .bind (.lift (kindAt_meets 1)) fun _ => ?_
    split
    · next hkind =>
        have hrest (name : Token) : Orderly (do
            let params ← paramList true
            return InterfaceMember.method ⟨name, params, ← results⟩ :
              Production InterfaceMember).run :=
          .run_bind (paramList_orderly _) fun _ => .run_bind results_orderly fun _ => .run_pure _
        refine .bind (.lift ((advance_consumes.reads bound).strengthen ?_)) fun name => ?_
        · intro state hstate
          rcases hstate with ⟨⟨hremaining, rfl⟩, -⟩
          exact ⟨hremaining, by simp_all⟩
        · refine ((hrest name).run_keeps fun _ _ hfollows hstart =>
            Nat.lt_of_le_of_lt hfollows.remaining_le hstart).weaken
              (fun _ _ hstate => hstate) fun _ _ _ => trivial
    · have hname : ConsumesOrFails (do
          return InterfaceMember.embed (← qualifiedName "interface name")) := by
        refine .bind ?_ fun _ => .run_pure _
        refine (expectName_consumesOrFails _).bind fun _ =>
          .run_bind (accept?_orderly _) fun dot => ?_
        cases dot with
        | some dot => exact .run_bind (expectName_orderly _) fun _ => .run_pure _
        | none => exact .run_pure _
      exact (hname.reads bound).strengthen fun _ hstate => hstate.1.1

theorem sumVariant_consumesOrFails : ConsumesOrFails sumVariant :=
  (expectName_consumesOrFails _).bind fun _ => .run_bind get_orderly fun _ =>
    .run_ite (.run_bind (paramList_orderly _) fun _ => .run_pure _) (.run_pure _)

theorem memberPass_gains {member : Production α} (hmember : ConsumesOrFails member) :
    GainsOrFails (memberPass member) := by
  intro found bound
  apply Yields.bind (.lift currentKind_meets)
  intro kind
  split
  · exact .pure fun _ _ => trivial
  split
  · exact .bind (.lift .top) fun _ => .bind (.lift .top) fun _ => .throw fun _ _ => trivial
  split
  · next hkind =>
      refine .lift ((advance_consumes.turns (fun _ => .yield found) bound).strengthen ?_)
      intro state hstate
      rcases hstate with ⟨hremaining, rfl⟩
      exact ⟨hremaining, by simp [hkind]⟩
  · refine .bind (Yields.strengthen ?_ fun _ hstate => hstate.1) fun item =>
      .pure fun _ hstate => hstate
    have hitem := hmember.bind fun item => .run_bind memberEnd_orderly fun _ => .run_pure item
    exact .onFailure (hitem.reads bound) fun _ => .top

theorem stmtPass_gains (hnested : nested.Orderly) (stops : Kind → Bool) :
    Gains (stmtPass nested stops) := by
  intro found bound
  refine .bind currentKind_meets fun kind => ?_
  split
  · exact .pure fun _ _ => trivial
  next hmore =>
    have hkind : ∀ state : State, state.cursor.remaining ≤ bound ∧ kind = state.cursor.kind →
        state.cursor.remaining ≤ bound ∧ state.cursor.kind ≠ .eof := by
      intro state hstate
      rcases hstate with ⟨hremaining, rfl⟩
      exact ⟨hremaining, by simp_all⟩
    split
    · exact (advance_consumes.turns (fun _ => .yield found) bound).strengthen hkind
    · exact ((steppingStmt_consumes hnested).turns (fun stmt => .yield (stmt :: found))
        bound).strengthen hkind

theorem casePass_gains (hnested : nested.Orderly) : Gains (casePass nested) := by
  intro found bound
  refine .bind currentKind_meets fun kind => ?_
  split
  · exact .pure fun _ _ => trivial
  next hmore =>
    have hkind : ∀ state : State, state.cursor.remaining ≤ bound ∧ kind = state.cursor.kind →
        state.cursor.remaining ≤ bound ∧ state.cursor.kind ≠ .eof := by
      intro state hstate
      rcases hstate with ⟨hremaining, rfl⟩
      exact ⟨hremaining, by simp_all⟩
    split
    · exact (advance_consumes.turns (fun _ => .yield found) bound).strengthen hkind
    split
    · exact ((caseStmt_consumes hnested found).turns (fun stmt => .yield (stmt :: found))
        bound).strengthen hkind
    · exact (strayCase_consumes.turns (fun stmt => .yield (stmt :: found))
        bound).strengthen hkind

theorem itemPass_gains : Gains itemPass := by
  intro found bound
  refine .bind currentKind_meets fun kind => ?_
  split
  · exact .pure fun _ _ => trivial
  next hmore =>
    have hkind : ∀ state : State, state.cursor.remaining ≤ bound ∧ kind = state.cursor.kind →
        state.cursor.remaining ≤ bound ∧ state.cursor.kind ≠ .eof := by
      intro state hstate
      rcases hstate with ⟨hremaining, rfl⟩
      exact ⟨hremaining, hmore⟩
    split
    · exact (advance_consumes.turns (fun _ => .yield found) bound).strengthen hkind
    · exact (item_consumes.turns (fun item => .yield (item :: found)) bound).strengthen hkind

end OriSyntax.Grammar
