import Mathlib.Logic.Function.Iterate
import OriSyntax.Proofs.Outcomes
import OriSyntax.Proofs.Progress

/-!
Productions over two kinds of levels.  If the productions inside do the same wherever they
may be called, then so do those around them; nothing else about the levels matters.  Where
productions are called is told by a context: a property of the state that reading and
reporting do not change.
-/

namespace OriSyntax.Grammar

variable {α β : Type} {nested other : Nested}

/-- A property of states that lasts while the state moves forward. -/
structure Context where
  holds : State → Prop
  lasts : ∀ {start stop : State}, start.Follows stop → holds start → holds stop

/-- The second step does what the first one does, wherever the context holds. -/
structure Agrees (context : Context) (first second : Step α) : Prop where
  orderly : Orderly first
  run_eq : ∀ state, context.holds state → second.run state = first.run state

/-- All productions of two levels agree. -/
structure Nested.Agrees (context : Context) (nested other : Nested) : Prop where
  expr : ∀ least, Grammar.Agrees context (nested.expr least) (other.expr least)
  stmt : Grammar.Agrees context nested.stmt other.stmt
  ifElse : Grammar.Agrees context nested.ifElse.run other.ifElse.run

namespace Agrees

variable {context : Context}

section Steps

variable {first second : Step α} {next last : α → Step β}

theorem mono {narrow : Context} (hagrees : Agrees context first second)
    (hnarrow : ∀ state, narrow.holds state → context.holds state) : Agrees narrow first second :=
  ⟨hagrees.orderly, fun state hstate => hagrees.run_eq state (hnarrow state hstate)⟩

theorem same (horderly : Orderly first) : Agrees context first first :=
  ⟨horderly, fun _ _ => rfl⟩

protected theorem pure (value : α) : Agrees context (pure value) (pure value) :=
  same (.pure value)

protected theorem bind (hfirst : Agrees context first second)
    (hnext : ∀ value, Agrees context (next value) (last value)) :
    Agrees context (first >>= next) (second >>= last) where
  orderly := hfirst.orderly.bind fun value => (hnext value).orderly
  run_eq state hstate := by
    have hmiddle := context.lasts (hfirst.orderly state) hstate
    rw [StateT.run_bind, StateT.run_bind, hfirst.run_eq state hstate]
    exact (hnext _).run_eq _ hmiddle

/-- What comes first may be the same on both sides. -/
theorem past (horderly : Orderly first)
    (hnext : ∀ value, Agrees context (next value) (last value)) :
    Agrees context (first >>= next) (first >>= last) :=
  .bind (same horderly) hnext

protected theorem ite {condition : Prop} [Decidable condition] {third fourth : Step α}
    (hfirst : Agrees context first second) (hthird : Agrees context third fourth) :
    Agrees context (if condition then first else third)
      (if condition then second else fourth) := by
  split
  · exact hfirst
  · exact hthird

theorem repeatStep {pass turn : β → Step (ForInStep β)}
    (hpass : ∀ found, Agrees context (pass found) (turn found)) (found : β) :
    Agrees context (repeatStep pass found) (repeatStep turn found) := by
  suffices hpasses : ∀ bound found, Agrees context (passes pass bound found)
      (passes turn bound found) from past get_orderly fun bound => hpasses bound found
  intro bound
  induction bound with
  | zero => exact fun found => .pure found
  | succ bound ih =>
      intro found
      apply Agrees.bind (hpass found)
      intro outcome
      cases outcome with
      | yield found => exact ih found
      | done result => exact .pure result

end Steps

section Productions

variable {first second : Production α} {next last : α → Production β}

theorem run_bind (hfirst : Agrees context first.run second.run)
    (hnext : ∀ value, Agrees context (next value).run (last value).run) :
    Agrees context (first >>= next).run (second >>= last).run := by
  rw [ExceptT.run_bind, ExceptT.run_bind]
  apply Agrees.bind hfirst
  intro outcome
  cases outcome with
  | ok value => exact hnext value
  | error bad => exact .pure _

/-- What comes first may be the same on both sides. -/
theorem run_past (horderly : Orderly first.run)
    (hnext : ∀ value, Agrees context (next value).run (last value).run) :
    Agrees context (first >>= next).run (first >>= last).run :=
  run_bind (same horderly) hnext

/-- A step inside a production. -/
theorem run_lift {first second : Step α} (hfirst : Agrees context first second) :
    Agrees context (liftM first : Production α).run (liftM second : Production α).run where
  orderly := .run_lift hfirst.orderly
  run_eq state hstate := by
    change ((.ok (second.run state).1 : Except BadNode α), (second.run state).2) =
      (.ok (first.run state).1, (first.run state).2)
    rw [hfirst.run_eq state hstate]

theorem run_ite {condition : Prop} [Decidable condition] {third fourth : Production α}
    (hfirst : Agrees context first.run second.run)
    (hthird : Agrees context third.run fourth.run) :
    Agrees context (if condition then first else third).run
      (if condition then second else fourth).run := by
  split
  · exact hfirst
  · exact hthird

theorem run_pure (value : α) :
    Agrees context (pure value : Production α).run (pure value : Production α).run :=
  same (.run_pure value)

theorem onFailure {repair : BadNode → Step BadNode} (hrepair : ∀ bad, Orderly (repair bad))
    (hfirst : Agrees context first.run second.run) :
    Agrees context (onFailure first repair).run (onFailure second repair).run := by
  apply Agrees.bind hfirst
  intro outcome
  cases outcome with
  | ok value => exact .pure _
  | error bad => exact past (hrepair bad) fun _ => .pure _

theorem covering (start : Token) (hfirst : Agrees context first.run second.run) :
    Agrees context (covering start first).run (covering start second).run :=
  hfirst.onFailure fun bad => cover_orderly start bad

theorem skipping (rule : Skip.Rule) (hfirst : Agrees context first.run second.run) :
    Agrees context (skipping rule first).run (skipping rule second).run :=
  hfirst.onFailure fun _ => .bind (skip_orderly rule) fun _ => .pure _

theorem recoverWith (rule : Skip.Rule) (start : Token) (ofBad : BadNode → α)
    (hfirst : Agrees context first.run second.run) :
    Agrees context (recoverWith rule start ofBad first) (recoverWith rule start ofBad second) := by
  apply Agrees.bind hfirst
  intro outcome
  cases outcome with
  | ok value => exact .pure _
  | error bad => exact past (skip_orderly rule) fun _ => past (cover_orderly _ _) fun _ => .pure _

theorem unlessAt (kind : Kind) (hfirst : Agrees context first.run second.run) :
    Agrees context (unlessAt kind first).run (unlessAt kind second).run :=
  run_past get_orderly fun _ => run_ite (run_pure _) (run_bind hfirst fun _ => run_pure _)

theorem repeatProduction {pass turn : β → Production (ForInStep β)}
    (hpass : ∀ found, Agrees context (pass found).run (turn found).run) (found : β) :
    Agrees context (repeatProduction pass found).run (repeatProduction turn found).run := by
  suffices hpasses : ∀ bound found, Agrees context (passes pass bound found).run
      (passes turn bound found).run from run_past get_orderly fun bound => hpasses bound found
  intro bound
  induction bound with
  | zero => exact fun found => run_pure found
  | succ bound ih =>
      intro found
      apply run_bind (hpass found)
      intro outcome
      cases outcome with
      | yield found => exact ih found
      | done result => exact run_pure result

/-- Inside two changes of the state another context may hold. -/
theorem between {inside : Context} {enter leave : State → State}
    (hfirst : Agrees inside first.run second.run)
    (henter : ∀ state, context.holds state → inside.holds (enter state))
    (hleave : ∀ start stop, (enter start).Follows stop → start.Follows (leave stop)) :
    Agrees context (between enter leave first).run (between enter leave second).run where
  orderly := between_orderly hfirst.orderly hleave
  run_eq state hstate := by
    change ((second.run.run (enter state)).1, leave (second.run.run (enter state)).2) =
      ((first.run.run (enter state)).1, leave (first.run.run (enter state)).2)
    rw [hfirst.run_eq _ (henter state hstate)]

end Productions

end Agrees

section Lists

variable {context : Context} {entry same : Production α}
  (hentry : Agrees context entry.run same.run)
include hentry

theorem commaPass_agrees (noun : String) (found : List α) :
    Agrees context (commaPass noun entry found).run (commaPass noun same found).run := by
  refine .run_past get_orderly fun _ => .run_ite (.run_pure _) ?_
  refine .run_ite (.same (failExpected_orderly _ _)) (.run_bind hentry fun _ => .same ?_)
  refine .run_bind get_orderly fun _ => .run_ite ?_ ?_
  · exact .run_bind advance_orderly fun _ => .run_bind get_orderly fun _ =>
      .run_ite (failList_orderly _) (.run_pure _)
  · exact .run_ite (.run_pure _) (failList_orderly _)

theorem restOfList_agrees (noun : String) (opening : Token) :
    Agrees context (restOfList noun opening entry).run (restOfList noun opening same).run := by
  have hlist : Agrees context (commaList noun entry).run (commaList noun same).run :=
    .run_past get_orderly fun _ => .run_ite (.same (failList_orderly _))
      (.run_bind (.repeatProduction (commaPass_agrees hentry noun) _) fun _ => .run_pure _)
  exact .run_bind (hlist.skipping _) fun _ =>
    .run_past advance_orderly fun _ => .run_pure _

theorem typeBody_agrees (typeKeyword name : Token) :
    Agrees context (typeBody typeKeyword name entry).run
      (typeBody typeKeyword name same).run := by
  have hpass (found : List α) :
      Agrees context (memberPass entry found).run (memberPass same found).run := by
    refine .run_past get_orderly fun _ => .run_ite (.run_pure _) ?_
    refine .run_ite (.same (failExpected_orderly _ _)) (.run_ite ?_ ?_)
    · exact .run_past advance_orderly fun _ => .run_pure _
    · refine .run_bind (.skipping _ (.run_bind hentry fun _ => ?_)) fun _ => .run_pure _
      exact .run_past memberEnd_orderly fun _ => .run_pure _
  have hmembers : Agrees context (members entry).run (members same).run :=
    .run_past (expect_orderly _ _) fun _ => .run_bind (.repeatProduction hpass _) fun _ =>
      .run_past advance_orderly fun _ => .run_pure _
  exact .run_past advance_orderly fun _ => .run_bind hmembers fun _ => .run_pure _

end Lists

section Levels

variable {context : Context} (hnested : nested.Agrees context other)
include hnested

theorem parenthesized_agrees :
    Agrees context (parenthesized nested).run (parenthesized other).run := by
  refine .run_past advance_orderly fun _ => .run_past get_orderly fun _ => .run_ite ?_ ?_
  · exact .same (.run_bind get_orderly fun _ =>
      .run_bind advance_orderly fun _ => fail_orderly _ _ _)
  · exact .run_bind (.run_lift (hnested.expr _)) fun _ =>
      .run_past (covering_orderly _ (expect_orderly _ _)) fun _ => .run_pure _

theorem operand_agrees : Agrees context (operand nested).run (operand other).run := by
  refine .run_past get_orderly fun kind => ?_
  split
  case h_6 => exact parenthesized_agrees hnested
  case h_7 | h_8 =>
    exact .run_past advance_orderly fun _ =>
      .run_bind (.run_lift (hnested.expr _)) fun _ => .run_pure _
  case h_9 =>
    refine .same (.run_bind get_orderly fun _ => .run_bind (reportHere_orderly _) fun _ => ?_)
    exact .run_bind skipUnexpected_orderly fun _ => .run_throw _
  all_goals exact .same (.run_bind advance_orderly fun _ => .run_pure _)

theorem binary_agrees (left : Expr) (level : Precedence) :
    Agrees context (binary nested left level) (binary other left level) := by
  refine .past advance_orderly fun _ => .bind (hnested.expr _) fun _ => .same (.ite ?_ (.pure _))
  exact .bind (report_orderly _ _ _) fun _ => .pure _

theorem suffix_agrees (base : Expr) :
    Agrees context (suffix nested base).run (suffix other base).run := by
  refine .run_past advance_orderly fun opening => .run_ite ?_ (.run_ite ?_ ?_)
  · exact .same (.run_bind (expectName_orderly _) fun _ => .run_pure _)
  · exact .run_bind (.run_lift (hnested.expr _)) fun _ =>
      .run_past (expect_orderly _ _) fun _ => .run_pure _
  · exact .run_bind (restOfList_agrees (.run_lift (hnested.expr _)) _ opening)
      fun _ => .run_pure _

theorem exprPass_agrees (least : Precedence) (left : Expr) :
    Agrees context (exprPass nested least left) (exprPass other least left) := by
  refine .past get_orderly fun _ => .past get_orderly fun _ => .ite (.pure _) (.ite ?_ ?_)
  · apply Agrees.bind (suffix_agrees hnested left)
    intro outcome
    cases outcome with
    | ok expr => exact .pure _
    | error bad => exact .past (cover_orderly _ _) fun _ => .pure _
  · exact .bind (binary_agrees hnested left _) fun _ => .pure _

theorem exprInside_agrees (least : Precedence) :
    Agrees context (exprInside nested least) (exprInside other least) := by
  apply Agrees.bind (operand_agrees hnested)
  intro outcome
  cases outcome with
  | ok left => exact .repeatStep (exprPass_agrees hnested least) left
  | error bad => exact .pure _

theorem exprList_agrees : Agrees context (exprList nested) (exprList other) := by
  refine .bind (.repeatStep (fun found => ?_) _) fun _ => .pure _
  refine .bind (hnested.expr _) fun _ => .past (accept?_orderly _) fun comma => ?_
  cases comma <;> exact .pure _

theorem typeDecl_agrees : Agrees context (typeDecl nested).run (typeDecl other).run := by
  have hfield : Agrees context (field nested).run (field other).run := by
    refine .run_past (expectName_orderly _) fun _ => .run_past (typeName_orderly _ _) fun _ => ?_
    refine .run_past (accept?_orderly _) fun eq => ?_
    cases eq with
    | some eq => exact .run_bind (.run_lift (hnested.expr _)) fun _ => .run_pure _
    | none => exact .run_pure _
  refine .run_past advance_orderly fun _ => .run_past (expectName_orderly _) fun _ => ?_
  refine .covering _ (.run_past get_orderly fun _ => ?_)
  split
  · exact .run_bind (typeBody_agrees hfield _ _) fun _ => .run_pure _
  · exact .same (.run_bind (typeBody_orderly _ _ interfaceMember_orderly) fun _ => .run_pure _)
  · exact .same (.run_bind (nonemptyBody_orderly _ _ _ (expectName_orderly _)) fun _ =>
      .run_pure _)
  · exact .same (.run_bind (nonemptyBody_orderly _ _ _ sumVariant_orderly) fun _ => .run_pure _)
  · exact .same (failExpected_orderly _ _)

theorem valueDecl_agrees (what : String) :
    Agrees context (valueDecl nested what).run (valueDecl other what).run :=
  .run_past advance_orderly fun _ => .run_past (expectName_orderly what) fun _ =>
    .run_past (unlessAt_orderly _ (typeName_orderly _ _)) fun _ =>
      .run_past (expect_orderly _ _) fun _ =>
        .run_bind (.run_lift (hnested.expr _)) fun _ => .run_pure _

theorem simpleStmt_agrees : Agrees context (simpleStmt nested).run (simpleStmt other).run := by
  refine .run_bind (.run_lift (hnested.expr _)) fun expr => ?_
  split
  · exact .same (.run_throw _)
  · refine .run_past get_orderly fun _ => .run_ite ?_ (.same (.run_ite ?_ (.run_ite ?_ ?_)))
    · exact .run_past advance_orderly fun _ =>
        .run_bind (.run_lift (hnested.expr _)) fun _ => .run_pure _
    · exact .run_bind advance_orderly fun _ => .run_pure _
    · exact .run_pure _
    · exact fail_orderly _ _ _

theorem returnStmt_agrees : Agrees context (returnStmt nested) (returnStmt other) :=
  .past advance_orderly fun _ => .past atReturnEnd_orderly fun _ =>
    .ite (.pure _) (.bind (exprList_agrees hnested) fun _ => .pure _)

theorem steppingStmt_agrees : Agrees context (steppingStmt nested) (steppingStmt other) :=
  .past get_orderly fun _ => .bind hnested.stmt fun _ => .same (.bind get_orderly fun _ =>
    .ite (.bind moveNext_orderly fun _ => .pure _) (.pure _))

theorem stmtList_agrees (stops : Kind → Bool) :
    Agrees context (stmtList nested stops) (stmtList other stops) := by
  refine .bind (.repeatStep (fun found => ?_) _) fun _ => .pure _
  refine .past get_orderly fun _ => .ite (.pure _) (.ite ?_ ?_)
  · exact .past advance_orderly fun _ => .pure _
  · exact .bind (steppingStmt_agrees hnested) fun _ => .pure _

theorem block_agrees : Agrees context (block nested).run (block other).run :=
  .run_past (expect_orderly _ _) fun _ =>
    .run_bind (.run_lift (stmtList_agrees hnested _)) fun _ =>
      .run_past (covering_orderly _ (expect_orderly _ _)) fun _ => .run_pure _

theorem elseBranch_agrees : Agrees context (elseBranch nested).run (elseBranch other).run := by
  refine .run_past (accept?_orderly _) fun keyword => ?_
  cases keyword with
  | none => exact .run_pure _
  | some keyword =>
      refine .run_past get_orderly fun _ => .run_ite ?_ (.run_ite ?_ (.same ?_))
      · exact .run_bind hnested.ifElse fun _ => .run_pure _
      · exact .run_bind (block_agrees hnested) fun _ => .run_pure _
      · exact .run_bind get_orderly fun _ => .run_bind get_orderly fun _ => fail_orderly _ _ _

theorem ifStmt_agrees : Agrees context (ifStmt nested).run (ifStmt other).run := by
  refine .run_past advance_orderly fun _ => .run_past get_orderly fun _ => .run_ite (.same ?_) ?_
  · exact .run_bind get_orderly fun _ => .run_bind get_orderly fun _ => fail_orderly _ _ _
  · refine .run_bind (.run_lift (hnested.expr _)) fun _ => .run_past get_orderly fun _ => ?_
    refine .run_ite (.same (.run_bind get_orderly fun _ => fail_orderly _ _ _)) ?_
    exact .run_bind (block_agrees hnested) fun _ =>
      .run_bind (elseBranch_agrees hnested) fun _ => .run_pure _

theorem rangeTargets_agrees (keyword : Token) :
    Agrees context (rangeTargets nested keyword).run (rangeTargets other keyword).run := by
  have hvalue : Agrees context (rangeValue nested) (rangeValue other) := by
    refine .past (accept?_orderly _) fun comma => ?_
    cases comma with
    | some comma => exact .bind (hnested.expr _) fun _ => .pure _
    | none => exact .pure _
  refine .run_past get_orderly fun _ => .run_ite (.run_pure _) ?_
  refine .run_bind (.run_lift (hnested.expr _)) fun _ => .run_bind (.run_lift hvalue) fun _ => ?_
  refine .same (.run_bind get_orderly fun _ => .run_ite ?_ ?_)
  · exact .run_bind advance_orderly fun _ => .run_pure _
  · exact .run_bind get_orderly fun _ => .run_bind get_orderly fun _ => fail_orderly _ _ _

theorem forClause_agrees (clause : ForClause) :
    Agrees context (forClause nested clause).run (forClause other clause).run :=
  .run_bind (simpleStmt_agrees hnested) fun _ => .same (.run_ite (.run_pure _) (fail_orderly _ _ _))

theorem caseClause_agrees : Agrees context (caseClause nested).run (caseClause other).run :=
  .run_past advance_orderly fun _ =>
    .run_bind (.run_lift (.ite (exprList_agrees hnested) (.pure _))) fun _ =>
      .run_past (expect_orderly _ _) fun _ =>
        .run_bind (.run_lift (stmtList_agrees hnested _)) fun _ => .run_pure _

theorem caseList_agrees : Agrees context (caseList nested) (caseList other) := by
  have hstmt (found : List Stmt) :
      Agrees context (caseStmt nested found) (caseStmt other found) := by
    refine .past get_orderly fun _ => .bind (caseClause_agrees hnested) fun outcome => .same ?_
    cases outcome with
    | ok clause => exact .ite (.bind (report_orderly _ _ _) fun _ => .pure _) (.pure _)
    | error bad =>
        exact .bind (skip_orderly _) fun _ => .bind (cover_orderly _ _) fun _ => .pure _
  refine .bind (.repeatStep (fun found => ?_) _) fun _ => .pure _
  refine .past get_orderly fun _ => .ite (.pure _) (.ite ?_ (.ite ?_ ?_))
  · exact .past advance_orderly fun _ => .pure _
  · exact .bind (hstmt found) fun _ => .pure _
  · exact .past strayCase_consumes.orderly fun _ => .pure _

theorem switch_agrees : Agrees context (switch nested).run (switch other).run := by
  have hfirst : Agrees context (switchInit nested).run (switchInit other).run :=
    .run_past get_orderly fun _ => .run_ite (.run_bind (simpleStmt_agrees hnested) fun _ =>
      .run_past (expect_orderly _ _) fun _ => .run_pure _) (.run_pure _)
  refine .run_past advance_orderly fun _ => .covering _ (.skipping _ ?_)
  refine .run_bind hfirst fun _ => .run_bind (.unlessAt _ (.run_lift (hnested.expr _))) fun _ => ?_
  refine .run_past (expect_orderly _ _) fun _ =>
    .run_bind (.run_lift (caseList_agrees hnested)) fun _ => ?_
  exact .run_past (covering_orderly _ (expect_orderly _ _)) fun _ => .run_pure _

end Levels

theorem Nested.Agrees.mono {context narrow : Context} (hnested : nested.Agrees context other)
    (hnarrow : ∀ state, narrow.holds state → context.holds state) :
    nested.Agrees narrow other :=
  ⟨fun least => (hnested.expr least).mono hnarrow, hnested.stmt.mono hnarrow,
    hnested.ifElse.mono hnarrow⟩

section Loops

/-! A statement is read in a narrower context than what is inside it, since the body of a
loop is inside one loop more. -/

variable {context narrow : Context} (hnested : nested.Agrees context other)
  (hnarrow : ∀ state, narrow.holds state → context.holds state)
  (hbody : ∀ state, narrow.holds state →
    context.holds { state with loopDepth := state.loopDepth + 1 })
include hnested hbody

theorem loopBody_agrees : Agrees narrow (loopBody nested).run (loopBody other).run := by
  apply (block_agrees hnested).between hbody
  intro start stop hstop
  exact ⟨hstop.reads, hstop.reports, hstop.nesting, by simp [hstop.loopDepth]⟩

include hnarrow

theorem loop_agrees : Agrees narrow (loop nested).run (loop other).run := by
  have hloopBody := loopBody_agrees hnested hbody
  replace hnested := hnested.mono hnarrow
  refine .run_past advance_orderly fun keyword => .covering _ (.skipping _ ?_)
  refine .run_past get_orderly fun _ => .run_ite (.run_bind hloopBody fun _ => .run_pure _) ?_
  refine .run_past get_orderly fun _ => .run_ite ?_ (.run_past get_orderly fun _ => .run_ite ?_ ?_)
  · exact .run_bind (rangeTargets_agrees hnested keyword) fun _ =>
      .run_past (expect_orderly _ _) fun _ => .run_bind (.run_lift (hnested.expr _)) fun _ =>
        .run_bind hloopBody fun _ => .run_pure _
  · refine .run_bind (.unlessAt _ (forClause_agrees hnested _)) fun _ => ?_
    refine .run_past (expect_orderly _ _) fun _ => ?_
    refine .run_bind (.unlessAt _ (.run_lift (hnested.expr _))) fun _ => ?_
    refine .run_past (expect_orderly _ _) fun _ => ?_
    refine .run_bind (.unlessAt _ (forClause_agrees hnested _)) fun _ => ?_
    exact .run_bind hloopBody fun _ => .run_pure _
  · exact .run_bind (.run_lift (hnested.expr _)) fun _ => .run_bind hloopBody fun _ => .run_pure _

theorem stmtInside_agrees : Agrees narrow (stmtInside nested).run (stmtInside other).run := by
  have hloop := loop_agrees hnested hnarrow hbody
  replace hnested := hnested.mono hnarrow
  refine .run_past get_orderly fun kind => ?_
  split
  · exact .run_bind (valueDecl_agrees hnested _) fun _ => .run_pure _
  · exact .run_bind (valueDecl_agrees hnested _) fun _ => .run_pure _
  · exact .run_lift (returnStmt_agrees hnested)
  · exact ifStmt_agrees hnested
  · exact hloop
  · exact switch_agrees hnested
  · exact .same branchStmt_orderly
  · exact .same branchStmt_orderly
  · exact .same fallThroughStmt_orderly
  · exact .run_bind (block_agrees hnested) fun _ => .run_pure _
  · refine .run_past get_orderly fun _ => .run_ite ?_ (simpleStmt_agrees hnested)
    exact .run_bind (typeDecl_agrees hnested) fun _ => .run_pure _
  · exact simpleStmt_agrees hnested

end Loops

theorem descend_of_room {production : Production α} {state : State}
    (hroom : state.nesting < maxNesting) :
    (descend production).run.run state =
      let (outcome, stop) := production.run.run state.deeper
      (outcome, { stop with nesting := stop.nesting - 1 }) := by
  change ExceptT.run (if state.nesting ≥ maxNesting then failTooDeep else _) state = _
  rw [if_neg (Nat.not_le.2 hroom)]
  rfl

/-- At the limit a production is not run at all. -/
theorem descend_of_limit {production : Production α} {state : State}
    (hlimit : maxNesting ≤ state.nesting) :
    (descend production).run.run state = (failTooDeep : Production α).run.run state := by
  change ExceptT.run (if state.nesting ≥ maxNesting then failTooDeep else _) state = _
  rw [if_pos hlimit]
  rfl

/-- One level deeper, if there is room for it, another context may hold. -/
theorem descend_agrees {context inside : Context} {first second : Production α}
    (hfirst : Agrees inside first.run second.run)
    (henter : ∀ state, context.holds state → inside.holds state.deeper) :
    Agrees context (descend first).run (descend second).run where
  orderly := descend_orderly hfirst.orderly
  run_eq state hstate := by
    by_cases hroom : state.nesting < maxNesting
    · rw [descend_of_room hroom, descend_of_room hroom, hfirst.run_eq _ (henter state hstate)]
    · rw [descend_of_limit (Nat.not_lt.1 hroom), descend_of_limit (Nat.not_lt.1 hroom)]

/-- Where the productions of a level are called that has `depth` levels around it.  Each of
these may be the body of a loop. -/
def Context.calling (depth : Nat) : Context where
  holds state := state.nesting = depth ∧ state.loopDepth ≤ depth
  lasts hfollows hstate := by rwa [hfollows.nesting, hfollows.loopDepth]

/-- Where such a production is run, apart from the bodies of its loops. -/
def Context.running (depth : Nat) : Context where
  holds state := state.nesting = depth + 1 ∧ state.loopDepth ≤ depth
  lasts hfollows hstate := by rwa [hfollows.nesting, hfollows.loopDepth]

theorem Context.running_of_calling {depth : Nat} (state : State)
    (hstate : (calling depth).holds state) :
    (running depth).holds state.deeper :=
  ⟨congrArg (· + 1) hstate.1, hstate.2⟩

theorem Context.calling_of_running {depth : Nat} (state : State)
    (hstate : (running depth).holds state) : (calling (depth + 1)).holds state :=
  ⟨hstate.1, Nat.le_succ_of_le hstate.2⟩

theorem Context.calling_of_loop {depth : Nat} (state : State)
    (hstate : (running depth).holds state) :
    (calling (depth + 1)).holds { state with loopDepth := state.loopDepth + 1 } :=
  ⟨hstate.1, Nat.succ_le_succ hstate.2⟩

/-- What the productions of a level do once they are one level deeper. -/
structure Interior where
  expr : Precedence → Step Expr
  stmt : Production Stmt
  ifElse : Production Stmt

/-- What the productions around those of the level `nested` do one level deeper. -/
def Nested.interior (nested : Nested) : Interior where
  expr := exprInside nested
  stmt := stmtInside nested
  ifElse := ifStmt nested

/-- The productions that go one level deeper and do that there. -/
def Interior.entered (interior : Interior) : Nested where
  expr least := exprOf (descend (interior.expr least))
  stmt := stmtOf (descend interior.stmt)
  ifElse := descend interior.ifElse

theorem Nested.entered_interior (nested : Nested) : nested.interior.entered = nested.around := rfl

/-- What two levels do one level deeper agrees. -/
structure Interior.Agrees (context : Context) (interior other : Interior) : Prop where
  expr : ∀ least, Grammar.Agrees context (interior.expr least) (other.expr least)
  stmt : Grammar.Agrees context interior.stmt.run other.stmt.run
  ifElse : Grammar.Agrees context interior.ifElse.run other.ifElse.run

/-- What is inside a level is called one level deeper, and nowhere else. -/
theorem interior_agrees {depth : Nat} (hnested : nested.Agrees (.calling (depth + 1)) other) :
    nested.interior.Agrees (.running depth) other.interior := by
  have hrunning := hnested.mono Context.calling_of_running
  exact {
    expr := exprInside_agrees hrunning
    stmt := stmtInside_agrees hnested Context.calling_of_running Context.calling_of_loop
    ifElse := ifStmt_agrees hrunning }

/-- What a level does is done one level deeper than the level is called, and nowhere else. -/
theorem entered_agrees {depth : Nat} {interior other : Interior}
    (hinterior : interior.Agrees (.running depth) other) :
    interior.entered.Agrees (.calling depth) other.entered := by
  constructor
  · intro least
    refine .past get_orderly fun _ => .recoverWith _ _ _ ?_
    exact descend_agrees (.run_lift (hinterior.expr least)) Context.running_of_calling
  · refine .past get_orderly fun _ => .recoverWith _ _ _ ?_
    exact descend_agrees hinterior.stmt Context.running_of_calling
  · exact descend_agrees hinterior.ifElse Context.running_of_calling

/-- A level is called by the level around it one level deeper, and nowhere else. -/
theorem around_agrees {depth : Nat} (hnested : nested.Agrees (.calling (depth + 1)) other) :
    nested.around.Agrees (.calling depth) other.around := by
  rw [← nested.entered_interior, ← other.entered_interior]
  exact entered_agrees (interior_agrees hnested)

/-- With `count` levels around it, a level is called as many levels deeper. -/
theorem iterate_around_agrees {depth count : Nat}
    (hnested : nested.Agrees (.calling (depth + count)) other) :
    (Nested.around^[count] nested).Agrees (.calling depth) (Nested.around^[count] other) := by
  induction count generalizing nested other with
  | zero => exact hnested
  | succ count ih => exact ih (around_agrees hnested)

theorem nested_add (levels count : Nat) :
    Grammar.nested (levels + count) = Nested.around^[count] (Grammar.nested levels) := by
  induction count generalizing levels with
  | zero => rfl
  | succ count ih =>
      rw [← Nat.succ_add_eq_add_succ, ih]
      rfl

/-- With `maxNesting` levels around it, what is inside a level is never looked at. -/
theorem innermost_agrees (levels : Nat) :
    Nested.innermost.Agrees (.calling maxNesting) (Grammar.nested levels) := by
  have hdescend {α : Type} {production : Production α} :
      Agrees (.calling maxNesting) (failTooDeep : Production α).run (descend production).run :=
    ⟨failTooDeep_orderly, fun state hstate => descend_of_limit (Nat.le_of_eq hstate.1.symm)⟩
  cases levels with
  | zero =>
      have horderly := nested_orderly 0
      exact ⟨fun least => .same (horderly.expr least), .same horderly.stmt, .same horderly.ifElse⟩
  | succ levels =>
      constructor
      · exact fun _ => .past get_orderly fun _ => .recoverWith _ _ _ hdescend
      · exact .past get_orderly fun _ => .recoverWith _ _ _ hdescend
      · exact hdescend

/-- More levels than there is room for make no difference. -/
theorem nested_agrees {depth levels : Nat} (hlevels : depth + levels = maxNesting) (extra : Nat) :
    (Grammar.nested levels).Agrees (.calling depth) (Grammar.nested (levels + extra)) := by
  induction levels generalizing depth with
  | zero =>
      rw [Nat.zero_add]
      obtain rfl : depth = maxNesting := hlevels
      exact innermost_agrees extra
  | succ levels ih =>
      rw [Nat.succ_add]
      exact around_agrees (ih (by omega))

/-- Where nothing is nested and no loop is around. -/
def Context.atFile : Context where
  holds state := state.nesting = 0 ∧ state.loopDepth = 0
  lasts hfollows hstate := by rwa [hfollows.nesting, hfollows.loopDepth]

theorem Context.calling_of_atFile (state : State) (hstate : atFile.holds state) :
    (calling 0).holds state :=
  ⟨hstate.1, Nat.le_of_eq hstate.2⟩

theorem outsideLoops_run (production : Production α) (state : State) :
    (outsideLoops production).run.run state =
      let (outcome, stop) := production.run.run { state with loopDepth := 0 }
      (outcome, { stop with loopDepth := state.loopDepth }) := rfl

section Files

variable (hother : outermost.Agrees (.calling 0) other)
include hother

theorem funcBody_agrees : Agrees .atFile funcBody.run (funcBody other).run where
  orderly := funcBody_orderly
  run_eq state hstate := by
    have hbody : (Context.calling 0).holds { state with loopDepth := 0 } :=
      ⟨hstate.1, Nat.le_refl 0⟩
    unfold funcBody
    rw [outsideLoops_run, outsideLoops_run, (block_agrees hother).run_eq _ hbody]

theorem funcDecl_agrees : Agrees .atFile funcDecl.run (funcDecl other).run :=
  .run_past advance_orderly fun _ => .run_past (expectName_orderly _) fun _ =>
    .run_past (attempt_orderly (paramList_orderly _)) fun _ =>
      .run_past (attempt_orderly results_orderly) fun _ =>
        .run_bind (.run_lift (funcBody_agrees hother)) fun _ =>
          .same (.run_bind (covering_orderly _ (settle_orderly _)) fun _ =>
            .run_bind (settle_orderly _) fun _ =>
              .run_bind (settle_orderly _) fun _ => .run_pure _)

theorem item_agrees : Agrees .atFile item (item other) := by
  have hnested := hother.mono Context.calling_of_atFile
  refine .past get_orderly fun start => ?_
  dsimp only
  split
  · exact .recoverWith _ _ _ (.run_bind (valueDecl_agrees hnested _) fun _ => .run_pure _)
  · refine .recoverWith _ _ _ (.run_bind (.run_bind (valueDecl_agrees hnested _) fun _ => ?_)
      fun _ => .run_pure _)
    exact .same (.run_bind (.run_lift (report_orderly _ _ _)) fun _ => .run_pure _)
  · exact .recoverWith _ _ _ (.run_bind (funcDecl_agrees hother) fun _ => .run_pure _)
  · exact .recoverWith _ _ _ (.run_bind (typeDecl_agrees hnested) fun _ => .run_pure _)
  · exact .same (.bind get_orderly fun _ => .ite
      (recoverWith_orderly _ _ _ (.run_bind implementsDecl_consumes.orderly fun _ => .run_pure _))
      (recoverWith_orderly _ _ _ strayItem_consumes.orderly))
  · exact .same (recoverWith_orderly _ _ _ strayItem_consumes.orderly)

theorem items_agrees : Agrees .atFile items (items other) := by
  refine .bind (.repeatStep (fun found => ?_) _) fun _ => .pure _
  refine .past get_orderly fun _ => .ite (.pure _) (.ite ?_ ?_)
  · exact .past advance_orderly fun _ => .pure _
  · exact .bind (item_agrees hother) fun _ => .pure _

/-- The outermost level is called where nothing is nested, and nowhere else. -/
theorem file_agrees : Agrees .atFile file (file other) := by
  apply Agrees.past packageClause_orderly
  intro outcome
  cases outcome with
  | ok clause => exact .bind (items_agrees hother) fun _ => .pure _
  | error bad => exact .bind (items_agrees hother) fun _ => .pure _

end Files

end OriSyntax.Grammar
