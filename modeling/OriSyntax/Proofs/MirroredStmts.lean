import OriSyntax.Proofs.MirroredDecls

/-!
Statements in two coupled runs.  Where the end of a line or of the file ends a statement, the
runs must not part; this is so between the braces of every body, since a body that could be
read ends with a brace.
-/

namespace OriSyntax.Grammar

variable {α : Type} {c : Coupling} {tight : Bool} {known : Prop} {here : State → Prop}
  {pre : State → State → Prop} {nested : Nested}

open MirrorsFrom

theorem branchStmt_mirrors (hconfined : known → c.Confined tight)
    (hpre : ∀ state state', pre state state' → c.Near state state' ∧ Inside state) :
    MirrorsFrom c tight known pre branchStmt.run branchStmt.run
      (Outcome c (Stmt.Alike c.like)) := by
  refine .run_bind (.run_lift (advance_mirrorsFrom hpre)) fun keyword keyword' => ?_
  refine .run_step (.look (fun state => state) (fun state => state)
    (fun state state' => state'.loopDepth = state.loopDepth)
    (fun _ _ _ hstart => hstart.1.loopDepth) fun state state' => ?_)
  refine .run_ite (fun hknown => by rw [hknown.2]) (fun _ => ?_) fun _ => ?_
  · refine fail_mirrors fun hknown _ => ?_
    have htied := hknown.1.2.tied
    exact ⟨⟨rfl, rfl, by simp [Diagnostic.outsideLoop, htied.value], htied, rfl⟩, htied, htied⟩
  · refine .run_step (.kind_confined (fun hknown => hconfined hknown.1.1) fun kind => ?_)
    refine .run_step (.bind (opensLine_mirrors fun hknown => hconfined hknown.1.1)
      fun line line' => ?_)
    refine .run_ite (fun hknown => by rw [hknown.2]) (fun _ => .run_pure fun hknown => ?_)
      fun _ => ?_
    · have htied := hknown.1.1.2.tied
      rw [htied.kind]
      split
      · exact .breakLoop htied
      · exact .continueLoop htied
    · refine .run_bind (.run_lift current_mirrors) fun got got' => ?_
      refine fail_mirrors fun hknown htogether => ?_
      have htied := hknown.1.1.1.2.tied
      have hgot := hknown.2 htogether
      exact ⟨⟨rfl, rfl, by simp [Diagnostic.afterBranch, htied.value], hgot, rfl⟩, htied, hgot⟩

theorem fallThroughStmt_mirrors (hconfined : known → c.Confined tight)
    (hpre : ∀ state state', pre state state' → c.Near state state' ∧ Inside state) :
    MirrorsFrom c tight known pre fallThroughStmt.run fallThroughStmt.run
      (Outcome c (Stmt.Alike c.like)) := by
  refine .run_bind (.run_lift (advance_mirrorsFrom hpre)) fun keyword keyword' => ?_
  have hends (known' : Prop) (hknown' : known' → known ∧ c.word keyword keyword') :
      MirrorsOrFails c tight known'
        (do
          if (← currentKind) ∈ [.rbrace, .eof, .caseKw, .defaultKw] then
            return .fallThrough keyword
          else
            let got ← current
            fail (.misplacedFallThrough got) keyword got)
        (do
          if (← currentKind) ∈ [.rbrace, .eof, .caseKw, .defaultKw] then
            return .fallThrough keyword'
          else
            let got ← current
            fail (.misplacedFallThrough got) keyword' got) (Stmt.Alike c.like) := by
    refine .run_step (.kind_confined (fun hknown => hconfined (hknown' hknown).1) fun kind => ?_)
    refine .run_ite (fun _ => .rfl) (fun _ => .run_pure fun hknown => ?_) fun _ => ?_
    · exact .fallThrough (hknown' hknown).2.tied
    · refine .run_bind (.run_lift current_mirrors) fun got got' => ?_
      refine fail_mirrors fun hknown htogether => ?_
      have hgot := hknown.2 htogether
      exact ⟨⟨rfl, rfl, rfl, hgot, rfl⟩, (hknown' hknown.1).2.tied, hgot⟩
  exact .run_step (accept?_bind rfl (fun _ _ => hends _ fun hknown => hknown.1)
    (hends _ fun hknown => hknown))

variable (nested) in
/-- What an expression that could be read becomes as a statement. -/
def simpleStmtOf (expr : Expr) : Production Stmt := do
  let kind ← currentKind
  if expr.isAssignable && kind.isAssignOp then
    let op ← advance
    return .assign expr op (← nested.expr .lowest)
  else if expr.isAssignable && kind.isIncDec then
    return .incDec expr (← advance)
  else if expr.isCall then return .effect expr
  else fail (.unsupportedStatement expr.first) expr.first expr.last

section Stmts

variable (hnested : nested.Mirrors c)
include hnested

theorem simpleStmtOf_mirrors (expr expr' : Expr) :
    MirrorsOrFailsAt c tight (known ∧ Expr.Alike c.like expr expr') here
      (simpleStmtOf nested expr) (simpleStmtOf nested expr') (Stmt.Alike c.like) := by
  refine .run_step (.kind_blind (fun kind => ?_) fun kind' hkind' => ?_)
  · refine .run_ite (fun hknown => by rw [hknown.2.isAssignable]) (fun hkind => ?_) fun _ =>
      .run_ite (fun hknown => by rw [hknown.2.isAssignable]) (fun hkind => ?_) fun _ =>
        .run_ite (fun hknown => by rw [hknown.2.isCall])
          (fun _ => .run_pure fun hknown => .effect hknown.2) fun _ => ?_
    · refine .run_bind (.run_lift (advance_mirrors (inside_of_facing ?_))) fun op op' => ?_
      · rintro rfl
        simp [Kind.isAssignOp] at hkind
      · exact .run_bind (run_expr_mirrors hnested _) fun right right' =>
          .run_pure fun hknown => .assign hknown.1.1.2 hknown.1.2.tied hknown.2
    · refine .run_bind (.run_lift (advance_mirrors (inside_of_facing ?_))) fun op op' =>
        .run_pure fun hknown => .incDec hknown.1.2 hknown.2.tied
      rintro rfl
      simp [Kind.isIncDec] at hkind
    · refine fail_mirrors fun hknown _ => ?_
      have hfirst := hknown.2.first c.like_faithful
      exact ⟨⟨rfl, rfl, rfl, hfirst, rfl⟩, hfirst, hknown.2.last c.like_faithful⟩
  · rcases KindSet.contains_declStart hkind' with rfl | rfl | rfl | rfl | rfl | rfl <;> rfl

theorem simpleStmt_mirrors :
    MirrorsOrFailsAt c tight known here (simpleStmt nested) (simpleStmt nested)
      (Stmt.Alike c.like) := by
  refine .run_bind (run_expr_mirrors hnested _) fun expr expr' => ?_
  have hstmt : MirrorsOrFails c tight (known ∧ Expr.Alike c.like expr expr')
      (simpleStmtOf nested expr) (simpleStmtOf nested expr') (Stmt.Alike c.like) :=
    simpleStmtOf_mirrors hnested expr expr'
  by_cases halike : Expr.Alike c.like expr expr'
  · cases halike with
    | bad hnode => exact .run_throw fun _ => hnode
    | _ => exact hstmt
  · refine .of_not_known ?_ fun hknown => halike hknown.2
    split
    · exact .run_throw _
    · exact hstmt.orderly

theorem returnStmt_mirrors (hconfined : known → c.Confined tight)
    (hpre : ∀ state state', pre state state' → c.Near state state' ∧ Inside state) :
    MirrorsFrom c tight known pre (returnStmt nested) (returnStmt nested)
      (Stmt.Alike c.like) := by
  refine .bind (advance_mirrorsFrom hpre) fun keyword keyword' => ?_
  refine .bind (endsHere_mirrors fun hknown => hconfined hknown.1) fun ends ends' => ?_
  refine .ite (fun hknown => by rw [hknown.2]) (fun _ => .pure fun hknown => ?_) fun _ => ?_
  · exact .returns hknown.1.2.tied .nil
  · exact .bind (exprList_mirrors hnested) fun values values' => .pure fun hknown =>
      .returns hknown.1.1.2.tied hknown.2

omit hnested in
/-- A statement, read from wherever its first token is. -/
theorem steppingStmt_mirrorsFrom (hconfined : known → c.Confined tight)
    (hpre : ∀ state state', pre state state' → c.Near state state')
    (hstmt : MirrorsFrom c tight known pre nested.stmt nested.stmt (Stmt.Alike c.like)) :
    MirrorsFrom c tight known pre (steppingStmt nested) (steppingStmt nested)
      (Stmt.Alike c.like) := by
  refine .look_from (fun state => state) (fun state => state)
    (fun state state' => state'.cursor.position + c.past.length =
      state.cursor.position + c.past'.length)
    (fun _ _ _ hstart => (hpre _ _ hstart).position) fun before before' => ?_
  refine .bind (hstmt.mono (fun hknown _ _ hstart => ⟨hknown.1, hstart.1⟩)
    fun _ _ _ hvalue => hvalue) fun stmt stmt' => ?_
  refine .look (fun state => state) (fun state => state)
    (fun state state' => state'.cursor.position + c.past.length =
      state.cursor.position + c.past'.length)
    (fun _ _ _ hstart => hstart.1.position) fun state state' => ?_
  refine .ite ?_ (fun _ => ?_) fun _ => .pure fun hknown => hknown.1.2
  · rintro ⟨⟨⟨-, hbefore⟩, -⟩, hstate⟩
    omega
  · exact .bind (moveNext_mirrors fun hknown => hconfined hknown.1.1.1) fun _ _ =>
      .pure fun hknown => hknown.1.1.2

theorem steppingStmt_mirrors (hconfined : known → c.Confined tight) :
    MirrorsAt c tight known Inside (steppingStmt nested) (steppingStmt nested)
      (Stmt.Alike c.like) :=
  steppingStmt_mirrorsFrom hconfined (fun _ _ hstart => hstart.1.toNear)
    (hnested.stmt tight known hconfined)

theorem stmtPass_mirrors (hconfined : known → c.Confined tight) (stops : Kind → Bool)
    (found found' : List Stmt) :
    MirrorsAt c tight (known ∧ List.Forall₂ (Stmt.Alike c.like) found found') here
      (stmtPass nested stops found) (stmtPass nested stops found')
      (Turn (List.Forall₂ (Stmt.Alike c.like))) := by
  refine .kind_confined (fun hknown => hconfined hknown.1) fun kind => ?_
  refine .ite (fun _ => .rfl) (fun _ => .pure fun hknown => .done hknown.2) fun hkind => ?_
  have hinside : ∀ state, Facing kind state → Inside state := by
    apply inside_of_facing
    rintro rfl
    simp at hkind
  refine .ite (fun _ => .rfl) (fun _ => ?_) fun _ => ?_
  · exact .bind (advance_mirrors hinside) fun _ _ => .pure fun hknown => .yield hknown.1.2
  · exact .bind (.strengthen (steppingStmt_mirrors hnested fun hknown => hconfined hknown.1)
      hinside) fun stmt stmt' => .pure fun hknown => .yield (.cons hknown.2 hknown.1.2)

theorem stmtList_mirrors (hconfined : known → c.Confined tight) (stops : Kind → Bool) :
    MirrorsAt c tight known here (stmtList nested stops) (stmtList nested stops)
      (List.Forall₂ (Stmt.Alike c.like)) :=
  .bind (repeatStep_mirrors (stmtPass_gains hnested.orderly stops)
    (stmtPass_mirrors hnested hconfined stops) fun _ => .nil) fun _ _ =>
      .pure fun hknown => List.rel_reverse hknown.2

/-- A block, read from wherever its opening brace is. -/
theorem block_mirrorsFrom (hopening : MirrorsFrom c tight known pre
      (expect .lbrace "'\x7b'").run (expect .lbrace "'\x7b'").run (Outcome c c.word)) :
    MirrorsFrom c tight known pre (block nested).run (block nested).run
      (Outcome c (Enclosed.Alike c.like (Stmt.Alike c.like))) := by
  refine .run_bind hopening fun opening opening' => ?_
  refine .run_step (.bind_closing (stmtList_mirrors hnested (fun _ => .inr rfl) _)
    (fun _ _ hstart => hstart.1.toNear) (fun stmts => ?_) fun stmts stmts' => ?_)
  · refine .run_bind (.onFailure (expectAs_reports _ _ fun state hstate => ?_) fun bad =>
      cover_orderly _ bad) fun _ => .run_pure _
    simp [show state.cursor.kind = .eof from hstate]
  · refine .run_bind (covering_mirrors (expectAs_mirrors _ _ rfl) fun hknown => hknown.1.2) ?_
    refine fun closing closing' => .run_pure ?_
    rintro ⟨⟨⟨hknown, hopening⟩, hstmts⟩, hclosing⟩
    exact .intro hopening.tied hstmts hclosing.tied

theorem block_mirrors :
    MirrorsOrFailsAt c tight known here (block nested) (block nested)
      (Enclosed.Alike c.like (Stmt.Alike c.like)) :=
  block_mirrorsFrom hnested (expectAs_mirrors _ _ rfl)

theorem elseBranch_mirrors :
    MirrorsOrFailsAt c tight known here (elseBranch nested) (elseBranch nested)
      (Option.Rel (Stmt.Alike c.like)) := by
  refine .run_step (accept?_bind rfl (fun keyword keyword' => ?_) (.run_pure fun _ => .none))
  refine .run_step (.kind_blind (fun kind => ?_) fun kind' hkind' => ?_)
  · refine .run_ite (fun _ => .rfl) (fun hkind => ?_) fun _ =>
      .run_ite (fun _ => .rfl) (fun _ => ?_) fun _ => ?_
    · refine .run_bind (.strengthen (hnested.ifElse tight _) (inside_of_facing ?_)) fun _ _ =>
        .run_pure fun hknown => .some hknown.2
      simp [hkind]
    · exact .run_bind (block_mirrors hnested) fun body body' =>
        .run_pure fun hknown => .some (.block hknown.2)
    · refine .run_bind (.run_lift (expectedHere_mirrors _ _)) fun _ _ => ?_
      refine .run_bind (.run_lift current_mirrors) fun got got' => ?_
      exact fail_mirrors fun hknown htogether =>
        ⟨hknown.1.2 htogether, hknown.1.1.2.tied, hknown.2 htogether⟩
  · rcases KindSet.contains_declStart hkind' with rfl | rfl | rfl | rfl | rfl | rfl <;> rfl

theorem ifStmt_mirrors
    (hpre : ∀ state state', pre state state' → c.Near state state' ∧ Inside state) :
    MirrorsFrom c tight known pre (ifStmt nested).run (ifStmt nested).run
      (Outcome c (Stmt.Alike c.like)) := by
  refine .run_bind (.run_lift (advance_mirrorsFrom hpre)) fun keyword keyword' => ?_
  refine .run_ifKind rfl ?_ ?_
  · refine .run_bind (.run_lift (expectedHere_mirrors _ _)) fun _ _ => ?_
    refine .run_bind (.run_lift current_mirrors) fun got got' => ?_
    exact fail_mirrors fun hknown htogether =>
      ⟨hknown.1.2 htogether, hknown.1.1.2.tied, hknown.2 htogether⟩
  · refine .run_bind (run_expr_mirrors hnested _) fun condition condition' => ?_
    refine .run_step (.kind_blind (fun kind => ?_) fun kind' hkind' => ?_)
    · refine .run_ite (fun _ => .rfl) (fun _ => ?_) fun _ => ?_
      · refine .run_bind (.run_lift current_mirrors) fun op op' => ?_
        refine fail_mirrors fun hknown htogether => ?_
        have hop := hknown.2 htogether
        exact ⟨⟨rfl, rfl, rfl, hop, rfl⟩, hknown.1.1.2.tied, hop⟩
      · refine .run_bind (block_mirrors hnested) fun body body' => ?_
        refine .run_bind (elseBranch_mirrors hnested) fun otherwise otherwise' => .run_pure ?_
        rintro ⟨⟨⟨⟨hknown, hkeyword⟩, hcondition⟩, hbody⟩, hotherwise⟩
        exact .ifElse hkeyword.tied hcondition hbody hotherwise
    · rcases KindSet.contains_declStart hkind' with rfl | rfl | rfl | rfl | rfl | rfl <;> rfl

end Stmts

end OriSyntax.Grammar
