import OriSyntax.Proofs.ExprComplete
import OriSyntax.Proofs.Lists
import OriSyntax.Proofs.MirroredSteps

/-!
Types, lists and expressions in two coupled runs.  Only where the end of a line or of the file
ends something must the runs not part; such places stand inside the braces of a body, and
where the first run alone comes to its end there, it reports a missing brace.
-/

namespace OriSyntax.Grammar

variable {α : Type} {c : Coupling} {tight : Bool} {known : Prop} {here : State → Prop}
  {nested : Nested}

open MirrorsFrom

/-- What both runs see some places further, unless the first one ends before it. -/
theorem Coupling.Near.kindAt {state state' : State} (hnear : c.Near state state') (offset : Nat)
    (hoffset : c.Together ∨ offset ≤ state.cursor.remaining) :
    c.Kinds (state.cursor.kindAt offset) (state'.cursor.kindAt offset) := by
  obtain ⟨read, left, hplaced⟩ := hnear.placed
  rw [Cursor.remaining_eq, hplaced.ahead, List.length_map] at hoffset
  rw [Cursor.kindAt, Cursor.kindAt, hplaced.ahead, hplaced.ahead']
  by_cases hinside : offset < left.length
  · have htied := (hplaced.word_of_mem (List.getElem_mem hinside)).tied.kind
    left
    simp [List.getElem?_append, hinside, htied]
  · rw [not_lt] at hinside
    by_cases htogether : c.Together
    · left
      rw [show c.ending.follow = [] from htogether]
      simp [hinside]
    · obtain rfl := Nat.le_antisymm (hoffset.resolve_left htogether) hinside
      refine .inr ⟨htogether, by simp, ?_⟩
      obtain ⟨next, rest, hfollow⟩ := List.exists_cons_of_ne_nil htogether
      have hopens := c.opens next (by simp [hfollow])
      simpa [hfollow] using hopens

section Lists

variable {entry : Production α} {rel : α → α → Prop}
  (hentry : MirrorsOrFails c tight True entry entry rel)
include hentry

theorem commaPass_mirrors (noun : String) (found found' : List α) :
    MirrorsOrFails c tight (known ∧ List.Forall₂ rel found found') (commaPass noun entry found)
      (commaPass noun entry found') (Turn (List.Forall₂ rel)) := by
  refine .run_step (.kind_or_reports (fun kind => ?_) (Reports.failExpected _ _))
  refine .run_ite (fun _ => .rfl) (fun _ => .run_pure fun hknown => .done hknown.2) fun _ => ?_
  refine .run_ite (fun _ => .rfl) (fun _ => failExpected_mirrors _ _) fun _ => ?_
  refine .run_bind hentry.anyhow fun item item' => ?_
  refine .run_step (.kind_or_reports (fun kind => ?_) (Reports.run_look fun _ => .failHere _))
  refine .run_ite (fun _ => .rfl) (fun hcomma => ?_) fun _ => ?_
  · refine .run_bind (.run_lift (advance_mirrors (inside_of_facing ?_))) fun _ _ => ?_
    · simp [hcomma]
    refine .run_ifKind rfl (failList_mirrors _) (.run_pure fun hknown => ?_)
    exact .yield (.cons hknown.1.2 hknown.1.1.2)
  · refine .run_ite (fun _ => .rfl) (fun _ => .run_pure fun hknown => ?_) fun _ =>
      failList_mirrors _
    exact .yield (.cons hknown.2 hknown.1.2)

theorem restOfList_mirrors (noun : String) {opening opening' : Token}
    (hopening : known → c.word opening opening') :
    MirrorsOrFailsAt c tight known here (restOfList noun opening entry)
      (restOfList noun opening' entry) (Enclosed.Alike c.like rel) := by
  have hlist : MirrorsOrFailsAt c tight known here (commaList noun entry) (commaList noun entry)
      (List.Forall₂ rel) := by
    refine .run_ifKind rfl (failList_mirrors _) ?_
    refine .run_bind (repeatProduction_mirrors (commaPass_gains noun hentry.orderly)
      (commaPass_mirrors hentry noun) fun _ => .nil) fun items items' => .run_pure fun hknown => ?_
    exact List.rel_reverse hknown.2
  have hends : Yields here (skipping .list (commaList noun entry)) (fun _ => Facing .rparen)
      fun _ _ => True :=
    .onFailure ((commaList_ends noun hentry.orderly).strengthen fun _ _ => trivial) fun _ => .top
  refine .run_bind_yields (skipping_mirrors _ hlist) hends fun items items' => ?_
  refine .run_bind (.run_lift (advance_mirrors_facing (by decide))) fun closing closing' => ?_
  exact .run_pure fun hknown => .intro (hopening hknown.1.1).tied hknown.1.2 hknown.2.tied

end Lists

theorem typeName_mirrors {accepts : Kind → Bool} (haccepts : accepts .eof = false)
    (what : String) :
    MirrorsAt c tight known here (typeName accepts what) (typeName accepts what)
      (TypeExpr.Alike c.like) := by
  refine .kind_or_reports (fun kind => ?_) ?_
  · refine .ite (fun _ => .rfl) (fun hkind => ?_) fun _ => ?_
    · refine .bind (advance_mirrors (inside_of_facing ?_)) fun _ _ => .pure fun hknown => ?_
      · rintro rfl
        simp [haccepts] at hkind
      · exact .named hknown.2.tied
    · refine .bind current_mirrors fun got got' => ?_
      refine .bind (reportHere_mirrors fun hknown htogether => ?_) fun bad bad' => ?_
      · have hgot := hknown.2 htogether
        rw [hgot.kind]
        split
        · exact .illegal c.like_faithful hgot
        · exact ⟨rfl, rfl, rfl, hgot, rfl⟩
      · exact .bind (stepOverUnless_mirrors (fun hknown => hknown.2.1) _) fun _ _ =>
          .pure fun hknown => .bad hknown.1.2
  · rw [if_neg (by simp [haccepts])]
    refine .look fun got => .bind (.reportHere _) fun bad => ?_
    exact .bind (stepOverUnless_orderly _) fun _ => .pure _

theorem param_mirrors (named : Bool) :
    MirrorsOrFailsAt c tight known here (param named) (param named) (Param.Alike c.like) := by
  have hname : MirrorsOrFailsAt c tight known here (paramName named) (paramName named)
      (Option.Rel c.like.token) :=
    .run_ite (fun _ => .rfl) (fun _ => .run_bind (expectName_mirrors _) fun _ _ =>
      .run_pure fun hknown => .some hknown.2.tied) fun _ => .run_pure fun _ => .none
  refine .run_bind hname fun name name' => ?_
  exact .run_bind (.run_lift (typeName_mirrors rfl _)) fun type type' =>
    .run_pure fun hknown => .intro hknown.1.2 hknown.2

theorem paramList_mirrors (named : Bool) :
    MirrorsOrFailsAt c tight known here (paramList named) (paramList named)
      (ParamList.Alike c.like) := by
  refine .run_bind (expectAs_mirrors _ _ rfl) fun opening opening' => ?_
  exact covering_mirrors (restOfList_mirrors (param_mirrors named) _ fun hknown => hknown.2)
    fun hknown => hknown.2

/-- A parameter list reads the parenthesis with which it begins. -/
theorem paramList_reads (named : Bool) (bound : Nat) :
    Yields (fun state => Facing .lparen state ∧ state.cursor.remaining ≤ bound) (paramList named)
      (fun _ state => state.cursor.remaining < bound)
      fun _ state => state.cursor.remaining < bound := by
  intro state hstate
  have hkind : state.cursor.kind = .lparen := hstate.1
  have hopening : (expect .lparen "'('").run.run state =
      (.ok state.cursor.current, state.moveTo state.cursor.next) :=
    readsNext_expectAs _ _ hkind
  have hnext : state.cursor.Reads [state.cursor.current] state.cursor.next :=
    Cursor.reads_next (by simp [hkind])
  have hremaining := hnext.remaining
  rw [paramList, ExceptT.run_bind, StateT.run_bind, hopening]
  have hrest := covering_orderly state.cursor.current
    (restOfList_orderly "parameter" state.cursor.current (param_orderly named))
  apply hrest.run_keeps (fun _ _ hfollows hstart =>
    Nat.lt_of_le_of_lt hfollows.remaining_le hstart)
  · have hbound := hstate.2
    simp only [List.length_singleton] at hremaining
    simp only [State.cursor_moveTo]
    omega

/-- What follows the parenthesis tells whether a result list has names. -/
theorem resultList_mirrors (hconfined : known → c.Confined tight) :
    MirrorsOrFailsAt c tight known (Facing .lparen)
      (do
        let second ← kindAt 2
        return some (.list (← paramList (second ≠ .comma && second ≠ .rparen))))
      (do
        let second ← kindAt 2
        return some (.list (← paramList (second ≠ .comma && second ≠ .rparen))))
      (Option.Rel (Results.Alike c.like)) := by
  have hparams (named : Bool) : MirrorsOrFails c tight known
      (do return some (.list (← paramList named))) (do return some (.list (← paramList named)))
      (Option.Rel (Results.Alike c.like)) :=
    .run_bind (paramList_mirrors named) fun params params' =>
      .run_pure fun hknown => .some (.list hknown.2)
  refine .by_place (fun state => c.Together ∨ 2 ≤ state.cursor.remaining) ?_ ?_
  · apply MirrorsFrom.run_step
    apply MirrorsFrom.look (·.cursor.kindAt 2) (·.cursor.kindAt 2) fun second second' =>
      (second' = .comma ↔ second = .comma) ∧ (second' = .rparen ↔ second = .rparen)
    · rintro hknown state state' ⟨hrelates, -, hplace⟩
      have hkinds := hrelates.kindAt 2 hplace
      exact ⟨(hkinds.eq_iff rfl).symm, (hkinds.eq_iff rfl).symm⟩
    · intro second second'
      refine ⟨(hparams _).orderly, fun hknown start start' hstart => ?_⟩
      simp only [ne_eq, hknown.2.1, hknown.2.2]
      exact (hparams _).ends hknown.1 start start' ⟨hstart.1, trivial⟩
  · -- With nothing behind the parenthesis, the first run comes to its end.
    have hends : Yields
        (fun state => Facing .lparen state ∧ ¬ (c.Together ∨ 2 ≤ state.cursor.remaining))
        (do
          let second ← kindAt 2
          return some (Results.list (← paramList (second ≠ .comma && second ≠ .rparen))))
        (fun _ state => state.cursor.ahead = []) fun _ state => state.cursor.ahead = [] := by
      have hnil (state : State) (hstate : state.cursor.remaining < 1) :
          state.cursor.ahead = [] := by
        rw [Cursor.remaining_eq] at hstate
        exact List.eq_nil_of_length_eq_zero (by omega)
      refine .bind (.lift (kindAt_meets 2)) fun second => .bind
        ((paramList_reads _ 1).mono (fun _ hstate => ⟨hstate.1.1, ?_⟩) (fun _ => hnil)
          fun _ => hnil) fun params => .pure fun _ hstate => hstate
      exact Nat.le_of_lt_succ (Nat.not_le.1 (not_or.1 hstate.1.2).2)
    refine .of_runs_out (fun hknown _ hstate => ?_) ?_ (Meets.weaken hends ?_)
    · have hapart := (not_or.1 hstate.2).1
      exact ⟨hapart, (hconfined hknown).resolve_left hapart⟩
    · exact .run_bind get_orderly fun _ => .run_bind (paramList_orderly _) fun _ => .run_pure _
    · intro outcome state hstop
      cases outcome <;> exact hstop

theorem results_mirrors (hconfined : known → c.Confined tight) :
    MirrorsOrFailsAt c tight known here results results
      (Option.Rel (Results.Alike c.like)) := by
  refine .run_bind (.run_lift (endsHere_mirrors hconfined)) fun ends ends' => ?_
  refine .run_ite (fun hknown => by rw [hknown.2]) (fun _ => .run_pure fun _ => .none) fun _ => ?_
  refine .run_ifKind rfl (resultList_mirrors fun hknown => hconfined hknown.1) ?_
  exact .run_bind (.run_lift (typeName_mirrors rfl _)) fun type type' =>
    .run_pure fun hknown => .some (.single hknown.2)

theorem qualifiedName_mirrors (what : String) :
    MirrorsOrFailsAt c tight known here (qualifiedName what) (qualifiedName what)
      (QualifiedName.Alike c.like) := by
  refine .run_bind (expectName_mirrors what) fun name name' => ?_
  refine .run_step (accept?_bind rfl (fun dot dot' => ?_) ?_)
  · refine .run_bind (expectName_mirrors what) fun last last' => .run_pure ?_
    rintro ⟨⟨⟨hknown, hname⟩, hdot⟩, hlast⟩
    exact .intro (.some (.intro hname.tied hdot.tied)) hlast.tied
  · exact .run_pure fun hknown => .intro .none hknown.2.tied

/-- The productions of a level do the same in both runs. -/
structure Nested.Mirrors (c : Coupling) (nested : Nested) : Prop where
  accounts : nested.Accounts
  expr : ∀ tight least, Grammar.Mirrors c tight True (nested.expr least) (nested.expr least)
    (Expr.Alike c.like)
  stmt : ∀ tight known, (known → c.Confined tight) →
    MirrorsAt c tight known Inside nested.stmt nested.stmt (Stmt.Alike c.like)
  ifElse : ∀ tight known,
    MirrorsOrFailsAt c tight known Inside nested.ifElse nested.ifElse (Stmt.Alike c.like)

theorem Nested.Mirrors.orderly (hnested : nested.Mirrors c) : nested.Orderly :=
  hnested.accounts.orderly

/-- Expressions that are alike, and that do not begin at the end of the file. -/
def Coupling.AlikeFrom (c : Coupling) (expr expr' : Expr) : Prop :=
  Expr.Alike c.like expr expr' ∧ c.word expr.first expr'.first

section Expressions

variable (hnested : nested.Mirrors c)
include hnested

theorem expr_mirrors (least : Precedence) :
    MirrorsAt c tight known here (nested.expr least) (nested.expr least) (Expr.Alike c.like) :=
  (hnested.expr tight least).anyhow

theorem run_expr_mirrors (least : Precedence) :
    MirrorsOrFailsAt c tight known here (liftM (nested.expr least)) (liftM (nested.expr least))
      (Expr.Alike c.like) :=
  .run_lift (expr_mirrors hnested least)

theorem parenthesized_mirrors :
    MirrorsOrFailsAt c tight known (Facing .lparen) (parenthesized nested) (parenthesized nested)
      c.AlikeFrom := by
  refine .run_bind (.run_lift (advance_mirrors_facing (by decide))) fun opening opening' => ?_
  refine .run_ifKind rfl ?_ ?_
  · refine .run_bind_yields (.run_lift (expectedHere_mirrors _ _))
      (.lift ((expectedHere_meets _ _).weaken fun _ _ hstate => hstate.1))
      fun diagnostic diagnostic' => ?_
    refine .run_bind (.run_lift (advance_mirrors_facing (by decide))) fun closing closing' => ?_
    refine fail_mirrors fun hknown htogether => ?_
    exact ⟨hknown.1.2 htogether, hknown.1.1.2.tied, hknown.2.tied⟩
  · refine .run_bind (run_expr_mirrors hnested _) fun inner inner' => ?_
    refine .run_bind (covering_mirrors (expectAs_mirrors _ _ rfl) fun hknown => hknown.1.2) ?_
    refine fun closing closing' => .run_pure ?_
    rintro ⟨⟨⟨hknown, hopening⟩, hinner⟩, hclosing⟩
    exact ⟨.paren hopening.tied hinner hclosing.tied, hopening⟩

theorem operand_mirrors :
    MirrorsOrFailsAt c tight known here (operand nested) (operand nested) c.AlikeFrom := by
  have hmissing : MirrorsOrFails c tight known
      (do
        let bad ← reportHere (← expectedHere .missingExpression "expression")
        skipUnexpected
        throw bad : Production Expr)
      (do
        let bad ← reportHere (← expectedHere .missingExpression "expression")
        skipUnexpected
        throw bad) c.AlikeFrom := by
    refine .run_bind (.run_lift (expectedHere_mirrors _ _)) fun _ _ => ?_
    refine .run_bind (.run_lift (reportHere_mirrors fun hknown => hknown.2)) fun _ _ => ?_
    refine .run_bind (.run_lift (stepOverUnless_mirrors (fun hknown => hknown.2.1) _)) fun _ _ => ?_
    exact .run_throw fun hknown => hknown.1.2
  refine .run_step (.kind_or_reports (fun kind => ?_) ?_)
  · split
    case h_6 => exact parenthesized_mirrors hnested
    case h_7 | h_8 =>
      refine .run_bind (.run_lift (advance_mirrors_facing (by decide))) fun op op' => ?_
      refine .run_bind (run_expr_mirrors hnested _) fun expr expr' => .run_pure fun hknown => ?_
      exact ⟨.unary hknown.1.2.tied hknown.2, hknown.1.2⟩
    case h_9 => exact hmissing.at_here
    case h_1 =>
      exact .run_bind (.run_lift (advance_mirrors_facing (by decide))) fun name name' =>
        .run_pure fun hknown => ⟨.ident hknown.2.tied, hknown.2⟩
    all_goals
      exact .run_bind (.run_lift (advance_mirrors_facing (by decide))) fun value value' =>
        .run_pure fun hknown => ⟨.literal hknown.2.tied, hknown.2⟩
  · exact .run_look fun _ => .run_bind (.reportHere _) fun _ =>
      .run_bind (.run_lift skipUnexpected_orderly) fun _ => .run_throw _

variable {left left' : Expr} (hleft : known → c.AlikeFrom left left')
include hleft

theorem binary_mirrors (level : Precedence) :
    MirrorsAt c tight known Inside (binary nested left level) (binary nested left' level)
      c.AlikeFrom := by
  refine .bind (advance_mirrors fun _ hstate => hstate) fun op op' => ?_
  refine .bind (expr_mirrors hnested _) fun right right' => ?_
  refine .ite (fun hknown => ?_) (fun _ => ?_) fun _ => .pure fun hknown => ?_
  · rw [hknown.1.2.tied.kind, (hleft hknown.1.1).1.isComparison c.like_faithful]
  · refine .bind (report_mirrors_first fun hknown htogether => ?_) fun bad bad' => .pure ?_
    · exact ⟨⟨rfl, rfl, rfl, hknown.1.2.tied, rfl⟩, hknown.1.2.tied,
        hknown.2.last c.like_faithful⟩
    · rintro ⟨⟨⟨hknown, hop⟩, hright⟩, hbad, hfirst, hfirst'⟩
      refine ⟨.bad hbad, ?_⟩
      rw [Expr.first, Expr.first, hfirst, hfirst']
      exact hop
  · exact ⟨.binary (hleft hknown.1.1).1 hknown.1.2.tied hknown.2, (hleft hknown.1.1).2⟩

theorem suffix_mirrors :
    MirrorsOrFailsAt c tight known Inside (suffix nested left) (suffix nested left')
      c.AlikeFrom := by
  refine .run_bind (.run_lift (advance_mirrors fun _ hstate => hstate)) fun opening opening' => ?_
  refine .run_ite (fun hknown => by rw [hknown.2.tied.kind]) (fun _ => ?_) fun _ =>
    .run_ite (fun hknown => by rw [hknown.2.tied.kind]) (fun _ => ?_) fun _ => ?_
  · refine .run_bind (expectName_mirrors _) fun name name' => .run_pure ?_
    rintro ⟨⟨hknown, hopening⟩, hname⟩
    exact ⟨.selector (hleft hknown).1 hopening.tied hname.tied, (hleft hknown).2⟩
  · refine .run_bind (run_expr_mirrors hnested _) fun inner inner' => ?_
    refine .run_bind (expectAs_mirrors _ _ rfl) fun closing closing' => .run_pure ?_
    rintro ⟨⟨⟨hknown, hopening⟩, hinner⟩, hclosing⟩
    exact ⟨.index (hleft hknown).1 hopening.tied hinner hclosing.tied, (hleft hknown).2⟩
  · refine .run_bind (restOfList_mirrors (run_expr_mirrors hnested _) _ fun hknown => hknown.2) ?_
    refine fun args args' => .run_pure ?_
    rintro ⟨⟨hknown, hopening⟩, hargs⟩
    exact ⟨.call (hleft hknown).1 hargs, (hleft hknown).2⟩

theorem exprPass_mirrors (least : Precedence) :
    MirrorsAt c tight known here (exprPass nested least left) (exprPass nested least left')
      (Turn c.AlikeFrom) := by
  refine .kind_blind (fun kind => ?_) fun kind' hkind' => ?_
  · by_cases hkind : kind.precedence = .lowest
    · -- A kind that is no operator ends the expression, whatever line it is on.
      refine .look (·.cursor.opensLine) (·.cursor.opensLine) (fun _ _ => True)
        (fun _ _ _ _ => trivial) fun line line' => ?_
      rw [if_pos (by simp [hkind]), if_pos (by simp [hkind])]
      exact .pure fun hknown => .done (hleft hknown.1)
    have hinside : ∀ state, Facing kind state → Inside state := by
      apply inside_of_facing
      rintro rfl
      exact hkind rfl
    refine .bind_meets (fun _ => Inside) (opensLine_mirrors_inside hinside) ?_ ?_
    · exact fun state hstate => hinside state hstate
    intro line line'
    refine .ite (fun hknown => by rw [hknown.2]) (fun _ => .pure fun hknown => ?_) fun _ => ?_
    · exact .done (hleft hknown.1)
    refine .ite (fun _ => .rfl) (fun _ => ?_) fun _ => ?_
    · refine .bind_run (suffix_mirrors hnested fun hknown => hleft hknown.1)
        (fun _ _ => .pure fun hknown => .yield hknown.2) fun bad bad' => ?_
      refine .bind (cover_mirrors_first (fun hknown => hknown.2)
        fun hknown => (hleft hknown.1.1).2) fun node node' => .pure ?_
      rintro ⟨⟨⟨hknown, -⟩, -⟩, hnode, hfirst, hfirst'⟩
      refine .done ⟨.bad hnode, ?_⟩
      rw [Expr.first, Expr.first, hfirst, hfirst']
      exact (hleft hknown).2
    · exact .bind (binary_mirrors hnested (fun hknown => hleft hknown.1) _) fun _ _ =>
        .pure fun hknown => .yield hknown.2
  · rcases KindSet.contains_declStart hkind' with rfl | rfl | rfl | rfl | rfl | rfl <;> rfl

end Expressions

section Sequences

variable (hnested : nested.Mirrors c)
include hnested

theorem exprInside_mirrors (least : Precedence) :
    MirrorsAt c tight known here (exprInside nested least) (exprInside nested least)
      (Expr.Alike c.like) := by
  refine .bind_run (operand_mirrors hnested) (fun left left' => ?_) fun bad bad' =>
    .pure fun hknown => .bad hknown.2
  exact (repeatStep_mirrors (exprPass_gains hnested.orderly least)
    (fun _ _ => exprPass_mirrors hnested (fun hknown => hknown.2) least)
    fun hknown => hknown.2).weaken fun _ _ _ halike => halike.1

theorem exprListPass_mirrors (found found' : List Expr) :
    MirrorsAt c tight (known ∧ List.Forall₂ (Expr.Alike c.like) found found') here
      (exprListPass nested found) (exprListPass nested found')
      (Turn (List.Forall₂ (Expr.Alike c.like))) := by
  refine .bind (expr_mirrors hnested _) fun expr expr' => ?_
  refine accept?_bind rfl (fun comma comma' => .pure fun hknown => ?_) (.pure fun hknown => ?_)
  · exact .yield (.cons hknown.1.2 hknown.1.1.2)
  · exact .done (.cons hknown.2 hknown.1.2)

theorem exprList_mirrors :
    MirrorsAt c tight known here (exprList nested) (exprList nested)
      (List.Forall₂ (Expr.Alike c.like)) :=
  .bind (repeatStep_mirrors (exprListPass_gains hnested.orderly)
    (exprListPass_mirrors hnested) fun _ => .nil) fun _ _ =>
      .pure fun hknown => List.rel_reverse hknown.2

end Sequences

end OriSyntax.Grammar
