import OriSyntax.Proofs.MirroredStmts

/-!
Loops and switches in two coupled runs.  What is looked for in a header is looked for up to its
opening brace; a header without one is reported, so that a search that goes on behind the end
of the first run is never compared.
-/

namespace OriSyntax.Grammar

variable {α : Type} {c : Coupling} {tight : Bool} {known : Prop} {here : State → Prop}
  {pre : State → State → Prop} {nested : Nested}

open MirrorsFrom

/-- What is ahead in the header of a construct is seen by both runs. -/
def Coupling.Bounded (c : Coupling) (state : State) : Prop :=
  c.Together ∨ ¬ Context.braceless.holds state

/-- A header that ends with a brace holds the same kinds in both runs. -/
theorem Coupling.Near.headerContains {state state' : State} (hnear : c.Near state state')
    (hbounded : c.Bounded state) (kind : Kind) :
    state'.cursor.headerContains kind = state.cursor.headerContains kind := by
  obtain ⟨read, left, hplaced⟩ := hnear.placed
  have hkinds (pair : Token × Token) (hpair : pair ∈ left) : pair.2.kind = pair.1.kind :=
    (hplaced.word_of_mem hpair).tied.kind
  have hbrace : c.ending.follow = [] ∨ ∃ pair ∈ left, pair.1.kind = .lbrace := by
    refine hbounded.imp_right fun hbraced => ?_
    simpa [Context.braceless, hplaced.ahead] using hbraced
  rw [Cursor.headerContains, Cursor.headerContains, hplaced.ahead, hplaced.ahead']
  clear hplaced
  induction left with
  | nil =>
      rcases hbrace with hfollow | ⟨pair, hpair, -⟩
      · rw [hfollow]
        rfl
      · exact nomatch hpair
  | cons pair left ih =>
      have hkind := hkinds pair List.mem_cons_self
      by_cases hlbrace : pair.1.kind = .lbrace
      · simp [hlbrace, hkind]
      · have hrest : c.ending.follow = [] ∨ ∃ other ∈ left, other.1.kind = .lbrace := by
          simpa [hlbrace] using hbrace
        have htail := ih (fun other hother => hkinds other (List.mem_cons_of_mem _ hother)) hrest
        simpa [hlbrace, hkind] using congrArg (pair.1.kind = kind || ·) htail

/-- Looking for a kind in a header that ends with a brace. -/
theorem run_header_mirrors {next next' : Bool → Production α} {rel : α → α → Prop} (kind : Kind)
    (hhere : ∀ state, here state → c.Bounded state)
    (hnext : ∀ value, MirrorsOrFailsAt c tight known here (next value) (next' value) rel) :
    MirrorsOrFailsAt c tight known here (liftM (headerContains kind) >>= next)
      (liftM (headerContains kind) >>= next') rel := by
  refine .run_step (.look (·.cursor.headerContains kind) (·.cursor.headerContains kind) Eq
    (fun _ _ _ hstart => (hstart.1.headerContains (hhere _ hstart.2) kind).symm) ?_)
  rintro value value'
  by_cases heq : value = value'
  · subst heq
    exact ((hnext value).strengthen fun _ hstate => hstate.1).knowing fun hknown => hknown.1
  · exact .of_not_known (hnext value).orderly fun hknown => heq hknown.2

/-- What is skipped with its body if it is broken is compared where it has a body. -/
theorem header_mirrors {rel : Stmt → Stmt → Prop} {production production' : Production Stmt}
    (hreports : Reports Context.braceless.holds production.run)
    (hproduction : MirrorsOrFailsAt c tight known c.Bounded production production' rel) :
    MirrorsOrFailsAt c tight known here production production' rel := by
  refine .by_place c.Bounded (hproduction.strengthen fun _ hstate => hstate.2) ?_
  refine .of_reports (fun _ state hstate htogether => hstate.2 (.inl htogether))
    hproduction.orderly (hreports.strengthen fun state hstate => ?_)
  by_contra hbraced
  exact hstate.2 (.inr hbraced)

section Loops

theorem ForClause.allows_eq {like : Likeness} {stmt stmt' : Stmt} (clause : ForClause)
    (halike : Stmt.Alike like stmt stmt') : clause.allows stmt' = clause.allows stmt := by
  cases halike with
  | effect hvalue => exact hvalue.isCall
  | _ => rfl

variable (hnested : nested.Mirrors c)
include hnested

theorem loopBody_mirrors :
    MirrorsOrFailsAt c tight known here (loopBody nested) (loopBody nested)
      (Enclosed.Alike c.like (Stmt.Alike c.like)) := by
  have hblock : MirrorsOrFails c tight known (block nested) (block nested)
      (Enclosed.Alike c.like (Stmt.Alike c.like)) := block_mirrors hnested
  refine between_mirrors hblock ?_ ?_ (fun _ => ⟨rfl, rfl⟩) ?_
  · intro state state' hstart
    refine ⟨hstart.1.recount ⟨rfl, rfl⟩ ⟨rfl, rfl⟩ hstart.1.nesting ?_, trivial⟩
    exact congrArg (· + 1) hstart.1.loopDepth
  · intro state state' hrelates
    exact hrelates.recount ⟨rfl, rfl⟩ ⟨rfl, rfl⟩ hrelates.nesting
      (congrArg (· - 1) hrelates.loopDepth)
  · intro start stop hstop
    exact ⟨hstop.reads, hstop.reports, hstop.nesting, by simp [hstop.loopDepth]⟩

theorem rangeValue_mirrors :
    MirrorsAt c tight known here (rangeValue nested) (rangeValue nested)
      (Option.Rel (Expr.Alike c.like)) :=
  accept?_bind rfl (fun _ _ => .bind (expr_mirrors hnested _) fun _ _ =>
    .pure fun hknown => .some hknown.2) (.pure fun _ => .none)

/-- The targets of a `range` that correspond. -/
def Coupling.targets (c : Coupling) (targets targets' : Option Expr × Option Expr × Option Token) :
    Prop :=
  Option.Rel (Expr.Alike c.like) targets.1 targets'.1 ∧
    Option.Rel (Expr.Alike c.like) targets.2.1 targets'.2.1 ∧
      Option.Rel c.like.token targets.2.2 targets'.2.2

theorem rangeTargets_mirrors {keyword keyword' : Token}
    (hkeyword : known → c.word keyword keyword') :
    MirrorsOrFailsAt c tight known here (rangeTargets nested keyword)
      (rangeTargets nested keyword') c.targets := by
  refine .run_ifKind rfl (.run_pure fun _ => ⟨.none, .none, .none⟩) ?_
  refine .run_bind (run_expr_mirrors hnested _) fun key key' => ?_
  refine .run_bind (.run_lift (rangeValue_mirrors hnested)) fun value value' => ?_
  refine .run_step (.kind_blind (fun kind => ?_) fun kind' hkind' => ?_)
  · refine .run_ite (fun _ => .rfl) (fun hkind => ?_) fun _ => ?_
    · refine .run_bind (.run_lift (advance_mirrors (inside_of_facing ?_))) fun op op' =>
        .run_pure fun hknown => ⟨.some hknown.1.1.2, hknown.1.2, .some hknown.2.tied⟩
      rintro rfl
      simp at hkind
    · refine .run_bind (.run_lift (expectedHere_mirrors _ _)) fun _ _ => ?_
      refine .run_bind (.run_lift current_mirrors) fun got got' => ?_
      exact fail_mirrors fun hknown htogether =>
        ⟨hknown.1.2 htogether, (hkeyword hknown.1.1.1.1).tied, hknown.2 htogether⟩
  · rcases KindSet.contains_declStart hkind' with rfl | rfl | rfl | rfl | rfl | rfl <;> rfl

theorem rangeLoop_mirrors {keyword keyword' : Token}
    (hkeyword : known → c.word keyword keyword') :
    MirrorsOrFailsAt c tight known here (rangeLoop nested keyword)
      (rangeLoop nested keyword') (Stmt.Alike c.like) := by
  refine .run_bind (rangeTargets_mirrors hnested hkeyword) fun targets targets' => ?_
  refine .run_bind (expectAs_mirrors _ _ rfl) fun rangeKeyword rangeKeyword' => ?_
  refine .run_bind (run_expr_mirrors hnested _) fun subject subject' => ?_
  refine .run_bind (loopBody_mirrors hnested) fun body body' => .run_pure ?_
  rintro ⟨⟨⟨⟨hknown, hkey, hvalue, hop⟩, hrangeKeyword⟩, hsubject⟩, hbody⟩
  exact .rangeLoop (hkeyword hknown).tied hkey hvalue hop hrangeKeyword.tied hsubject hbody

theorem forClause_mirrors (clause : ForClause) :
    MirrorsOrFailsAt c tight known here (forClause nested clause) (forClause nested clause)
      (Stmt.Alike c.like) := by
  refine .run_bind (simpleStmt_mirrors hnested) fun stmt stmt' => ?_
  refine .run_ite (fun hknown => by rw [clause.allows_eq hknown.2])
    (fun _ => .run_pure fun hknown => hknown.2) fun _ => fail_mirrors fun hknown _ => ?_
  have hfirst := hknown.2.first c.like_faithful
  exact ⟨⟨rfl, rfl, rfl, hfirst, rfl⟩, hfirst, hknown.2.last c.like_faithful⟩

theorem threeClauseLoop_mirrors {keyword keyword' : Token}
    (hkeyword : known → c.word keyword keyword') :
    MirrorsOrFailsAt c tight known here (threeClauseLoop nested keyword)
      (threeClauseLoop nested keyword') (Stmt.Alike c.like) := by
  refine .run_bind (unlessAt_mirrors rfl (forClause_mirrors hnested .init)) fun first first' => ?_
  refine .run_bind (expectAs_mirrors _ _ rfl) fun _ _ => ?_
  refine .run_bind (unlessAt_mirrors rfl (run_expr_mirrors hnested _)) fun cond cond' => ?_
  refine .run_bind (expectAs_mirrors _ _ rfl) fun _ _ => ?_
  refine .run_bind (unlessAt_mirrors rfl (forClause_mirrors hnested .post)) fun after after' => ?_
  refine .run_bind (loopBody_mirrors hnested) fun body body' => .run_pure ?_
  rintro ⟨⟨⟨⟨⟨⟨hknown, hfirst⟩, -⟩, hcond⟩, -⟩, hafter⟩, hbody⟩
  exact .forLoop (hkeyword hknown).tied hfirst hcond hafter hbody

theorem restOfLoop_mirrors {keyword keyword' : Token}
    (hkeyword : known → c.word keyword keyword') :
    MirrorsOrFailsAt c tight known here (restOfLoop nested keyword)
      (restOfLoop nested keyword') (Stmt.Alike c.like) := by
  apply header_mirrors (restOfLoop_reports hnested.accounts keyword)
  refine .run_step (.look (·.cursor.kind) (·.cursor.kind)
    (fun kind kind' => kind = .lbrace ↔ kind' = .lbrace) ?_ fun kind kind' => ?_)
  · exact fun _ _ _ hstart => hstart.1.kinds.eq_iff rfl
  have hkeyword (hknown : known ∧ (kind = .lbrace ↔ kind' = .lbrace)) := hkeyword hknown.1
  refine .run_ite (fun hknown => hknown.2) (fun _ => ?_) fun _ => ?_
  · exact .run_bind (loopBody_mirrors hnested) fun body body' =>
      .run_pure fun hknown => .forLoop (hkeyword hknown.1).tied .none .none .none hknown.2
  · refine run_header_mirrors _ (fun _ hstate => hstate.1) fun hasRange => ?_
    refine .run_ite (fun _ => .rfl) (fun _ => rangeLoop_mirrors hnested hkeyword) fun _ => ?_
    refine run_header_mirrors _ (fun _ hstate => hstate.1) fun hasClauses => ?_
    refine .run_ite (fun _ => .rfl) (fun _ => threeClauseLoop_mirrors hnested hkeyword)
      fun _ => ?_
    refine .run_bind (run_expr_mirrors hnested _) fun condition condition' => ?_
    refine .run_bind (loopBody_mirrors hnested) fun body body' => .run_pure fun hknown => ?_
    exact .forLoop (hkeyword hknown.1.1).tied .none (.some hknown.1.2) .none hknown.2

theorem loop_mirrors
    (hpre : ∀ state state', pre state state' → c.Near state state' ∧ Inside state) :
    MirrorsFrom c tight known pre (loop nested).run (loop nested).run
      (Outcome c (Stmt.Alike c.like)) := by
  refine .run_bind (.run_lift (advance_mirrorsFrom hpre)) fun keyword keyword' => ?_
  exact covering_mirrors (skipping_mirrors _ (restOfLoop_mirrors hnested fun hknown => hknown.2))
    fun hknown => hknown.2

end Loops

section Switches

theorem isDefaultClause_eq {stmt stmt' : Stmt} (halike : Stmt.Alike c.like stmt stmt') :
    isDefaultClause stmt' = isDefaultClause stmt := by
  cases halike with
  | clause hkeyword hvalues hcolon hbody =>
      simp [isDefaultClause, c.like_faithful.kind hkeyword]
  | _ => rfl

theorem any_isDefaultClause_eq {found found' : List Stmt}
    (hfound : List.Forall₂ (Stmt.Alike c.like) found found') :
    found'.any isDefaultClause = found.any isDefaultClause := by
  induction hfound with
  | nil => rfl
  | cons hstmt hrest ih => rw [List.any_cons, List.any_cons, isDefaultClause_eq hstmt, ih]

theorem strayCase_mirrors :
    MirrorsAt c tight known Inside strayCase strayCase (Stmt.Alike c.like) := by
  refine .bind (current_mirrors_inside fun _ hstate => hstate) fun start start' => ?_
  refine .bind (expectedHere_mirrors _ _) fun _ _ => ?_
  refine .bind (reportHere_mirrors fun hknown => hknown.2) fun bad bad' => ?_
  refine .bind (moveNext_mirrors fun hknown => .inl hknown.2.1) fun _ _ => ?_
  refine .bind (skip_mirrors (fun hknown => hknown.1.2.1) _) fun _ _ => ?_
  exact .bind (cover_mirrors (fun hknown => hknown.1.1.2) fun hknown => hknown.1.1.1.1.2)
    fun _ _ => .pure fun hknown => .bad hknown.2

variable (hnested : nested.Mirrors c)
include hnested

theorem caseValues_mirrors {keyword keyword' : Token}
    (hkeyword : known → c.word keyword keyword') :
    MirrorsAt c tight known here (caseValues nested keyword) (caseValues nested keyword')
      (List.Forall₂ (Expr.Alike c.like)) :=
  .ite (fun hknown => by rw [(hkeyword hknown).tied.kind]) (fun _ => exprList_mirrors hnested)
    fun _ => .pure fun _ => .nil

theorem caseClause_mirrors (hconfined : known → c.Confined tight)
    (hpre : ∀ state state', pre state state' → c.Near state state' ∧ Inside state) :
    MirrorsFrom c tight known pre (caseClause nested).run (caseClause nested).run
      (Outcome c (Stmt.Alike c.like)) := by
  refine .run_bind (.run_lift (advance_mirrorsFrom hpre)) fun keyword keyword' => ?_
  refine .run_bind (.run_lift (caseValues_mirrors hnested fun hknown => hknown.2))
    fun values values' => ?_
  refine .run_bind (expectAs_mirrors _ _ rfl) fun colon colon' => ?_
  refine .run_bind (.run_lift (stmtList_mirrors hnested
    (fun hknown => hconfined hknown.1.1.1) _)) fun body body' => .run_pure ?_
  rintro ⟨⟨⟨⟨hknown, hkeyword⟩, hvalues⟩, hcolon⟩, hbody⟩
  exact .clause hkeyword.tied hvalues hcolon.tied hbody

theorem caseStmt_mirrors (hconfined : known → c.Confined tight) {found found' : List Stmt}
    (hfound : known → List.Forall₂ (Stmt.Alike c.like) found found') :
    MirrorsAt c tight known Inside (caseStmt nested found) (caseStmt nested found')
      (Stmt.Alike c.like) := by
  refine .bind_meets (fun _ => Inside) (current_mirrors_inside fun _ hstate => hstate)
    (fun _ hstate => hstate) fun start start' => ?_
  refine .bind_run (caseClause_mirrors hnested (fun hknown => hconfined hknown.1)
    fun _ _ hstart => ⟨hstart.1.toNear, hstart.2⟩) (fun clause clause' => ?_) fun bad bad' => ?_
  · refine .ite (fun hknown => ?_) (fun _ => ?_) fun _ => .pure fun hknown => hknown.2
    · rw [isDefaultClause_eq hknown.2, any_isDefaultClause_eq (hfound hknown.1.1)]
    · refine .bind (report_mirrors fun hknown _ => ?_) fun _ _ =>
        .pure fun hknown => .bad hknown.2
      have hstart := hknown.1.2.tied
      exact ⟨⟨rfl, rfl, rfl, hstart, rfl⟩, hstart, hknown.2.last c.like_faithful⟩
  · refine .bind (skip_mirrors (fun hknown => hknown.2.1) _) fun _ _ => ?_
    exact .bind (cover_mirrors (fun hknown => hknown.1.2) fun hknown => hknown.1.1.2) fun _ _ =>
      .pure fun hknown => .bad hknown.2

theorem casePass_mirrors (hconfined : known → c.Confined tight) (found found' : List Stmt) :
    MirrorsAt c tight (known ∧ List.Forall₂ (Stmt.Alike c.like) found found') here
      (casePass nested found) (casePass nested found')
      (Turn (List.Forall₂ (Stmt.Alike c.like))) := by
  refine .kind_confined (fun hknown => hconfined hknown.1) fun kind => ?_
  refine .ite (fun _ => .rfl) (fun _ => .pure fun hknown => .done hknown.2) fun hkind => ?_
  have hinside : ∀ state, Facing kind state → Inside state := by
    apply inside_of_facing
    rintro rfl
    simp at hkind
  refine .ite (fun _ => .rfl) (fun _ => ?_) fun _ => .ite (fun _ => .rfl) (fun _ => ?_) fun _ => ?_
  · exact .bind (advance_mirrors hinside) fun _ _ => .pure fun hknown => .yield hknown.1.2
  · exact .bind (.strengthen (caseStmt_mirrors hnested (fun hknown => hconfined hknown.1)
      fun hknown => hknown.2) hinside) fun _ _ =>
        .pure fun hknown => .yield (.cons hknown.2 hknown.1.2)
  · exact .bind (strayCase_mirrors.strengthen hinside) fun _ _ =>
      .pure fun hknown => .yield (.cons hknown.2 hknown.1.2)

theorem caseList_mirrors (hconfined : known → c.Confined tight) :
    MirrorsAt c tight known here (caseList nested) (caseList nested)
      (List.Forall₂ (Stmt.Alike c.like)) :=
  .bind (repeatStep_mirrors (casePass_gains hnested.orderly)
    (casePass_mirrors hnested hconfined) fun _ => .nil) fun _ _ =>
      .pure fun hknown => List.rel_reverse hknown.2

theorem switchInit_mirrors (hhere : ∀ state, here state → c.Bounded state) :
    MirrorsOrFailsAt c tight known here (switchInit nested) (switchInit nested)
      (Option.Rel (Stmt.Alike c.like)) := by
  refine run_header_mirrors _ hhere fun found => ?_
  refine .run_ite (fun _ => .rfl) (fun _ => ?_) fun _ => .run_pure fun _ => .none
  refine .run_bind (simpleStmt_mirrors hnested) fun stmt stmt' => ?_
  exact .run_bind (expectAs_mirrors _ _ rfl) fun _ _ => .run_pure fun hknown => .some hknown.1.2

theorem restOfSwitch_mirrors {keyword keyword' : Token}
    (hkeyword : known → c.word keyword keyword') :
    MirrorsOrFailsAt c tight known here (restOfSwitch nested keyword)
      (restOfSwitch nested keyword') (Stmt.Alike c.like) := by
  apply header_mirrors (restOfSwitch_reports hnested.accounts keyword)
  refine .run_bind (switchInit_mirrors hnested fun _ hstate => hstate) fun first first' => ?_
  refine .run_bind (unlessAt_mirrors rfl (run_expr_mirrors hnested _)) fun tag tag' => ?_
  refine .run_bind (expectAs_mirrors _ _ rfl) fun opening opening' => ?_
  refine .run_step (.bind_closing (caseList_mirrors hnested fun _ => .inr rfl)
    (fun _ _ hstart => hstart.1.toNear) (fun cases => ?_) fun cases cases' => ?_)
  · refine .run_bind (.onFailure (expectAs_reports _ _ fun state hstate => ?_) fun bad =>
      cover_orderly _ bad) fun _ => .run_pure _
    simp [show state.cursor.kind = .eof from hstate]
  · refine .run_bind (covering_mirrors (expectAs_mirrors _ _ rfl) fun hknown =>
      hkeyword hknown.1.1.1.1) fun closing closing' => .run_pure ?_
    rintro ⟨⟨⟨⟨⟨hknown, hfirst⟩, htag⟩, hopening⟩, hcases⟩, hclosing⟩
    exact .switch (hkeyword hknown).tied hfirst htag
      (.intro hopening.tied hcases hclosing.tied)

theorem switch_mirrors
    (hpre : ∀ state state', pre state state' → c.Near state state' ∧ Inside state) :
    MirrorsFrom c tight known pre (switch nested).run (switch nested).run
      (Outcome c (Stmt.Alike c.like)) := by
  refine .run_bind (.run_lift (advance_mirrorsFrom hpre)) fun keyword keyword' => ?_
  exact covering_mirrors (skipping_mirrors _ (restOfSwitch_mirrors hnested fun hknown => hknown.2))
    fun hknown => hknown.2

end Switches

end OriSyntax.Grammar
