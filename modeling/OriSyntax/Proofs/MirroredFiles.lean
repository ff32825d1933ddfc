import OriSyntax.Proofs.MirroredLoops
import OriSyntax.Proofs.Termination

/-!
Whole files in two coupled runs: statements and expressions on all levels, top-level items,
and the loop over the items.
-/

namespace OriSyntax.Grammar

variable {α : Type} {c : Coupling} {tight : Bool} {known : Prop} {here : State → Prop}
  {pre : State → State → Prop} {nested : Nested}

open MirrorsFrom

/-- Whether a type declaration begins at the keyword is seen by both runs. -/
theorem Coupling.Near.atTypeDecl {state state' : State} (hnear : c.Near state state')
    (hinside : Inside state) : (atTypeDecl.run state').1 = (atTypeDecl.run state).1 := by
  have hname : state.cursor.kindAt 1 = .ident ↔ state'.cursor.kindAt 1 = .ident :=
    (hnear.kindAt 1 (.inr hinside.remaining_pos)).eq_iff rfl
  change (decide (state'.cursor.kindAt 1 = .ident) && decide (state'.cursor.kindAt 2 ∈ _)) =
    (decide (state.cursor.kindAt 1 = .ident) && decide (state.cursor.kindAt 2 ∈ _))
  by_cases hident : state.cursor.kindAt 1 = .ident
  · -- Behind the name there may be the end of the file, but no other token is looked at.
    have htwo : 2 ≤ state.cursor.remaining := by
      by_contra hshort
      have hend : state.cursor.ahead.length ≤ 1 := by
        rw [← Cursor.remaining_eq]
        omega
      simp [Cursor.kindAt, List.getElem?_eq_none hend] at hident
    have hkinds := hnear.kindAt 2 (.inr htwo)
    have hiff {kind : Kind} (hkind : kind.isInner) := hkinds.eq_iff hkind
    simp only [hident, hname.1 hident, List.mem_cons, List.not_mem_nil,
      hiff (show Kind.structKw.isInner from rfl), hiff (show Kind.interfaceKw.isInner from rfl),
      hiff (show Kind.enumKw.isInner from rfl), hiff (show Kind.sumKw.isInner from rfl)]
  · simp [hident, mt hname.2 hident]

/-- A statement begins here that is told by its first token: it has a reserved word in front,
or is a block. -/
def OpensStmt (state : State) : Prop :=
  state.cursor.kind ∈ [.constKw, .varKw, .returnKw, .ifKw, .forKw, .switchKw, .breakKw,
    .continueKw, .fallthroughKw, .lbrace] ∨
  state.cursor.kind = .typeKw ∧ (atTypeDecl.run state).1

section Stmts

variable (hnested : nested.Mirrors c)
include hnested

/-- Unless an expression comes first, the runs may look back at different tokens. -/
theorem stmtInside_mirrorsFrom (hconfined : known → c.Confined tight)
    (hpre : ∀ state state', pre state state' → c.Near state state' ∧ Inside state)
    (hsimple : MirrorsFrom c tight known (fun state state' => pre state state' ∧ ¬ OpensStmt state)
      (simpleStmt nested).run (simpleStmt nested).run (Outcome c (Stmt.Alike c.like))) :
    MirrorsFrom c tight known pre (stmtInside nested).run (stmtInside nested).run
      (Outcome c (Stmt.Alike c.like)) := by
  refine .run_step (.look_from (·.cursor.kind) (·.cursor.kind) Eq (fun _ state state' hstart => ?_)
    (.of_same id (fun kind kind' hsame => ?_) fun _ _ hkinds => hkinds.symm))
  · obtain ⟨hnear, hinside⟩ := hpre state state' hstart
    exact (hnear.kinds.resolve_right fun hend => hinside hend.2.1).symm
  obtain rfl : kind' = kind := hsame
  have hpre (state state' : State) (hstart : pre state state' ∧ kind' = state.cursor.kind) :
      c.Near state state' ∧ Inside state := hpre state state' hstart.1
  have hconfined (hknown : known ∧ kind' = kind') : c.Confined tight := hconfined hknown.1
  split
  case h_1 =>
    exact .run_bind (valueDecl_mirrors hnested _ hpre) fun _ _ =>
      .run_pure fun hknown => .const hknown.2
  case h_2 =>
    exact .run_bind (valueDecl_mirrors hnested _ hpre) fun _ _ =>
      .run_pure fun hknown => .var hknown.2
  case h_3 => exact .run_lift (returnStmt_mirrors hnested hconfined hpre)
  case h_4 => exact ifStmt_mirrors hnested hpre
  case h_5 => exact loop_mirrors hnested hpre
  case h_6 => exact switch_mirrors hnested hpre
  case h_7 | h_8 => exact branchStmt_mirrors hconfined hpre
  case h_9 => exact fallThroughStmt_mirrors hconfined hpre
  case h_10 =>
    refine .run_bind (block_mirrorsFrom hnested (expectAs_mirrorsFrom _ _ fun _ _ hstart => ?_))
      fun _ _ => .run_pure fun hknown => .block hknown.2
    exact ⟨(hpre _ _ hstart).1, (hpre _ _ hstart).2, hstart.2.symm⟩
  case h_11 =>
    have hlook : atTypeDecl = (do return (atTypeDecl.run (← get)).1) := rfl
    rw [hlook]
    refine .run_step (.look_from (fun state => (atTypeDecl.run state).1)
      (fun state => (atTypeDecl.run state).1) Eq (fun _ state state' hstart => ?_)
      fun decl decl' => .run_ite (fun hknown => by rw [hknown.2]) (fun _ => ?_) fun hdecl => ?_)
    · obtain ⟨hnear, hinside⟩ := hpre state state' hstart
      exact (hnear.atTypeDecl hinside).symm
    · exact .run_bind (typeDecl_mirrors hnested fun _ _ hstart => hpre _ _ hstart.1) fun _ _ =>
        .run_pure fun hknown => .decl hknown.2
    · refine hsimple.mono (fun hknown state _ hstart => ⟨hknown.1.1, hstart.1.1, ?_⟩)
        fun _ _ _ hvalue => hvalue
      rw [OpensStmt, ← hstart.1.2, ← hstart.2]
      simp [hdecl]
  case h_12 =>
    refine hsimple.mono (fun hknown state _ hstart => ⟨hknown.1, hstart.1, ?_⟩)
      fun _ _ _ hvalue => hvalue
    rw [OpensStmt, ← hstart.2]
    simp_all

theorem stmtInside_mirrors (hconfined : known → c.Confined tight) :
    MirrorsOrFailsAt c tight known Inside (stmtInside nested) (stmtInside nested)
      (Stmt.Alike c.like) :=
  stmtInside_mirrorsFrom hnested hconfined (fun _ _ hstart => ⟨hstart.1.toNear, hstart.2⟩)
    ((simpleStmt_mirrors hnested).mono (fun hknown _ _ hstart => ⟨hknown, hstart.1.1, trivial⟩)
      fun _ _ _ hvalue => hvalue)

end Stmts

/-- Whatever fails with a bad node that ends at the first token is an expression, even at the
end of the file. -/
theorem exprOf_mirrors {inside : Production Expr}
    (hinside : MirrorsOrFails c tight known inside inside (Expr.Alike c.like))
    (hfails : ∀ start bad, (inside.run.run start).1 = .error bad →
      bad.last = start.cursor.current) :
    MirrorsAt c tight known here (exprOf inside) (exprOf inside) (Expr.Alike c.like) := by
  refine .bind_both (fun token state => token = state.cursor.current)
    (fun token state => token = state.cursor.current) current_mirrors (fun _ _ _ => rfl)
    (fun _ _ _ => rfl) fun first first' => ?_
  -- The last tokens of both bad nodes are known from where they were made.
  have hrun : MirrorsFrom c tight (known ∧ (c.Together → c.tied first first'))
      (fun state state' => c.Relates state state' ∧ first = state.cursor.current ∧
        first' = state'.cursor.current) inside.run inside.run
      fun outcome outcome' => Outcome c (Expr.Alike c.like) outcome outcome' ∧
        ∀ bad bad', outcome = .error bad → outcome' = .error bad' →
          bad.last = first ∧ bad'.last = first' := by
    refine ⟨hinside.orderly, fun hknown start start' hstart hclean => ?_⟩
    obtain ⟨houtcome, hstop⟩ := hinside.ends hknown.1 start start' ⟨hstart.1, trivial⟩ hclean
    refine ⟨⟨houtcome, fun bad bad' hbad hbad' => ?_⟩, hstop⟩
    exact ⟨(hfails start bad hbad).trans hstart.2.1.symm,
      (hfails start' bad' hbad').trans hstart.2.2.symm⟩
  refine .bind hrun fun outcome outcome' => ?_
  match outcome, outcome' with
  | .ok expr, .ok expr' =>
      refine .pure fun hknown => ?_
      cases hknown.2.1 with
      | ok halike => exact halike
  | .error bad, .error bad' =>
      have hbad (houtcome : Outcome c (Expr.Alike c.like) (.error bad) (.error bad')) :
          c.like.bad bad bad' := by
        cases houtcome with
        | error hbad => exact hbad
      refine .bind (skip_mirrors (fun hknown => (hbad hknown.2.1).1) _) fun _ _ => ?_
      refine .bind (cover_mirrors_here (fun hknown => hbad hknown.1.2.1)
        (fun hknown => hknown.1.1.2) fun hknown => hknown.1.2.2 bad bad' rfl rfl) fun _ _ =>
          .pure fun hknown => .bad hknown.2
  | .ok expr, .error bad' => exact .of_not_known (.pure _) fun hknown => nomatch hknown.2.1
  | .error bad, .ok expr' =>
      refine .of_not_known ?_ fun hknown => nomatch hknown.2.1
      exact .bind (skip_orderly _) fun _ => .bind (cover_orderly _ _) fun _ => .pure _

theorem stmtOf_mirrors {inside : Production Stmt}
    (hpre : ∀ state state', pre state state' → c.Near state state' ∧ Inside state)
    (hinside : MirrorsFrom c tight known pre inside.run inside.run
      (Outcome c (Stmt.Alike c.like))) :
    MirrorsFrom c tight known pre (stmtOf inside) (stmtOf inside) (Stmt.Alike c.like) := by
  refine .look_from (·.cursor.current) (·.cursor.current) c.word
    (fun _ _ _ hstart => (hpre _ _ hstart).1.current_word (hpre _ _ hstart).2)
    fun first first' => ?_
  refine recoverWith_mirrors _ (hinside.mono (fun hknown _ _ hstart => ⟨hknown.1, hstart.1⟩)
    fun _ _ _ hvalue => hvalue) (fun hknown => hknown.2) fun _ _ hbad => .bad hbad

/-- A construct that is nested too deeply ends where it begins. -/
theorem failTooDeep_fails (start : State) (bad : BadNode)
    (hbad : ((failTooDeep : Production α).run.run start).1 = .error bad) :
    bad.last = start.cursor.current := by
  cases hbad
  rfl

theorem descend_fails (step : Step α) (start : State) (bad : BadNode)
    (hbad : ((descend (liftM step : Production α)).run.run start).1 = .error bad) :
    bad.last = start.cursor.current := by
  by_cases hroom : start.nesting < maxNesting
  · rw [descend_of_room hroom] at hbad
    cases hbad
  · rw [descend_of_limit (Nat.not_lt.1 hroom)] at hbad
    exact failTooDeep_fails start bad hbad

theorem nested_mirrors (levels : Nat) : (Grammar.nested levels).Mirrors c := by
  induction levels with
  | zero =>
      exact {
        accounts := nested_accounts 0
        expr := fun _ _ => exprOf_mirrors failTooDeep_mirrors failTooDeep_fails
        stmt := fun _ _ _ => stmtOf_mirrors (fun _ _ hstart => ⟨hstart.1.toNear, hstart.2⟩)
          failTooDeep_mirrors
        ifElse := fun _ _ => failTooDeep_mirrors }
  | succ levels ih =>
      exact {
        accounts := nested_accounts (levels + 1)
        expr := fun _ least => exprOf_mirrors
          (descend_mirrors (fun _ hstate => hstate) (.run_lift (exprInside_mirrors ih least)))
          (descend_fails _)
        stmt := fun _ _ hconfined => stmtOf_mirrors
          (fun _ _ hstart => ⟨hstart.1.toNear, hstart.2⟩)
          (descend_mirrors (fun _ hstate => hstate) (stmtInside_mirrors ih hconfined))
        ifElse := fun _ _ => descend_mirrors (fun _ hstate => hstate)
          (ifStmt_mirrors ih fun _ _ hstart => ⟨hstart.1.toNear, hstart.2⟩) }

theorem outermost_mirrors : outermost.Mirrors c := nested_mirrors maxNesting

theorem funcBody_mirrors :
    MirrorsOrFailsAt c tight known here funcBody funcBody
      (Enclosed.Alike c.like (Stmt.Alike c.like)) := by
  refine ⟨funcBody_orderly, fun hknown start start' hstart hclean => ?_⟩
  have hblock : MirrorsOrFails c tight known (block outermost) (block outermost)
      (Enclosed.Alike c.like (Stmt.Alike c.like)) := block_mirrors outermost_mirrors
  have henter : c.Relates { start with loopDepth := 0 } { start' with loopDepth := 0 } :=
    hstart.1.recount ⟨rfl, rfl⟩ ⟨rfl, rfl⟩ hstart.1.nesting rfl
  obtain ⟨hvalue, hstop⟩ := hblock.ends hknown _ _ ⟨henter, trivial⟩ hclean
  exact ⟨hvalue, hstop.recount ⟨rfl, rfl⟩ ⟨rfl, rfl⟩ hstop.nesting hstart.1.loopDepth⟩

/-- A function without a body is reported. -/
theorem funcBody_reports : Reports (Facing .eof) funcBody.run := by
  have hblock : Reports (Facing .eof) (block outermost).run :=
    block_reports outermost_accounts fun state hstate => by
      simp [show state.cursor.kind = .eof from hstate]
  exact fun start hstart => hblock { start with loopDepth := 0 } hstart

section Items

variable (hpre : ∀ state state', pre state state' → c.Near state state' ∧ Inside state)
include hpre

theorem funcDecl_mirrors :
    MirrorsFrom c tight known pre funcDecl.run funcDecl.run
      (Outcome c (FuncDecl.Alike c.like)) := by
  refine .run_bind (.run_lift (advance_mirrorsFrom hpre)) fun keyword keyword' => ?_
  refine .run_bind (expectName_mirrors _) fun name name' => ?_
  refine .run_bind (attempt_mirrors (paramList_mirrors true)) fun params params' => ?_
  -- Without a body the function is reported, so its results end before the end of the file.
  have hsettle (results : Except BadNode (Option Results)) (body : Except BadNode Block) :
      Orderly (do
        let params ← covering keyword (settle params)
        return ⟨keyword, name, params, ← settle results, ← settle body⟩ :
          Production FuncDecl).run :=
    .run_bind (covering_orderly _ (settle_orderly _)) fun _ => .run_bind (settle_orderly _)
      fun _ => .run_bind (settle_orderly _) fun _ => .run_pure _
  refine .run_step (.bind_closing (results_mirrors fun _ => .inr rfl)
    (fun _ _ hstart => hstart.1.toNear) (fun results => ?_) fun results results' => ?_)
  · exact .run_bind (.bind funcBody_reports fun _ => .pure _) (hsettle results)
  · refine .run_bind (attempt_mirrors funcBody_mirrors) fun body body' => ?_
    refine .run_bind (covering_mirrors (settle_mirrors fun hknown => hknown.1.1.2)
      fun hknown => hknown.1.1.1.1.2) fun params params' => ?_
    refine .run_bind (settle_mirrors fun hknown => hknown.1.1.2) fun results results' => ?_
    refine .run_bind (settle_mirrors fun hknown => hknown.1.1.2) fun body body' => .run_pure ?_
    rintro ⟨⟨⟨⟨⟨⟨⟨⟨hknown, hkeyword⟩, hname⟩, -⟩, -⟩, -⟩, hparams⟩, hresults⟩, hbody⟩
    exact .intro hkeyword.tied hname.tied hparams hresults hbody

/-- An `implements` declaration, read from its name on. -/
theorem implementsDecl_mirrors
    (hnext : ∀ state state', pre state state' → state.cursor.kindAt 1 = .implementsKw) :
    MirrorsFrom c tight known pre implementsDecl.run implementsDecl.run
      (Outcome c (ImplementsDecl.Alike c.like)) := by
  refine .run_step (.bind_both (fun _ => Facing .implementsKw) (fun _ _ => True)
    (advance_mirrorsFrom hpre) (fun state state' hstart => ?_) (fun _ _ _ => trivial)
    fun typeName typeName' => ?_)
  · exact (Cursor.kind_next (hpre _ _ hstart).2).trans (hnext state state' hstart)
  refine .run_bind (.run_lift (advance_mirrorsFrom fun state state' hstart =>
    ⟨hstart.1.toNear, inside_of_facing (by decide) state hstart.2.1⟩)) fun keyword keyword' => ?_
  refine .run_bind (qualifiedName_mirrors _) fun interface interface' => .run_pure ?_
  rintro ⟨⟨⟨hknown, htypeName⟩, hkeyword⟩, hinterface⟩
  exact .intro htypeName.tied hkeyword.tied hinterface

theorem fileVariable_mirrors :
    MirrorsFrom c tight known pre fileVariable.run fileVariable.run
      (Outcome c (Decl.Alike c.like)) := by
  refine .run_bind (valueDecl_mirrors outermost_mirrors _ hpre) fun decl decl' => ?_
  refine .run_bind (.run_lift (report_mirrors fun hknown _ => ?_)) fun bad bad' =>
    .run_pure fun hknown => .bad hknown.2
  have hlast := hknown.2.last c.like_faithful
  cases hknown.2 with
  | intro hkeyword hname htype heq hvalue =>
      exact ⟨⟨rfl, rfl, rfl, hkeyword, rfl⟩, hkeyword, hlast⟩

theorem strayItem_mirrors {rel : α → α → Prop} :
    MirrorsFrom c tight known pre (strayItem : Production α).run (strayItem : Production α).run
      (Outcome c rel) := by
  refine ⟨strayItem_consumes.orderly, fun hknown start start' hstart hclean => ?_⟩
  obtain ⟨hnear, hinside⟩ := hpre start start' hstart
  have hword := (hnear.current_word hinside).tied
  have halike : Diagnostic.Alike c.like
      (if start.cursor.current.kind = .illegal then .illegal start.cursor.current
        else .unexpectedAtFileScope start.cursor.current)
      (if start'.cursor.current.kind = .illegal then .illegal start'.cursor.current
        else .unexpectedAtFileScope start'.cursor.current) := by
    rw [hword.kind]
    split
    · exact .illegal c.like_faithful hword
    · exact ⟨rfl, rfl, by simp [Diagnostic.unexpectedAtFileScope, hword.value], hword, rfl⟩
  have htogether : c.Together := by
    by_contra hapart
    have hsize := (hclean hapart).1
    change (start.diagnostics.push _).size ≤ _ at hsize
    rw [Array.size_push] at hsize
    have htold := hnear.told_le
    omega
  -- The token is read after the report, which is the same as reading it before.
  exact ⟨.error ⟨htogether, hword, hword, halike.message⟩, (hnear.next hinside).report halike⟩

/-- An item, read from its first token on. -/
theorem item_mirrors :
    MirrorsFrom c tight known pre item item (Item.Alike c.like) := by
  refine .look_from (·.cursor.current) (·.cursor.current) c.word
    (fun _ _ _ hstart => (hpre _ _ hstart).1.current_word (hpre _ _ hstart).2)
    (.of_same Token.kind (fun first first' hkind => ?_) fun _ _ hword => hword.tied.kind)
  have hbad (bad bad' : BadNode) (hlike : c.like.bad bad bad') :
      Item.Alike c.like (.decl (.bad bad)) (.decl (.bad bad')) := .decl (.bad hlike)
  have hpre (state state' : State) (hstart : pre state state' ∧ first = state.cursor.current) :
      c.Near state state' ∧ Inside state := hpre state state' hstart.1
  dsimp only
  rw [hkind]
  split
  · refine recoverWith_mirrors _ (.run_bind (valueDecl_mirrors outermost_mirrors _ hpre)
      fun _ _ => .run_pure fun hknown => .const (.const hknown.2)) (fun hknown => hknown.2) ?_
    exact fun _ _ hlike => .const (.bad hlike)
  · exact recoverWith_mirrors _ (.run_bind (fileVariable_mirrors hpre) fun _ _ =>
      .run_pure fun hknown => .decl hknown.2) (fun hknown => hknown.2) hbad
  · exact recoverWith_mirrors _ (.run_bind (funcDecl_mirrors hpre) fun _ _ =>
      .run_pure fun hknown => .decl (.func hknown.2)) (fun hknown => hknown.2) hbad
  · exact recoverWith_mirrors _ (.run_bind (typeDecl_mirrors outermost_mirrors hpre) fun _ _ =>
      .run_pure fun hknown => .ofTypeDecl hknown.2) (fun hknown => hknown.2) hbad
  · refine .look_from (·.cursor.kindAt 1) (·.cursor.kindAt 1)
      (fun second second' => second = .implementsKw ↔ second' = .implementsKw) ?_
      fun second second' => .ite (fun hknown => hknown.2) (fun hsecond => ?_) fun _ => ?_
    · intro _ state state' hstart
      obtain ⟨hnear, hinside⟩ := hpre state state' hstart
      exact (hnear.kindAt 1 (.inr hinside.remaining_pos)).eq_iff rfl
    · refine recoverWith_mirrors _ (.run_bind (implementsDecl_mirrors
        (fun state state' hstart => hpre state state' hstart.1)
        fun _ _ hstart => hstart.2.symm.trans hsecond) fun _ _ => .run_pure fun hknown => ?_)
        (fun hknown => hknown.1.2) hbad
      exact .implements hknown.2
    · exact recoverWith_mirrors _ (strayItem_mirrors fun state state' hstart =>
        hpre state state' hstart.1) (fun hknown => hknown.1.2) hbad
  · exact recoverWith_mirrors _ (strayItem_mirrors hpre) (fun hknown => hknown.2) hbad

end Items

/-- Items that are alike, of which the first run had gathered some before. -/
def Coupling.Behind (c : Coupling) (earlier found found' : List Item) : Prop :=
  ∃ items, found = items ++ earlier ∧ List.Forall₂ (Item.Alike c.like) items found'

variable {earlier : List Item}

/-- A pass that is not the last one may begin where the runs look back at different tokens. -/
theorem itemPass_mirrorsFrom
    (hpre : ∀ state state', pre state state' → c.Near state state' ∧ Inside state)
    (found found' : List Item) :
    MirrorsFrom c tight (known ∧ c.Behind earlier found found') pre (itemPass outermost found)
      (itemPass outermost found') (Turn (c.Behind earlier)) := by
  refine .look_from (·.cursor.kind) (·.cursor.kind) Eq (fun _ state state' hstart => ?_)
    fun kind kind' => ?_
  · obtain ⟨hnear, hinside⟩ := hpre state state' hstart
    exact (hnear.kinds.resolve_right fun hend => hinside hend.2.1).symm
  have hpre (state state' : State) (hstart : pre state state' ∧ kind = state.cursor.kind) :
      c.Near state state' ∧ Inside state := hpre state state' hstart.1
  refine .ite (fun hknown => by rw [hknown.2]) (fun hkind => ?_) fun _ =>
    .ite (fun hknown => by rw [hknown.2]) (fun _ => ?_) fun _ => ?_
  · refine ⟨.pure _, fun _ state state' hstart => ?_⟩
    exact absurd (hstart.2.symm.trans hkind) (hpre state state' hstart).2
  · exact .bind (advance_mirrorsFrom hpre) fun _ _ =>
      .pure fun hknown => .yield hknown.1.1.2
  · refine .bind (item_mirrors hpre) fun item item' => .pure fun hknown => .yield ?_
    obtain ⟨items, rfl, hitems⟩ := hknown.1.1.2
    exact ⟨item :: items, rfl, .cons hknown.2 hitems⟩

theorem itemPass_gives_done {state : State} (hkind : state.cursor.kind = .eof)
    (found : List Item) : Gives (itemPass outermost found) state (.done found) state := by
  apply Gives.look hkind
  exact .pure _ _

/-- The last pass changes nothing. -/
theorem itemPass_done {found result : List Item} {state stop : State}
    (hdone : Gives (itemPass outermost found) state (.done result) stop) :
    state.cursor.kind = .eof ∧ result = found ∧ stop = state := by
  by_cases heof : state.cursor.kind = .eof
  · cases (itemPass_gives_done heof found).symm.trans hdone
    exact ⟨heof, rfl, rfl⟩
  by_cases hsemicolon : state.cursor.kind = .semicolon
  · have hyield : Gives (itemPass outermost found) state (.yield found)
        (state.moveTo state.cursor.next) := by
      apply Gives.look hsemicolon
      exact .bind rfl (.pure _ _)
    cases hyield.symm.trans hdone
  · have hyield : Gives (itemPass outermost found) state (.yield ((item.run state).1 :: found))
        (item.run state).2 := by
      apply Gives.look rfl
      apply Gives.of_neg heof
      apply Gives.of_neg hsemicolon
      exact .bind rfl (.pure _ _)
    cases hyield.symm.trans hdone

/-- The rounds up to the end of the file gather the items. -/
theorem items_gives_of_rounds {start : State} {last : List Item × State}
    (hrounds : Relation.ReflTransGen (Round itemPass) ([], start) last)
    (hkind : last.2.cursor.kind = .eof) : Gives items start last.1.reverse last.2 :=
  .bind (.repeatStep itemPass_gains hrounds (itemPass_gives_done hkind last.1)) (.pure _ _)

theorem exists_rounds (found : List Item) (start : State) :
    ∃ last, Relation.ReflTransGen (Round itemPass) (found, start) last ∧
      last.2.cursor.kind = .eof := by
  obtain ⟨last, result, stop, hrounds, hdone⟩ := exists_last_pass itemPass_gains found start
  exact ⟨last, hrounds, (itemPass_done hdone).1⟩

/-- The rounds of one run are followed by the other one. -/
theorem rounds_mirror {start start' : State} {found found' : List Item}
    {last : List Item × State} (hnear : c.Near start start')
    (hfound : c.Behind earlier found found')
    (hrounds : Relation.ReflTransGen (Round itemPass) (found, start) last)
    (hclean : c.Clean false last.2) :
    ∃ last', Relation.ReflTransGen (Round itemPass) (found', start') last' ∧
      c.Behind earlier last.1 last'.1 ∧ c.Near last.2 last'.2 ∧
        (c.Relates start start' → c.Relates last.2 last'.2) := by
  induction hrounds with
  | refl => exact ⟨(found', start'), .refl, hfound, hnear, id⟩
  | @tail here there _ hround ih =>
      have hfollows := itemPass_orderly here.1 here.2
      rw [show (itemPass outermost here.1).run here.2 = _ from hround] at hfollows
      obtain ⟨here', hrounds, hfound, hnear, -⟩ := ih (hclean.before hfollows)
      have hinside : Inside here.2 := by
        intro hkind
        have hdone := itemPass_gives_done hkind here.1
        cases hdone.symm.trans hround
      have hmirrors : MirrorsFrom c false (True ∧ c.Behind earlier here.1 here'.1)
          (fun state state' => state = here.2 ∧ state' = here'.2) (itemPass outermost here.1)
          (itemPass outermost here'.1) (Turn (c.Behind earlier)) :=
        itemPass_mirrorsFrom (fun _ _ hstart => by rw [hstart.1, hstart.2]; exact ⟨hnear, hinside⟩)
          here.1 here'.1
      have hends := hmirrors.ends ⟨trivial, hfound⟩ here.2 here'.2 ⟨rfl, rfl⟩
      rw [show (itemPass outermost here.1).run here.2 = _ from hround] at hends
      obtain ⟨hturn, hrelates⟩ := hends hclean
      cases hpass : (itemPass outermost here'.1).run here'.2 with
      | mk turn stop =>
          rw [hpass] at hturn hrelates
          cases hturn with
          | yield hfound =>
              exact ⟨(_, stop), hrounds.tail hpass, hfound, hrelates.toNear, fun _ => hrelates⟩

/-- Where both runs end at once, their items are alike. -/
theorem items_mirrors (htogether : known → c.Together) :
    MirrorsAt c tight known here items items (List.Forall₂ (Item.Alike c.like)) := by
  refine ⟨items_orderly, fun hknown start start' hstart hclean => ?_⟩
  obtain ⟨last, hrounds, hkind⟩ := exists_rounds [] start
  obtain ⟨last', hrounds', ⟨found, hfound, halike⟩, hnear, hrelates⟩ :=
    rounds_mirror hstart.1.toNear ⟨[], rfl, .nil⟩ hrounds
      fun hapart => absurd (htogether hknown) hapart
  have hkind' : last'.2.cursor.kind = .eof :=
    (hnear.kinds.resolve_right fun hend => hend.1 (htogether hknown)).trans hkind
  rw [items_gives_of_rounds hrounds hkind, items_gives_of_rounds hrounds' hkind']
  rw [List.append_nil] at hfound
  rw [hfound]
  exact ⟨List.rel_reverse halike, hrelates hstart.1⟩

theorem packageClause_mirrors :
    MirrorsOrFailsAt c tight known here packageClause packageClause
      fun clause clause' => c.word clause.1 clause'.1 ∧ c.word clause.2 clause'.2 := by
  refine .run_step (.kind_or_reports (fun kind => ?_) (Reports.failExpected _ _))
  refine .run_ite (fun _ => .rfl) (fun hkind => ?_) fun _ => failExpected_mirrors _ _
  refine .run_bind (.run_lift (advance_mirrors (inside_of_facing ?_))) fun keyword keyword' => ?_
  · simp [hkind]
  · exact .run_bind (covering_mirrors (expectName_mirrors _) fun hknown => hknown.2)
      fun name name' => .run_pure fun hknown => ⟨hknown.1.2, hknown.2⟩

theorem file_mirrors (htogether : known → c.Together) :
    MirrorsAt c tight known here file file (File.Alike c.like) := by
  refine .bind_run packageClause_mirrors (fun clause clause' => ?_) fun bad bad' => ?_
  · refine .bind (items_mirrors fun hknown => htogether hknown.1) fun _ _ =>
      .pure fun hknown => ?_
    exact .ofItems (.inl ⟨hknown.1.2.1.tied, hknown.1.2.2.tied⟩) hknown.2
  · refine .bind (items_mirrors fun hknown => htogether hknown.1) fun _ _ =>
      .pure fun hknown => ?_
    exact .ofItems (.inr ⟨⟨rfl, rfl⟩, rfl, rfl⟩) (.cons (.decl (.bad hknown.1.2)) hknown.2)

end OriSyntax.Grammar
