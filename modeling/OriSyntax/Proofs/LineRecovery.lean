import OriSyntax.Proofs.DeclComplete
import OriSyntax.Proofs.Failing
import OriSyntax.Proofs.Rejoining

/-!
Recovery at the end of a line.  A constant or a variable without `=` and value is read up to
the token in whose place the `=` should stand, which begins the next line.  If that token
begins an expression, it is read past, and the rest of its line with it; if not, the next line
is read as if nothing had gone before.
-/

namespace OriSyntax.Grammar

variable {α β : Type} {start middle stop : State} {here : State → Prop} {nested : Nested}

theorem Reports.repeatStep {pass : β → Step (ForInStep β)} (hgains : Gains pass)
    (horderly : ∀ found, Orderly (pass found)) {found : β} (hpass : Reports here (pass found)) :
    Reports here (repeatStep pass found) := by
  intro start hstart
  have hfirst := hpass start hstart
  cases hturn : (pass found).run start with
  | mk turn middle =>
      rw [hturn] at hfirst
      cases turn with
      | done result =>
          have hdone : Gives (pass found) start (.done result) middle := hturn
          rw [hdone.repeatStep hgains .refl]
          exact hfirst
      | yield next =>
          have hround : Round pass (found, start) (next, middle) := hturn
          rw [repeatStep_run_of_round hgains hround]
          exact Nat.lt_of_lt_of_le hfirst (repeatStep_orderly horderly next middle).reaches.size_le

theorem failTooDeep_reports : Reports here (failTooDeep : Production α).run :=
  .run_look fun _ => .failHere _

theorem Reports.descend {production : Production α}
    (hproduction : Reports (fun state => ∃ outer, here outer ∧ state = outer.deeper)
      production.run) : Reports here (descend production).run := by
  intro start hstart
  by_cases hroom : start.nesting < maxNesting
  · rw [descend_of_room hroom]
    exact hproduction start.deeper ⟨start, hstart, rfl⟩
  · rw [descend_of_limit (Nat.not_lt.1 hroom)]
    exact failTooDeep_reports start hstart

theorem Reports.recoverWith {production : Production α} (rule : Skip.Rule) (first : Token)
    (ofBad : BadNode → α) (hproduction : Reports here production.run) :
    Reports here (recoverWith rule first ofBad production) := by
  apply Reports.bind hproduction
  intro outcome
  cases outcome with
  | ok value => exact .pure _
  | error bad =>
      exact .bind (skip_orderly rule) fun _ => .bind (cover_orderly _ _) fun _ => .pure _

/-- A token that begins no expression is reported where an operand should stand. -/
theorem operand_reports (hhere : ∀ state, here state → state.cursor.kind.beginsExpr = false) :
    Reports here (operand nested).run := by
  refine .run_look fun kind => ?_
  split
  case h_9 =>
    exact .run_look fun _ => .run_bind (.reportHere _) fun _ =>
      .run_bind (.run_lift skipUnexpected_orderly) fun _ => .run_throw _
  all_goals
    rintro state ⟨hstate, hkind⟩
    have hbegins := hhere state hstate
    rw [← hkind] at hbegins
    exact absurd hbegins (by decide)

theorem exprInside_reports (hnested : nested.Orderly) (least : Precedence)
    (hhere : ∀ state, here state → state.cursor.kind.beginsExpr = false) :
    Reports here (exprInside nested least) := by
  apply Reports.bind (operand_reports hhere)
  intro outcome
  cases outcome with
  | ok left => exact repeatStep_orderly (exprPass_orderly hnested least) left
  | error bad => exact .pure _

theorem exprOf_reports {inside : Production Expr} (hinside : Reports here inside.run) :
    Reports here (exprOf inside) :=
  .look fun _ => .recoverWith _ _ _ (hinside.strengthen fun _ hstate => hstate.1)

theorem stmtOf_reports {inside : Production Stmt} (hinside : Reports here inside.run) :
    Reports here (stmtOf inside) :=
  .look fun _ => .recoverWith _ _ _ (hinside.strengthen fun _ hstate => hstate.1)

theorem nested_expr_reports (levels : Nat) (least : Precedence)
    (hhere : ∀ state, here state → state.cursor.kind.beginsExpr = false) :
    Reports here ((Grammar.nested levels).expr least) := by
  cases levels with
  | zero => exact exprOf_reports failTooDeep_reports
  | succ levels =>
      refine exprOf_reports (.descend ?_)
      apply exprInside_reports (nested_orderly levels) least
      rintro _ ⟨outer, houter, rfl⟩
      exact hhere outer houter

theorem simpleStmt_reports (levels : Nat)
    (hhere : ∀ state, here state → state.cursor.kind.beginsExpr = false) :
    Reports here (simpleStmt (Grammar.nested levels)).run := by
  have horderly := nested_orderly levels
  apply Reports.run_bind (nested_expr_reports levels _ hhere)
  intro expr
  split
  · exact .run_throw _
  · refine .run_bind get_orderly fun _ => .run_ite ?_ (.run_ite ?_ (.run_ite ?_ ?_))
    · exact .run_bind advance_orderly fun _ =>
        .run_bind (horderly.expr _) fun _ => .run_pure _
    · exact .run_bind advance_orderly fun _ => .run_pure _
    · exact .run_pure _
    · exact fail_orderly _ _ _

/-- What opens no statement and begins no expression is reported where a statement should
stand. -/
theorem stmtInside_reports (levels : Nat)
    (hhere : ∀ state, here state → ¬ OpensStmt state ∧ state.cursor.kind.beginsExpr = false) :
    Reports here (stmtInside (Grammar.nested levels)).run := by
  have hsimple := simpleStmt_reports levels fun state hstate => (hhere state hstate).2
  refine .run_look fun kind => ?_
  split
  case h_11 =>
    have hlook : atTypeDecl = (do return (atTypeDecl.run (← get)).1) := rfl
    rw [hlook]
    refine .run_look fun decl => .run_ite (fun hdecl => ?_) fun _ =>
      hsimple.strengthen fun _ hstate => hstate.1.1
    rintro state ⟨⟨hstate, hkind⟩, hseen⟩
    exact absurd (.inr ⟨hkind.symm, hseen.symm.trans hdecl⟩) (hhere state hstate).1
  case h_12 => exact hsimple.strengthen fun _ hstate => hstate.1
  all_goals
    rintro state ⟨hstate, hkind⟩
    exact absurd (.inl (by simp [← hkind])) (hhere state hstate).1

theorem nested_stmt_reports (levels : Nat)
    (hhere : ∀ state, here state → ¬ OpensStmt state ∧ state.cursor.kind.beginsExpr = false) :
    Reports here (Grammar.nested levels).stmt := by
  cases levels with
  | zero => exact stmtOf_reports failTooDeep_reports
  | succ levels =>
      refine stmtOf_reports (.descend (stmtInside_reports levels ?_))
      rintro _ ⟨outer, houter, rfl⟩
      exact hhere outer houter

section Broken

variable {keyword name type first : Token} {rest : List Token}

/-- A constant or a variable without `=` fails at the token behind its type. -/
theorem valueDecl_fails (what : String)
    (hahead : start.cursor.ahead = keyword :: name :: type :: first :: rest)
    (hname : name.kind = .ident) (htype : type.kind.isValueType) (heq : first.kind ≠ .assign)
    (hlegal : first.kind ≠ .illegal) :
    Fails (valueDecl nested what) start ⟨first, first, "expected '='"⟩
      ((start.tell (.expected .unexpectedToken "'='" first)).moveTo
        start.cursor.next.next.next.pastUnexpected) := by
  have hahead₁ := Cursor.ahead_next_of_cons hahead
  have hahead₂ := Cursor.ahead_next_of_cons hahead₁
  have hahead₃ := Cursor.ahead_next_of_cons hahead₂
  have hkind := Cursor.kind_of_ahead_eq_cons hahead₂
  have htyped : Succeeds (unlessAt .assign (liftM (typeName Kind.isValueType "type")))
      (start.moveTo start.cursor.next.next) (some (.named start.cursor.next.next.current))
      (start.moveTo start.cursor.next.next.next) := by
    refine unlessAt_some (Kind.ne_of_holds (hkind ▸ htype) rfl) (.lift (Gives.look rfl ?_))
    exact Gives.of_pos (hkind ▸ htype) rfl
  refine .of_next readsNext_advance (.of_next (readsNext_expectAs _ _ ?_) (.of_next htyped ?_))
  · exact (Cursor.kind_of_ahead_eq_cons hahead₁).trans hname
  · have hlast := Cursor.kind_of_ahead_eq_cons hahead₃
    have hfails : Fails (expect .assign "'='") (start.moveTo start.cursor.next.next.next)
        ⟨start.cursor.next.next.next.current, start.cursor.next.next.next.current, "expected '='"⟩
        ((start.tell (.expected .unexpectedToken "'='" start.cursor.next.next.next.current)).moveTo
          start.cursor.next.next.next.pastUnexpected) :=
      expectAs_fails _ _ (hlast ▸ heq) (hlast ▸ hlegal)
    rw [Cursor.current_of_cons hahead₃] at hfails
    exact .of_first hfails

/-- The statement is bad up to the end of the line that follows a token that is read past. -/
theorem nested_stmt_of_missing_eq (levels : Nat) (hroom : start.nesting < maxNesting)
    (hahead : start.cursor.ahead = keyword :: name :: type :: first :: rest)
    (hkeyword : keyword.kind ∈ [.constKw, .varKw])
    (hname : name.kind = .ident) (htype : type.kind.isValueType) (heq : first.kind ≠ .assign)
    (hlegal : first.kind ≠ .illegal) {last : Cursor}
    (hlast : start.cursor.next.next.next.pastUnexpected.skip .statement = last) :
    Gives (Grammar.nested (levels + 1)).stmt start
      (.bad ⟨keyword, laterToken (laterToken first last.previous) keyword, "expected '='"⟩)
      ((start.tell (.expected .unexpectedToken "'='" first)).moveTo last) := by
  have hinside : Fails (stmtInside (Grammar.nested levels)) start.deeper
      ⟨first, first, "expected '='"⟩
      (((start.tell (.expected .unexpectedToken "'='" first)).moveTo
        start.cursor.next.next.next.pastUnexpected).deeper) := by
    have hvalue (what : String) : Fails (valueDecl (Grammar.nested levels) what) start.deeper
        ⟨first, first, "expected '='"⟩ _ :=
      valueDecl_fails what hahead hname htype heq hlegal
    have hkind : start.cursor.kind = keyword.kind := Cursor.kind_of_ahead_eq_cons hahead
    simp only [List.mem_cons, List.not_mem_nil, or_false] at hkeyword
    rcases hkeyword with hconst | hvar
    · exact .look (hkind.trans hconst) (.of_first (hvalue _))
    · exact .look (hkind.trans hvar) (.of_first (hvalue _))
  subst hlast
  have hstmt : Gives (recoverWith .statement keyword Stmt.bad
      (descend (stmtInside (Grammar.nested levels)))) start _ _ :=
    .recoverWith_of_fails _ _ _ (.descend hroom hinside)
  exact Gives.look (Cursor.current_of_cons hahead) hstmt

end Broken

/-- Recovery needs to see what opens a statement, and what ends one. -/
theorem pastUnexpected_eq_self {state : State} {cursor : Cursor}
    (hsame : cursor.kind = state.cursor.kind)
    (hkind : state.cursor.kind ∈ [.rbrace, .semicolon] ∨ OpensStmt state) :
    cursor.pastUnexpected = cursor := by
  have hkept : ∀ kind : Kind, kind ∈ [.constKw, .varKw, .returnKw, .ifKw, .forKw, .switchKw,
      .breakKw, .continueKw, .fallthroughKw, .lbrace, .typeKw, .rbrace, .semicolon] →
      (kind.isClosing || kind.isKeyword || kind = .lbrace) = true := by
    decide
  apply if_pos
  rw [hsame]
  apply hkept
  rcases hkind with hkind | hkind | ⟨hkind, -⟩
  · exact List.mem_append_right [.constKw, .varKw, .returnKw, .ifKw, .forKw, .switchKw, .breakKw,
      .continueKw, .fallthroughKw, .lbrace, .typeKw] hkind
  · exact List.mem_append_left [.typeKw, .rbrace, .semicolon] hkind
  · rw [hkind]
    decide

/-- It does not need to see what begins an expression. -/
theorem pastUnexpected_eq_next {cursor : Cursor} (hkind : cursor.kind.beginsExpr) :
    cursor.pastUnexpected = cursor.next := by
  have hpassed : ∀ kind : Kind, kind.beginsExpr →
      ¬ (kind.isClosing || kind.isKeyword || kind = .lbrace) = true := by
    intro kind
    cases kind <;> decide
  exact if_neg (hpassed _ hkind)

theorem statement_stops {cursor : Cursor} {before first : Token} {rest : List Token}
    (hahead : cursor.ahead = before :: first :: rest)
    (hnext : cursor.next.ahead = first :: rest)
    (hline : before.line < first.line ∨ first.kind = .rbrace) :
    Skip.statement 0 cursor.next.opensLine cursor.next.kind = .stop := by
  rw [Cursor.opensLine_next hahead, Cursor.current_of_cons hnext,
    Cursor.kind_of_ahead_eq_cons hnext]
  rcases hline with hline | hkind
  · simp [Skip.statement, hline]
  · simp [Skip.statement, hkind, KindSet.stmtEnd, KindSet.contains_ofList]

/-- If a body is read without a report, its first token ends it, is a semicolon, or begins a
statement. -/
theorem begins_of_silent {state : State} {opening : Token} {levels : Nat}
    (hinside : Inside state)
    (hsilent : ((restOfBlock opening (restOfStmts (Grammar.nested levels) (· = .rbrace)
      [])).run.run state).2.diagnostics.size ≤ state.diagnostics.size) :
    state.cursor.kind ∈ [.rbrace, .semicolon] ∨ OpensStmt state ∨
      state.cursor.kind.beginsExpr := by
  by_contra! hother
  obtain ⟨hends, hopens, hbegins⟩ := hother
  have horderly := nested_orderly levels
  have hstmt : Reports (· = state) (steppingStmt (Grammar.nested levels)) := by
    refine .look fun _ => .bind ?_ fun _ => ?_
    · refine (nested_stmt_reports levels ?_).strengthen fun _ hstate => hstate.1
      rintro _ rfl
      exact ⟨hopens, by simpa using hbegins⟩
    · exact .bind get_orderly fun _ => .ite (.bind moveNext_orderly fun _ => .pure _) (.pure _)
  have hpass : Reports (· = state) (stmtPass (Grammar.nested levels) (· = .rbrace) []) := by
    refine .look fun kind => ?_
    split_ifs with hstops hsemicolon
    · rintro _ ⟨rfl, rfl⟩
      exact absurd hstops (by simp_all [Inside])
    · rintro _ ⟨rfl, rfl⟩
      exact absurd hsemicolon (by simp_all)
    · exact .bind (hstmt.strengthen fun _ hstate => hstate.1) fun _ => .pure _
  have hlist := Reports.repeatStep (stmtPass_gains horderly _) (stmtPass_orderly horderly _) hpass
  have hblock : Reports (· = state) (restOfBlock opening (restOfStmts (Grammar.nested levels)
      (· = .rbrace) [])).run := by
    have hstmts : Reports (· = state) (restOfStmts (Grammar.nested levels) (· = .rbrace) []) :=
      .bind hlist fun _ => .pure _
    refine .run_bind hstmts fun _ => ?_
    exact .run_bind (covering_orderly _ (expect_orderly _ _)) fun _ => .run_pure _
  exact absurd hsilent (Nat.not_le.2 (hblock state rfl))

section Behind

variable {state state' : State} {levels : Nat}

theorem nested_stmt_mirrorsFrom {c : Coupling} (htogether : c.Together) :
    MirrorsFrom c false True
      (fun state state' => c.Near state state' ∧ Inside state ∧
        (OpensStmt state ∧ state.nesting < maxNesting))
      (Grammar.nested (levels + 1)).stmt (Grammar.nested (levels + 1)).stmt
      (Stmt.Alike c.like) := by
  have hinside : MirrorsFrom c false True
      (fun state state' => c.Near state state' ∧ Inside state ∧ OpensStmt state)
      (stmtInside (Grammar.nested levels)).run (stmtInside (Grammar.nested levels)).run
      (Outcome c (Stmt.Alike c.like)) := by
    refine stmtInside_mirrorsFrom (nested_mirrors levels) (fun _ => .inl htogether)
      (fun _ _ hstart => ⟨hstart.1, hstart.2.1⟩) ⟨simpleStmt_orderly (nested_orderly levels), ?_⟩
    exact fun _ _ _ hstart => absurd hstart.1.2.2 hstart.2
  refine stmtOf_mirrors (fun _ _ hstart => ⟨hstart.1, hstart.2.1⟩)
    (descend_mirrorsFrom ?_ ?_ hinside)
  · exact fun _ _ hstart => ⟨hstart.1.nesting, hstart.2.2.2⟩
  · rintro state state' ⟨hnear, hinside, hopens, -⟩
    exact ⟨⟨hnear.placed, congrArg (· + 1) hnear.nesting, hnear.loopDepth, hnear.reports⟩,
      hinside, hopens⟩

theorem steppingStmt_accords_opening :
    Accords (fun state state' => state.SameAhead state' ∧ Inside state ∧
        (OpensStmt state ∧ state.nesting < maxNesting))
      (steppingStmt (Grammar.nested (levels + 1))) (steppingStmt (Grammar.nested (levels + 1))) Eq
      State.Alongside :=
  .of_mirrorsFrom (fun _ htogether => steppingStmt_mirrorsFrom (fun _ => .inl htogether)
      (fun _ _ hstart => hstart.1) (nested_stmt_mirrorsFrom htogether))
    fun _ hexact _ _ halike => (halike.eq hexact).symm

/-- Where recovery needs to see the next token, what is left of a block is read in the same
way behind a broken statement. -/
theorem restOfBlock_behind_bad {opening : Token} {body : Block} (hsame : state.SameAhead state')
    (hroom : state.nesting < maxNesting) (hinside : Inside state)
    (hbegins : state.cursor.kind ∈ [.rbrace, .semicolon] ∨ OpensStmt state)
    (hbody : Succeeds (restOfBlock opening (restOfStmts (Grammar.nested (levels + 1))
      (· = .rbrace) [])) state body stop) (bad : Stmt) :
    ∃ stop', Succeeds (restOfBlock opening (restOfStmts (Grammar.nested (levels + 1))
        (· = .rbrace) [bad])) state' ⟨body.opening, bad :: body.items, body.closing⟩ stop' ∧
      stop.Alongside stop' ∧ SameReports state state' stop stop' := by
  have hlist : Accords (fun start start' => start = state ∧ start' = state')
      (restOfStmts (Grammar.nested (levels + 1)) (· = .rbrace) [])
      (restOfStmts (Grammar.nested (levels + 1)) (· = .rbrace) [bad])
      (fun stmts stmts' => stmts'.reverse = stmts.reverse ++ [bad]) (Ended (· = .rbrace)) := by
    have hcons (stmt : Stmt) (found found' : List Stmt) (hfound : found' = found ++ [bad]) :
        stmt :: found' = stmt :: found ++ [bad] := by
      rw [hfound, List.cons_append]
    refine restOfStmts_accords ?_ (steppingStmt_accords_opening.strengthen ?_) hcons rfl
    · rintro start start' ⟨rfl, rfl⟩
      exact ⟨hsame, hinside⟩
    · rintro start start' ⟨⟨rfl, rfl⟩, hstops, hsemicolon⟩
      refine ⟨hsame, hinside, hbegins.resolve_left ?_, hroom⟩
      simpa [hsemicolon] using hstops
  obtain ⟨hvalue, hstop, hreports⟩ := restOfBlock_accords opening hlist state state' ⟨rfl, rfl⟩
  rw [hbody] at hvalue hstop hreports
  cases hother : (restOfBlock opening (restOfStmts (Grammar.nested (levels + 1)) (· = .rbrace)
    [bad])).run.run state' with
  | mk outcome stop' =>
      rw [hother] at hvalue hstop hreports
      cases hvalue with
      | @ok _ other hrelated =>
          obtain ⟨hitems, hopening, hclosing⟩ := hrelated
          have hitems : other.items = bad :: body.items := by
            rw [← List.reverse_reverse other.items, hitems]
            simp
          refine ⟨stop', ?_, hstop, hreports⟩
          rw [← hopening, ← hclosing, ← hitems]
          exact hother

end Behind

theorem funcBody_succeeds_iff {body : Block} (hkind : start.cursor.kind = .lbrace) :
    Succeeds funcBody start body stop ↔
      ∃ last, Succeeds (restOfBlock start.cursor.current
          (restOfStmts outermost (· = .rbrace) [])) start.inBody body last ∧
        { last with loopDepth := start.loopDepth } = stop := by
  rw [Succeeds, Gives, funcBody_run hkind]
  unfold Succeeds Gives
  generalize (restOfBlock start.cursor.current (restOfStmts outermost (· = .rbrace)
    [])).run.run start.inBody = result
  obtain ⟨outcome, last⟩ := result
  constructor
  · intro hstop
    cases hstop
    exact ⟨last, rfl, rfl⟩
  · rintro ⟨_, hlast, rfl⟩
    cases hlast
    rfl

/-- Where the `=` should stand, there is no token that is illegal. -/
theorem ne_of_begins {state : State} (hbegins : state.cursor.kind ∈ [.rbrace, .semicolon] ∨
      OpensStmt state ∨ state.cursor.kind.beginsExpr) :
    state.cursor.kind ≠ .assign ∧ state.cursor.kind ≠ .illegal := by
  rw [OpensStmt] at hbegins
  constructor
  all_goals
    intro hkind
    simp [hkind, Kind.beginsExpr] at hbegins

theorem exists_outermost_eq : ∃ levels, outermost = Grammar.nested (levels + 1) :=
  ⟨maxNesting - 1, rfl⟩

/-- A statement that is bad in front of a body, and ends where recovery needs to see the next
token, changes nothing else. -/
theorem funcBody_behind_bad {start' last : State} {body : Block} {bad : Stmt} {run : List Token}
    (hown : Succeeds funcBody start body stop) (hclean : stop.diagnostics = start.diagnostics)
    (hkind : start.cursor.kind = .lbrace) (hcurrent : start'.cursor.current = start.cursor.current)
    (hroom : start.nesting < maxNesting) (hinside : Inside start.inBody)
    (hbegins : start.inBody.cursor.kind ∈ [.rbrace, .semicolon] ∨ OpensStmt start.inBody)
    (hkeyword : start'.inBody.cursor.kind ∈ [.constKw, .varKw])
    (hstmt : Gives outermost.stmt start'.inBody bad last)
    (hreads : start'.inBody.cursor.Reads run last.cursor) (hrun : run ≠ [])
    (hsame : start.inBody.SameAhead last) :
    ∃ stop', Succeeds funcBody start' ⟨body.opening, bad :: body.items, body.closing⟩ stop' ∧
      stop'.cursor.ahead = stop.cursor.ahead ∧ stop'.diagnostics = last.diagnostics := by
  obtain ⟨levels, hlevels⟩ := exists_outermost_eq
  obtain ⟨ownLast, hownBlock, rfl⟩ := (funcBody_succeeds_iff hkind).1 hown
  rw [hlevels] at hownBlock
  obtain ⟨stop', hstop', hsame', added, hadded, hadded'⟩ :=
    restOfBlock_behind_bad hsame hroom hinside hbegins hownBlock bad
  rw [← hlevels] at hstop'
  have hround : Round (stmtPass outermost (· = .rbrace)) ([], start'.inBody) ([bad], last) := by
    simp only [List.mem_cons, List.not_mem_nil, or_false] at hkeyword
    apply stmtPass_round _ _ _ hstmt hreads hrun
    all_goals rcases hkeyword with hkeyword | hkeyword <;> simp [hkeyword]
  have hblock : Succeeds (restOfBlock start'.cursor.current
      (restOfStmts outermost (· = .rbrace) [])) start'.inBody
      ⟨body.opening, bad :: body.items, body.closing⟩ stop' := by
    rw [hcurrent]
    exact (run_bind_congr (lift_run_congr (restOfStmts_run_of_round hround)) _).trans hstop'
  have hkind' : start'.cursor.kind = .lbrace := (congrArg Token.kind hcurrent).trans hkind
  refine ⟨_, (funcBody_succeeds_iff hkind').2 ⟨stop', hblock, rfl⟩, hsame'.ahead, ?_⟩
  have hnone : added = [] := by
    have hown : ownLast.diagnostics = start.inBody.diagnostics := hclean
    rw [hown] at hadded
    simpa using hadded.symm
  rw [hnone, List.append_nil] at hadded'
  exact Array.toList_inj.1 hadded'

/-- A body that is read without a report begins with what ends it, a semicolon, or a statement. -/
theorem begins_of_clean_body {body : Block} (hown : Succeeds funcBody start body stop)
    (hclean : stop.diagnostics = start.diagnostics) (hkind : start.cursor.kind = .lbrace)
    (hinside : Inside start.inBody) :
    start.inBody.cursor.kind ∈ [.rbrace, .semicolon] ∨ OpensStmt start.inBody ∨
      start.inBody.cursor.kind.beginsExpr := by
  obtain ⟨last, hblock, rfl⟩ := (funcBody_succeeds_iff hkind).1 hown
  have hsilent : ((restOfBlock start.cursor.current (restOfStmts outermost (· = .rbrace)
      [])).run.run start.inBody).2.diagnostics.size ≤ start.inBody.diagnostics.size := by
    rw [hblock]
    exact Nat.le_of_eq (congrArg Array.size hclean)
  obtain ⟨levels, hlevels⟩ := exists_outermost_eq
  rw [hlevels] at hsilent
  exact begins_of_silent hinside hsilent

/-- Behind a line that is read in one of two bodies only, they go on with the same tokens. -/
theorem sameAhead_of_line {start' : State} {opening first : Token} {run rest : List Token}
    {cursor : Cursor} (hahead : start.cursor.ahead = opening :: first :: rest)
    (hreads : start'.inBody.cursor.Reads run cursor) (hrest : cursor.ahead = first :: rest)
    (heof : start'.cursor.eof = start.cursor.eof) (hnesting : start'.nesting = start.nesting)
    (diagnostic : Diagnostic) :
    start.inBody.SameAhead ((start'.inBody.tell diagnostic).moveTo cursor) where
  begun := by
    have hread : start.inBody.cursor.behind = [opening].reverse ++ start.cursor.behind :=
      (Cursor.reads_next_of_cons hahead).behind
    rw [hread]
    exact List.cons_ne_nil _ _
  ahead := hrest.trans (Cursor.ahead_next_of_cons hahead).symm
  eof := hreads.eof.trans ((Cursor.eof_next _).trans (heof.trans (Cursor.eof_next _).symm))
  nesting := hnesting
  loopDepth := rfl

/-- In front of a body that is read without a report, a line holds a constant or a variable
without `=` and value.  If the first token of the body begins no expression, the line is a bad
statement and changes nothing else.  If it does, the bad statement ends where the rest of that
token's line does. -/
theorem funcBody_of_missing_value {start' : State} {body : Block}
    {opening keyword name type first : Token} {rest : List Token}
    (hown : Succeeds funcBody start body stop) (hclean : stop.diagnostics = start.diagnostics)
    (hahead : start.cursor.ahead = opening :: first :: rest)
    (hahead' : start'.cursor.ahead = opening :: keyword :: name :: type :: first :: rest)
    (heof : start'.cursor.eof = start.cursor.eof) (hnesting : start'.nesting = start.nesting)
    (hroom : start.nesting < maxNesting) (hopening : opening.kind = .lbrace)
    (hkeyword : keyword.kind ∈ [.constKw, .varKw]) (hname : name.kind = .ident)
    (htype : type.kind.isValueType) (hline : type.line < first.line ∨ first.kind = .rbrace) :
    ∃ last : State, ∃ bad : BadNode,
      bad = ⟨keyword, laterToken (laterToken first last.cursor.previous) keyword,
        "expected '='"⟩ ∧
      Gives outermost.stmt start'.inBody (.bad bad) last ∧
      last.diagnostics = start'.diagnostics.push (.expected .unexpectedToken "'='" first) ∧
      (first.kind.beginsExpr = false → last.cursor.ahead = first :: rest ∧
        ∃ stop', Succeeds funcBody start' ⟨body.opening, .bad bad :: body.items, body.closing⟩
            stop' ∧
          stop'.cursor.ahead = stop.cursor.ahead ∧ stop'.diagnostics = last.diagnostics) ∧
      (first.kind.beginsExpr → ∃ behind : Cursor,
        start'.cursor.Reads [opening, keyword, name, type, first] behind ∧
          last.cursor = behind.skip .statement) := by
  have hkind : start.cursor.kind = .lbrace := (Cursor.kind_of_ahead_eq_cons hahead).trans hopening
  have hfirst : start.inBody.cursor.ahead = first :: rest := Cursor.ahead_next_of_cons hahead
  have hfirstKind : start.inBody.cursor.kind = first.kind := Cursor.kind_of_ahead_eq_cons hfirst
  have hinside : Inside start.inBody := Cursor.kind_ne_eof_of_cons hfirst
  have hbegins := begins_of_clean_body hown hclean hkind hinside
  have hother : first.kind ≠ .assign ∧ first.kind ≠ .illegal := by
    rw [← hfirstKind]
    exact ne_of_begins hbegins
  -- The cursors behind the tokens of the line, the last one at the first token of the body.
  have hline₀ : start'.inBody.cursor.ahead = keyword :: name :: type :: first :: rest :=
    Cursor.ahead_next_of_cons hahead'
  have hline₁ := Cursor.ahead_next_of_cons hline₀
  have hline₂ := Cursor.ahead_next_of_cons hline₁
  have hline₃ := Cursor.ahead_next_of_cons hline₂
  have hreads : start'.inBody.cursor.Reads [keyword, name, type]
      start'.inBody.cursor.next.next.next :=
    (Cursor.reads_next_of_cons hline₀).trans
      ((Cursor.reads_next_of_cons hline₁).trans (Cursor.reads_next_of_cons hline₂))
  have hroom' : start'.inBody.nesting < maxNesting := hnesting ▸ hroom
  obtain ⟨levels, hlevels⟩ := exists_outermost_eq
  obtain ⟨stopped, hstopped⟩ : ∃ cursor : Cursor,
      start'.inBody.cursor.next.next.next.pastUnexpected.skip .statement = cursor := ⟨_, rfl⟩
  have hstmt := nested_stmt_of_missing_eq levels hroom' hline₀ hkeyword hname htype hother.1
    hother.2 hstopped
  rw [← hlevels] at hstmt
  refine ⟨(start'.inBody.tell (.expected .unexpectedToken "'='" first)).moveTo stopped, _, rfl,
    hstmt, rfl, fun hplain => ?_, fun hexpr => ?_⟩
  · have hplain : start.inBody.cursor.kind.beginsExpr = false := hfirstKind ▸ hplain
    have hkept : start.inBody.cursor.kind ∈ [.rbrace, .semicolon] ∨ OpensStmt start.inBody := by
      simpa [hplain] using hbegins
    have hkinds : start'.inBody.cursor.next.next.next.kind = start.inBody.cursor.kind :=
      (Cursor.kind_of_ahead_eq_cons hline₃).trans hfirstKind.symm
    have hstays : stopped = start'.inBody.cursor.next.next.next := by
      rw [← hstopped, pastUnexpected_eq_self hkinds hkept]
      exact Cursor.skip_of_stop (statement_stops hline₂ hline₃ hline)
    subst hstays
    refine ⟨hline₃, ?_⟩
    have hcurrent : start'.cursor.current = start.cursor.current :=
      (Cursor.current_of_cons hahead').trans (Cursor.current_of_cons hahead).symm
    refine funcBody_behind_bad hown hclean hkind hcurrent hroom hinside hkept ?_ hstmt hreads
      (List.cons_ne_nil _ _) (sameAhead_of_line hahead hreads hline₃ heof hnesting _)
    rwa [Cursor.kind_of_ahead_eq_cons hline₀]
  · rw [← Cursor.kind_of_ahead_eq_cons hline₃] at hexpr
    refine ⟨start'.inBody.cursor.next.next.next.next, ?_, ?_⟩
    · exact (Cursor.reads_next_of_cons hahead').trans
        (hreads.trans (Cursor.reads_next_of_cons hline₃))
    · rw [State.cursor_moveTo, ← hstopped, pastUnexpected_eq_next hexpr]

/-- The opening brace of a body. -/
def openingToken : Token := ⟨.lbrace, "\x7b", 1, 12⟩

/-- A line with a variable that has no value. -/
def missingValueTokens : List Token :=
  [⟨.varKw, "var", 2, 2⟩, ⟨.ident, "x", 2, 6⟩, ⟨.intTy, "int", 2, 8⟩]

/-- The rest of a body that begins with a reserved word. -/
def returnTokens : List Token := [⟨.returnKw, "return", 3, 2⟩, ⟨.rbrace, "\x7d", 4, 1⟩]

/-- The rest of a body that begins with a name. -/
def assignTokens : List Token :=
  [⟨.ident, "y", 3, 2⟩, ⟨.assign, "=", 3, 4⟩, ⟨.intLit, "1", 3, 6⟩, ⟨.rbrace, "\x7d", 4, 1⟩]

theorem funcBody_of_missing_value_return :
    ∃ body stop, Succeeds funcBody (initialState (openingToken :: returnTokens)) body stop ∧
      stop.diagnostics = #[] ∧
      ∃ bad stop',
        Succeeds funcBody (initialState (openingToken :: (missingValueTokens ++ returnTokens)))
          ⟨body.opening, .bad bad :: body.items, body.closing⟩ stop' ∧
        stop'.diagnostics =
          #[.expected .unexpectedToken "'='" ⟨.returnKw, "return", 3, 2⟩] := by
  cases hrun : funcBody.run.run (initialState (openingToken :: returnTokens)) with
  | mk outcome stop =>
      have houtcome : (funcBody.run.run (initialState (openingToken :: returnTokens))).1.isOk := by
        decide +kernel
      have hclean : (funcBody.run.run
          (initialState (openingToken :: returnTokens))).2.diagnostics = #[] := by
        decide +kernel
      rw [hrun] at houtcome hclean
      cases outcome with
      | error bad => exact nomatch houtcome
      | ok body =>
          obtain ⟨last, bad, -, -, hlast, hplain, -⟩ := funcBody_of_missing_value hrun hclean
            (show (initialState (openingToken :: returnTokens)).cursor.ahead = _ from rfl)
            (show (initialState (openingToken :: (missingValueTokens ++ returnTokens))).cursor.ahead
              = _ from rfl)
            (by decide) rfl (by decide) rfl (by decide) rfl (by decide) (by decide)
          obtain ⟨-, stop', hstop', -, hdiagnostics⟩ := hplain (by decide)
          exact ⟨body, stop, hrun, hclean, bad, stop', hstop', hdiagnostics.trans hlast⟩

/-- What the statements of a body are, if it can be read, and what is reported. -/
def bodyNodes (tokens : List Token) : Option (List String) × List Diagnostic :=
  let (outcome, state) := funcBody.run.run (initialState tokens)
  (outcome.toOption.map (·.items.map Stmt.nodeName), state.diagnostics.toList)

/-- The assignment behind the broken line is lost. -/
theorem funcBody_of_missing_value_assign :
    bodyNodes (openingToken :: assignTokens) = (some ["AssignStmt"], []) ∧
      bodyNodes (openingToken :: (missingValueTokens ++ assignTokens)) =
        (some ["BadStmt"], [.expected .unexpectedToken "'='" ⟨.ident, "y", 3, 2⟩]) := by
  constructor
  all_goals decide +kernel

end OriSyntax.Grammar
