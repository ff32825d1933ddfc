import OriSyntax.Proofs.ExprAccounts

/-!
What the productions of statements account for, and from the innermost level outwards
all that contain each other.
-/

namespace OriSyntax.Grammar

variable {nested : Nested} {start : State} {before : List Piece}

theorem valueDecl_accounts (hnested : nested.Accounts) (what : String) :
    AccountsOrFails (fun cursor => cursor.kind.isStored) (valueDecl nested what)
      ValueDecl.pieces := by
  intro start before
  refine .bind (advance_accounts.lift start before) fun keyword => ?_
  refine .bind (expectName_accounts what).yields fun name => ?_
  refine .bind (unlessAt_accounts _
    (typeName_accounts _ isStored_of_isValueType).lift).yields fun type => ?_
  refine .bind (expectAs_accounts _ _ rfl).yields fun eq => ?_
  refine .bind (hnested.expr _).lift.yields fun value => .pure fun state hstate => ?_
  simpa [ValueDecl.pieces] using hstate

theorem isStored_of_isAssignOp {kind : Kind} (hkind : kind.isAssignOp) : kind.isStored := by
  revert hkind
  cases kind <;> decide

theorem isStored_of_isIncDec {kind : Kind} (hkind : kind.isIncDec) : kind.isStored := by
  revert hkind
  cases kind <;> decide

theorem simpleStmt_accounts (hnested : nested.Accounts) :
    AccountsOrFails anywhere (simpleStmt nested) Stmt.pieces := by
  intro start before
  refine .bind ((hnested.expr _).lift start before) fun expr => ?_
  split
  · exact .throw fun _ hstate => hstate.failed
  refine .bind (.lift currentKind_meets) fun kind => ?_
  split
  · next hkind =>
      refine .bind (advance_accounts.lift.yields_at ?_) fun op => ?_
      · rintro state rfl
        exact isStored_of_isAssignOp (by simp_all)
      refine .bind (hnested.expr _).lift.yields fun right => .pure fun state hstate => ?_
      simpa [Stmt.pieces] using hstate
  split
  · next hkind =>
      refine .bind (advance_accounts.lift.yields_at ?_) fun op => .pure fun state hstate => ?_
      · rintro state rfl
        exact isStored_of_isIncDec (by simp_all)
      · simpa [Stmt.pieces] using hstate
  split
  · exact .pure fun _ hstate => hstate.1
  · refine fail_yields _ _ _ (fun _ hstate => hstate.1.sameBody) fun _ hstate => ?_
    exact hstate.1.accounted.last_le (by simp [expr.lastTokenOf_pieces])

theorem atReturnEnd_meets {pre : State → Prop} : Meets pre atReturnEnd fun _ => pre :=
  fun _ hstate => hstate

theorem returnStmt_accounts (hnested : nested.Accounts) :
    Accounts (fun cursor => cursor.kind.isStored) (returnStmt nested) Stmt.pieces where
  closed stmt := stmt.closed_pieces
  keeps start before := by
    refine .bind (advance_accounts.keeps start before) fun keyword => ?_
    refine .bind atReturnEnd_meets fun atEnd => ?_
    split
    · refine .pure fun state hstate => ?_
      simpa [Stmt.pieces] using hstate
    · refine .bind (exprList_accounts hnested).meets fun values => .pure fun state hstate => ?_
      simpa [Stmt.pieces] using hstate

theorem branchStmt_accounts :
    AccountsOrFails (fun cursor => cursor.kind.isStored) branchStmt Stmt.pieces := by
  intro start before
  refine .bind (advance_accounts.lift start before) fun keyword => ?_
  refine .bind (.lift get_meets) fun state => ?_
  split
  · refine fail_yields _ _ _ (fun _ hstate => hstate.1.sameBody) fun _ hstate => ?_
    exact hstate.1.accounted.last_le (by simp [Piece.last])
  refine .bind (.lift currentKind_meets) fun kind => .bind (.lift opensLine_meets) fun line => ?_
  split
  · refine .pure fun state hstate => ?_
    split <;> exact hstate.1.1.1
  · exact .bind (.lift current_meets) fun got =>
      failUpTo_yields _ _ fun _ hstate => hstate.1.1.1.sameBody

theorem fallThroughStmt_accounts :
    AccountsOrFails (fun cursor => cursor.kind.isStored) fallThroughStmt Stmt.pieces := by
  intro start before
  refine .bind (advance_accounts.lift start before) fun keyword => ?_
  refine .bind (accept?_accounts_separator rfl).lift.yields fun _ => ?_
  rw [List.append_nil]
  refine .bind (.lift currentKind_meets) fun kind => ?_
  split
  · exact .pure fun _ hstate => hstate.1
  · exact .bind (.lift current_meets) fun got =>
      failUpTo_yields _ _ fun _ hstate => hstate.1.sameBody

/-- A statement that read nothing hides the token at which it stands. -/
theorem Accounted.stepOver {pieces : List Piece} {stop : State}
    (haccounted : Accounted start pieces stop) (hstay : stop.cursor = start.cursor)
    (hpieces : pieces ≠ []) (hkind : start.cursor.kind ≠ .eof)
    (hlevel : stop.Calm → start.cursor.kind.brace = .other) :
    Accounted start pieces { stop with cursor := stop.cursor.next } where
  covers := by
    obtain ⟨run, hrun⟩ := Cursor.exists_reads_next stop.cursor
    have hreaches : stop.Reaches { stop with cursor := stop.cursor.next } :=
      ⟨⟨run, hrun⟩, List.prefix_rfl⟩
    have hstepped := haccounted.covers.stepOver hstay hpieces hkind hlevel
    rw [← hstay] at hstepped
    exact hstay ▸ hstepped.mono hreaches.ordered hreaches.calm
  explained := haccounted.explained

theorem steppingStmt_accounts (hnested : nested.Accounts) :
    Accounts (fun cursor => cursor.kind ≠ .eof ∧ cursor.kind ≠ .rbrace)
      (steppingStmt nested) Stmt.pieces := by
  refine .of_start (fun stmt => stmt.closed_pieces) fun start hstart => ?_
  have hfound : Meets (· = start) get fun found state => state = start ∧ found = start := by
    rintro _ rfl
    exact ⟨rfl, rfl⟩
  refine .bind hfound fun found => .of_known fun hsame => ?_
  rw [hsame]
  have hstmt : Meets (· = start) nested.stmt fun stmt stop =>
      Accounted start stmt.pieces stop ∧ (start.cursor.kind = .lbrace →
        stop.cursor = start.cursor → ¬ stop.Calm) := by
    rintro _ rfl
    exact ⟨hnested.stmt.keeps _ [] _ ⟨.refl _, trivial⟩, hnested.body _⟩
  refine .bind hstmt fun stmt => .bind get_meets fun stop => ?_
  split
  · next hidle =>
      rintro _ ⟨⟨haccounted, hbrace⟩, rfl⟩
      obtain ⟨run, hrun⟩ := haccounted.reaches.reads
      have hstay := hrun.eq_of_position hidle
      refine haccounted.stepOver hstay ?_ hstart.1 fun hcalm => ?_
      · intro hnil
        have hlast := stmt.lastTokenOf_pieces
        rw [hnil] at hlast
        exact nomatch hlast
      · exact Kind.brace_eq_other (fun hkind => hbrace hkind hstay hcalm) hstart.2
  · exact .pure fun _ hstate => hstate.1.1

theorem stmtPass_meets (hnested : nested.Accounts) {stops : Kind → Bool}
    (hstops : stops .rbrace) (found : List Stmt) :
    Meets (Accounted start (before ++ gatheredPieces Stmt.pieces found))
      (stmtPass nested stops found)
      (Turns (fun found => Accounted start (before ++ gatheredPieces Stmt.pieces found))
        fun found state => Accounted start (before ++ gatheredPieces Stmt.pieces found) state ∧
          (state.cursor.kind = .eof ∨ stops state.cursor.kind)) := by
  refine .bind currentKind_meets fun kind => ?_
  split
  · next hkind =>
      refine .pure ?_
      rintro state ⟨hstate, rfl⟩
      exact ⟨hstate, by simpa using hkind⟩
  next hmore =>
    simp only [Bool.or_eq_true, decide_eq_true_eq, not_or] at hmore
    split
    · next hkind =>
        refine .bind (advance_accounts_separator.meets_at ?_) fun _ => ?_
        · rintro state rfl
          rw [hkind]
          rfl
        · rw [List.append_nil]
          exact .pure fun _ hstate => hstate
    · refine .bind ((steppingStmt_accounts hnested).meets_at ?_) fun stmt => ?_
      · rintro state rfl
        refine ⟨hmore.1, fun hkind => hmore.2 ?_⟩
        rw [hkind]
        exact hstops
      · rw [List.append_assoc, ← gatheredPieces_cons]
        exact .pure fun _ hstate => hstate

theorem stmtList_meets (hnested : nested.Accounts) {stops : Kind → Bool}
    (hstops : stops .rbrace) :
    Meets (Accounted start before) (stmtList nested stops) fun stmts state =>
      Accounted start (before ++ stmts.flatMap Stmt.pieces) state ∧
        (state.cursor.kind = .eof ∨ stops state.cursor.kind) := by
  have hstmts : Meets (Accounted start (before ++ gatheredPieces Stmt.pieces []))
      (repeatStep (stmtPass nested stops) []) _ :=
    .repeatStep (stmtPass_gains hnested.orderly stops) (stmtPass_meets hnested hstops) []
  rw [gatheredPieces_nil, List.append_nil] at hstmts
  exact .bind hstmts fun found => .pure fun _ hstate => hstate

theorem block_accounts (hnested : nested.Accounts) :
    AccountsOrFails anywhere (block nested) (Enclosed.bodyPieces Stmt.pieces) := by
  intro start before
  refine .bind ((expectOpening_yields _).strengthen fun _ hstate => hstate.1) fun opening => ?_
  refine .of_known fun hbefore => .bind (.lift (stmtList_meets hnested rfl)) fun stmts => ?_
  refine .bind (covering_yields (expect_orderly _ _) ?_ (expectClosing_yields _ ?_))
    fun closing => ?_
  · exact fun state hstate => hstate.1.token_le (.inr (by simp))
  · intro state hplace
    simpa using hplace
  · refine .pure fun stop hstop => ?_
    refine Accounted.settled_body ?_ hbefore (.flatMap fun stmt _ => stmt.closed_pieces)
    simpa using hstop

theorem elseBranch_accounts (hnested : nested.Accounts) :
    AccountsOrFails anywhere (elseBranch nested) (piecesOf? Stmt.pieces) := by
  intro start before
  refine .bind ((accept?_accounts_separator rfl).lift start before) fun keyword => ?_
  rw [List.append_nil]
  cases keyword with
  | none =>
      refine .pure fun state hstate => ?_
      simpa [piecesOf?] using hstate
  | some keyword =>
      refine .bind (.lift currentKind_meets) fun kind => ?_
      split
      · next hkind =>
          refine .bind (hnested.ifElse.yields_at ?_) fun stmt => .pure fun _ hstate => hstate
          rintro state rfl
          exact hkind
      split
      · refine .bind ((block_accounts hnested).yields_at fun _ _ => trivial) fun body => ?_
        refine .pure fun state hstate => ?_
        simpa [piecesOf?, Stmt.pieces] using hstate
      · exact .bind (.lift (expectedHere_meets _ _)) fun _ => .bind (.lift current_meets) fun _ =>
          failUpTo_yields _ _ fun _ hstate => hstate.1.1.sameBody

theorem ifStmt_accounts (hnested : nested.Accounts) :
    AccountsOrFails (fun cursor => cursor.kind = .ifKw) (ifStmt nested) Stmt.pieces := by
  intro start before
  refine .bind (advance_accounts.lift.yields_at ?_) fun keyword => ?_
  · intro state hkind
    rw [hkind]
    rfl
  refine .bind (.lift currentKind_meets) fun kind => ?_
  split
  · exact .bind (.lift (expectedHere_meets _ _)) fun _ => .bind (.lift current_meets) fun _ =>
      failUpTo_yields _ _ fun _ hstate => hstate.1.1.sameBody
  refine .bind ((hnested.expr _).lift.yields_at fun _ _ => trivial) fun condition => ?_
  refine .bind (.lift currentKind_meets) fun kind => ?_
  split
  · exact .bind (.lift current_meets) fun _ =>
      failUpTo_yields _ _ fun _ hstate => hstate.1.sameBody
  · refine .bind ((block_accounts hnested).yields_at fun _ _ => trivial) fun body => ?_
    refine .bind (elseBranch_accounts hnested).yields fun otherwise => ?_
    refine .pure fun state hstate => ?_
    simpa [Stmt.pieces] using hstate

theorem loopBody_accounts (hnested : nested.Accounts) :
    AccountsOrFails anywhere (loopBody nested) (Enclosed.bodyPieces Stmt.pieces) :=
  between_accounts (fun _ => ⟨rfl, rfl⟩) (fun _ => ⟨rfl, rfl⟩) (block_accounts hnested)

theorem rangeValue_accounts (hnested : nested.Accounts) :
    Accounts anywhere (rangeValue nested) (piecesOf? Expr.pieces) where
  closed value := (Flat.piecesOf? value Expr.flat_pieces).closed
  keeps start before := by
    refine .bind ((accept?_accounts_separator rfl).keeps start before) fun comma => ?_
    rw [List.append_nil]
    cases comma with
    | some comma =>
        exact .bind (hnested.expr _).meets fun value => .pure fun _ hstate => hstate
    | none =>
        refine .pure fun state hstate => ?_
        simpa [piecesOf?] using hstate

/-- The pieces of what a `range` runs through. -/
def targetPieces (targets : Option Expr × Option Expr × Option Token) : List Piece :=
  piecesOf? Expr.pieces targets.1 ++ piecesOf? Expr.pieces targets.2.1 ++
    piecesOf? (fun op => [.token op]) targets.2.2

theorem rangeTargets_accounts (hnested : nested.Accounts) (keyword : Token) :
    AccountsOrFails anywhere (rangeTargets nested keyword) targetPieces := by
  intro start before
  refine .bind (.lift currentKind_meets) fun kind => ?_
  split
  · refine .pure fun state hstate => ?_
    simpa [targetPieces, piecesOf?] using hstate.1.1
  refine .bind (Yields.strengthen (hnested.expr _).lift.yields fun _ hstate => hstate.1.1)
    fun key => ?_
  refine .bind (rangeValue_accounts hnested).lift.yields fun value => ?_
  refine .bind (.lift currentKind_meets) fun kind => ?_
  split
  · next hkind =>
      refine .bind (advance_accounts.lift.yields_at ?_) fun op => .pure fun state hstate => ?_
      · rintro state rfl
        simp only [List.mem_cons, List.not_mem_nil, or_false] at hkind
        rcases hkind with hkind | hkind <;> rw [hkind] <;> rfl
      · simpa [targetPieces, piecesOf?] using hstate
  · exact .bind (.lift (expectedHere_meets _ _)) fun _ => .bind (.lift current_meets) fun _ =>
      failUpTo_yields _ _ fun _ hstate => hstate.1.1.sameBody

theorem rangeLoop_yields (hnested : nested.Accounts) (keyword : Token) :
    Yields (Settled start (before ++ [.token keyword])) (rangeLoop nested keyword)
      (fun stmt => Settled start (before ++ stmt.pieces)) (Failed start) := by
  refine .bind (rangeTargets_accounts hnested keyword).yields fun targets => ?_
  refine .bind (expectAs_accounts _ _ rfl).yields fun rangeKeyword => ?_
  refine .bind (hnested.expr _).lift.yields fun subject => ?_
  refine .bind (loopBody_accounts hnested).yields fun body => .pure fun state hstate => ?_
  simpa [Stmt.pieces, targetPieces] using hstate

theorem forClause_accounts (hnested : nested.Accounts) (clause : ForClause) :
    AccountsOrFails anywhere (forClause nested clause) Stmt.pieces := by
  intro start before
  refine .bind (simpleStmt_accounts hnested start before) fun stmt => ?_
  split
  · exact .pure fun _ hstate => hstate
  · refine fail_yields _ _ _ (fun _ hstate => hstate.sameBody) fun _ hstate => ?_
    exact hstate.accounted.last_le (by simp [stmt.lastTokenOf_pieces])

theorem threeClauseLoop_yields (hnested : nested.Accounts) (keyword : Token) :
    Yields (Settled start (before ++ [.token keyword])) (threeClauseLoop nested keyword)
      (fun stmt => Settled start (before ++ stmt.pieces)) (Failed start) := by
  refine .bind (unlessAt_accounts _ (forClause_accounts hnested _)).yields fun first => ?_
  refine .bind (expectAs_accounts_separator _ _ rfl).yields fun _ => ?_
  refine .bind (unlessAt_accounts _ (hnested.expr _).lift).yields fun condition => ?_
  refine .bind (expectAs_accounts_separator _ _ rfl).yields fun _ => ?_
  refine .bind (unlessAt_accounts _ (forClause_accounts hnested _)).yields fun after => ?_
  refine .bind (loopBody_accounts hnested).yields fun body => .pure fun state hstate => ?_
  simpa [Stmt.pieces] using hstate

theorem restOfLoop_yields (hnested : nested.Accounts) (keyword : Token) :
    Yields (Settled start (before ++ [.token keyword])) (restOfLoop nested keyword)
      (fun stmt => Settled start (before ++ stmt.pieces)) (Failed start) := by
  refine .bind (.lift currentKind_meets) fun kind => ?_
  split
  · refine .bind ((loopBody_accounts hnested).yields_at fun _ _ => trivial) fun body => ?_
    refine .pure fun state hstate => ?_
    simpa [Stmt.pieces, piecesOf?] using hstate
  refine .bind (.lift (headerContains_meets _)) fun hasRange => ?_
  split
  · exact (rangeLoop_yields hnested keyword).strengthen fun _ hstate => hstate.1
  refine .bind (.lift (headerContains_meets _)) fun hasSemicolon => ?_
  split
  · exact (threeClauseLoop_yields hnested keyword).strengthen fun _ hstate => hstate.1
  · refine .bind ((hnested.expr _).lift.yields_at fun _ _ => trivial) fun condition => ?_
    refine .bind (loopBody_accounts hnested).yields fun body => .pure fun state hstate => ?_
    simpa [Stmt.pieces, piecesOf?] using hstate

theorem loop_accounts (hnested : nested.Accounts) :
    AccountsOrFails (fun cursor => cursor.kind.isStored) (loop nested) Stmt.pieces := by
  intro start before
  refine .bind (advance_accounts.lift start before) fun keyword => ?_
  refine covering_yields (skipping_orderly _ (restOfLoop_orderly hnested.orderly keyword)) ?_
    (skipping_yields Skip.compound_keepsLevel (restOfLoop_yields hnested keyword))
  exact fun state hstate => hstate.accounted.token_le (.inl (by simp))

theorem caseValues_accounts (hnested : nested.Accounts) (keyword : Token) :
    Accounts anywhere (caseValues nested keyword) fun values => values.flatMap Expr.pieces := by
  unfold caseValues
  split
  · exact exprList_accounts hnested
  · refine ⟨fun values => (Flat.flatMap values Expr.flat_pieces).closed, fun start before => ?_⟩
    refine .pure fun state hstate => ?_
    simpa using hstate.1

theorem caseClause_accounts (hnested : nested.Accounts) :
    AccountsOrFails (fun cursor => cursor.kind.isStored) (caseClause nested) Stmt.pieces := by
  intro start before
  refine .bind (advance_accounts.lift start before) fun keyword => ?_
  refine .bind (caseValues_accounts hnested keyword).lift.yields fun values => ?_
  refine .bind (expectAs_accounts _ _ rfl).yields fun colon => ?_
  have hstmts : Meets (Settled start (before ++ [.token keyword] ++
      values.flatMap Expr.pieces ++ [.token colon]))
      (stmtList nested (· ∈ [.caseKw, .defaultKw, .rbrace])) fun stmts => Settled start
        (before ++ [.token keyword] ++ values.flatMap Expr.pieces ++ [.token colon] ++
          stmts.flatMap Stmt.pieces) := by
    intro state hstate
    refine ⟨(stmtList_meets hnested rfl state hstate.accounted).1, ?_⟩
    exact hstate.closed.append (.flatMap fun stmt _ => stmt.closed_pieces)
  refine .bind (.lift hstmts) fun stmts => .pure fun state hstate => ?_
  simpa [Stmt.pieces] using hstate

theorem caseStmt_accounts (hnested : nested.Accounts) (found : List Stmt) :
    Accounts (fun cursor => cursor.kind.isStored) (caseStmt nested found) Stmt.pieces := by
  refine .of_start (fun stmt => stmt.closed_pieces) fun start hstart => ?_
  refine .bind current_meets fun first => .of_each fun state hstate => ?_
  obtain ⟨rfl, rfl⟩ := hstate
  have hclause : Yields (· = state) (caseClause nested)
      (fun clause => Settled state clause.pieces) (Failed state) := by
    refine (caseClause_accounts hnested state []).strengthen ?_
    rintro _ rfl
    exact ⟨.refl _, hstart⟩
  refine .bind hclause fun outcome => ?_
  cases outcome with
  | ok clause =>
      dsimp only
      split
      · exact fun stop hstop => hstop.replaced_here clause.lastTokenOf_pieces _
      · exact .pure fun _ hstop => hstop.accounted
  | error bad =>
      refine .bind (skip_meets Skip.caseBoundary_keepsLevel) fun _ => ?_
      refine .bind (cover_meets _ bad) fun node => .pure ?_
      rintro stop ⟨hfailed, rfl⟩
      exact hfailed.accounted_cover

/-- An opening brace that stands where a clause should is given up alone. -/
theorem sameBody_strayCase {state : State} {diagnostic : Diagnostic}
    (hclosing : state.cursor.kind ≠ .rbrace)
    (hdiagnostic : diagnostic = if state.cursor.current.kind = .illegal
      then .illegal state.cursor.current
      else .expected .unexpectedToken "'case' or 'default'" state.cursor.current) :
    State.SameBody { state with diagnostics := state.diagnostics.push diagnostic }
      { state with
        cursor := state.cursor.next
        diagnostics := state.diagnostics.push diagnostic } := by
  by_cases hkind : state.cursor.kind = .lbrace
  · refine ⟨⟨_, Cursor.reads_next (by simp [hkind]), fun hcalm _ => ?_⟩, List.prefix_rfl⟩
    have hcurrent : state.cursor.current.kind = .lbrace := hkind
    refine absurd ?_ (hcalm.keeps diagnostic (by simp))
    rw [hdiagnostic, if_neg (by simp [hcurrent])]
    exact ⟨hcurrent, .inl rfl⟩
  · exact .next (Kind.brace_eq_other hkind hclosing)

theorem strayCase_accounts :
    Accounts (fun cursor => cursor.kind ≠ .rbrace ∧ cursor.kind ≠ .eof) strayCase
      Stmt.pieces := by
  refine .of_start (fun stmt => stmt.closed_pieces) fun start hstart => ?_
  refine .bind current_meets fun first => .of_each fun _ hstate => ?_
  obtain ⟨rfl, rfl⟩ := hstate
  refine .bind (expectedHere_meets _ _) fun diagnostic => .of_each fun state hstate => ?_
  obtain ⟨rfl, hdiagnostic⟩ := hstate
  refine .bind (reportHere_meets _ diagnostic) fun bad => .of_each fun _ hreported => ?_
  obtain ⟨hbad, rfl⟩ := hreported
  have hmoved : Meets (· = { state with diagnostics := state.diagnostics.push diagnostic })
      (moveCursor Cursor.next) fun _ => Failed state bad := by
    rintro _ rfl
    rw [hbad]
    exact (Failed.reportHere state diagnostic).after (sameBody_strayCase hstart.1 hdiagnostic)
  refine .bind hmoved fun _ => ?_
  refine .bind (skip_meets Skip.caseBoundary_keepsLevel) fun _ => ?_
  refine .bind (cover_meets _ bad) fun node => .pure ?_
  rintro stop ⟨hfailed, rfl⟩
  exact hfailed.accounted_cover

theorem casePass_meets (hnested : nested.Accounts) (found : List Stmt) :
    Meets (Accounted start (before ++ gatheredPieces Stmt.pieces found)) (casePass nested found)
      (Turns (fun found => Accounted start (before ++ gatheredPieces Stmt.pieces found))
        fun found state => Accounted start (before ++ gatheredPieces Stmt.pieces found) state ∧
          (state.cursor.kind = .eof ∨ state.cursor.kind = .rbrace)) := by
  refine .bind currentKind_meets fun kind => ?_
  split
  · next hkind =>
      refine .pure ?_
      rintro state ⟨hstate, rfl⟩
      exact ⟨hstate, by simpa [or_comm] using hkind⟩
  next hmore =>
    split
    · next hkind =>
        refine .bind (advance_accounts_separator.meets_at ?_) fun _ => ?_
        · rintro state rfl
          rw [hkind]
          rfl
        · rw [List.append_nil]
          exact .pure fun _ hstate => hstate
    split
    · next hkind =>
        refine .bind ((caseStmt_accounts hnested found).meets_at ?_) fun stmt => ?_
        · rintro state rfl
          simp only [List.mem_cons, List.not_mem_nil, or_false] at hkind
          rcases hkind with hkind | hkind <;> rw [hkind] <;> rfl
        · rw [List.append_assoc, ← gatheredPieces_cons]
          exact .pure fun _ hstate => hstate
    · refine .bind (strayCase_accounts.meets_at ?_) fun stmt => ?_
      · rintro state rfl
        simpa [not_or] using hmore
      · rw [List.append_assoc, ← gatheredPieces_cons]
        exact .pure fun _ hstate => hstate

theorem caseList_meets (hnested : nested.Accounts) :
    Meets (Accounted start before) (caseList nested) fun cases state =>
      Accounted start (before ++ cases.flatMap Stmt.pieces) state ∧
        (state.cursor.kind = .eof ∨ state.cursor.kind = .rbrace) := by
  have hcases : Meets (Accounted start (before ++ gatheredPieces Stmt.pieces []))
      (repeatStep (casePass nested) []) _ :=
    .repeatStep (casePass_gains hnested.orderly) (casePass_meets hnested) []
  rw [gatheredPieces_nil, List.append_nil] at hcases
  exact .bind hcases fun found => .pure fun _ hstate => hstate

theorem switchInit_accounts (hnested : nested.Accounts) :
    AccountsOrFails anywhere (switchInit nested) (piecesOf? Stmt.pieces) := by
  intro start before
  refine .bind (.lift (headerContains_meets _)) fun hasInit => ?_
  split
  · refine .bind (simpleStmt_accounts hnested start before) fun stmt => ?_
    refine .bind (expectAs_accounts_separator _ _ rfl).yields fun _ => ?_
    refine .pure fun state hstate => ?_
    simpa [piecesOf?] using hstate
  · refine .pure fun state hstate => ?_
    simpa [piecesOf?] using hstate.1

theorem restOfSwitch_yields (hnested : nested.Accounts) (keyword : Token) :
    Yields (Settled start (before ++ [.token keyword])) (restOfSwitch nested keyword)
      (fun stmt => Settled start (before ++ stmt.pieces)) (Failed start) := by
  refine .bind (switchInit_accounts hnested).yields fun first => ?_
  refine .bind (unlessAt_accounts _ (hnested.expr _).lift).yields fun tag => ?_
  refine .bind (expectOpening_yields _) fun opening => .of_known fun hbefore => ?_
  refine .bind (.lift (caseList_meets hnested)) fun cases => ?_
  refine .bind (covering_yields (expect_orderly _ _) ?_
    (expectClosing_yields _ fun _ hplace => hplace)) fun closing => .pure fun stop hstop => ?_
  · exact fun state hstate => hstate.1.token_le (.inl (by simp))
  have hclauses : Closed (cases.flatMap Stmt.pieces) :=
    .flatMap fun stmt _ => stmt.closed_pieces
  have hbody : Settled start (before ++ [.token keyword] ++ piecesOf? Stmt.pieces first ++
      piecesOf? Expr.pieces tag ++ (.opens opening :: cases.flatMap Stmt.pieces ++
        [.closes closing])) stop :=
    Accounted.settled_body (by simpa using hstop) hbefore hclauses
  simpa [Stmt.pieces, Enclosed.bodyPieces] using hbody

theorem switch_accounts (hnested : nested.Accounts) :
    AccountsOrFails (fun cursor => cursor.kind.isStored) (switch nested) Stmt.pieces := by
  intro start before
  refine .bind (advance_accounts.lift start before) fun keyword => ?_
  refine covering_yields (skipping_orderly _ (restOfSwitch_orderly hnested.orderly keyword)) ?_
    (skipping_yields Skip.compound_keepsLevel (restOfSwitch_yields hnested keyword))
  exact fun state hstate => hstate.accounted.token_le (.inl (by simp))

theorem atTypeDecl_meets {pre : State → Prop} : Meets pre atTypeDecl fun _ => pre :=
  fun _ hstate => hstate

theorem stmtInside_accounts (hnested : nested.Accounts) :
    AccountsOrFails anywhere (stmtInside nested) Stmt.pieces := by
  refine .of_anywhere fun start before => .bind (.lift currentKind_meets) fun kind => ?_
  have hstored (hkind : kind.isStored) (state : State) (hplace : kind = state.cursor.kind) :
      state.cursor.kind.isStored := hplace ▸ hkind
  split
  · exact .bind ((valueDecl_accounts hnested _).yields_at (hstored rfl)) fun decl =>
      .pure fun _ hstate => hstate
  · exact .bind ((valueDecl_accounts hnested _).yields_at (hstored rfl)) fun decl =>
      .pure fun _ hstate => hstate
  · exact (returnStmt_accounts hnested).lift.yields_at (hstored rfl)
  · exact (ifStmt_accounts hnested).yields_at fun _ hplace => hplace.symm
  · exact (loop_accounts hnested).yields_at (hstored rfl)
  · exact (switch_accounts hnested).yields_at (hstored rfl)
  · exact branchStmt_accounts.yields_at (hstored rfl)
  · exact branchStmt_accounts.yields_at (hstored rfl)
  · exact fallThroughStmt_accounts.yields_at (hstored rfl)
  · refine .bind ((block_accounts hnested).yields_at fun _ _ => trivial) fun body => ?_
    refine .pure fun state hstate => ?_
    simpa [Stmt.pieces] using hstate
  · refine .bind (.lift atTypeDecl_meets) fun atDecl => ?_
    split
    · exact .bind ((typeDecl_accounts hnested).yields_at fun _ hplace => hplace.symm) fun decl =>
        .pure fun _ hstate => hstate
    · exact (simpleStmt_accounts hnested).yields_at fun _ _ => trivial
  · exact (simpleStmt_accounts hnested).yields_at fun _ _ => trivial

theorem exprOf_accounts {inside : Production Expr}
    (hinside : AccountsOrFails anywhere inside Expr.pieces) :
    Accounts anywhere (exprOf inside) Expr.pieces := by
  refine .of_start (fun expr => expr.flat_pieces.closed) fun start _ => ?_
  refine .bind current_meets fun first => .of_each fun state hstate => ?_
  obtain ⟨rfl, rfl⟩ := hstate
  exact recoverWith_meets Skip.expression_keepsLevel (fun _ => rfl) hinside state trivial

theorem stmtOf_accounts {inside : Production Stmt}
    (hinside : AccountsOrFails anywhere inside Stmt.pieces) :
    Accounts anywhere (stmtOf inside) Stmt.pieces := by
  refine .of_start (fun stmt => stmt.closed_pieces) fun start _ => ?_
  refine .bind current_meets fun first => .of_each fun state hstate => ?_
  obtain ⟨rfl, rfl⟩ := hstate
  exact recoverWith_meets Skip.statement_keepsLevel (fun _ => rfl) hinside state trivial

/-- A production that reads the token at which it stands, or is not run at all because
too much is nested there. -/
def ReadsUnlessTooDeep (inside : Production Stmt) (start : State) : Prop :=
  Yields (· = start) inside
    (fun _ stop => stop.cursor.remaining < start.cursor.remaining) fun _ stop =>
      stop.cursor.remaining < start.cursor.remaining ∨ stop = { start with
        diagnostics := start.diagnostics.push
          (.nestingTooDeep maxNesting start.cursor.current) }

theorem beginsLine_of_opensLine {cursor : Cursor} (hline : cursor.opensLine) :
    BeginsLine cursor.tokens cursor.current := by
  unfold Cursor.opensLine at hline
  cases hbehind : cursor.behind with
  | nil => simp [hbehind] at hline
  | cons previous rest =>
      rw [hbehind] at hline
      have hlater : previous.line < cursor.current.line := by simpa using hline
      cases hahead : cursor.ahead with
      | nil =>
          have hcurrent : cursor.current = cursor.eof := by simp [Cursor.current, hahead]
          refine ⟨rest.reverse, previous, [], ?_, hlater⟩
          simp [Cursor.tokens, hbehind, hahead, hcurrent]
      | cons token tokens =>
          have hcurrent : cursor.current = token := by simp [Cursor.current, hahead]
          refine ⟨rest.reverse, previous, tokens ++ [cursor.eof], ?_, hlater⟩
          simp [Cursor.tokens, hbehind, hahead, hcurrent]

/-- A brace is skipped with its body unless it opens a line. -/
theorem opensLine_of_skip_eq {cursor : Cursor} (hkind : cursor.kind = .lbrace)
    (hskip : cursor.skip .statement = cursor) : cursor.opensLine := by
  have heof : cursor.kind ≠ .eof := by simp [hkind]
  have hcurrent : cursor.current.kind = .lbrace := hkind
  cases hline : cursor.opensLine with
  | true => rfl
  | false =>
      have hrule : Skip.statement 0 false .lbrace = .proceed 1 := by decide
      rw [Cursor.skip, Cursor.ahead_eq_cons heof, Cursor.skipAlong, hcurrent, hline, hrule]
        at hskip
      obtain ⟨run, hrun⟩ := Cursor.exists_reads_skipAlong .statement cursor.next.ahead 1
        cursor.next
      simp only at hskip
      rw [hskip] at hrun
      exact absurd ((Cursor.reads_next heof).eq_of_round hrun) (Cursor.next_ne heof)

theorem stmtOf_body {inside : Production Stmt} {start : State}
    (hstart : start.cursor.kind = .lbrace) (hinside : ReadsUnlessTooDeep inside start) :
    Meets (· = start) (stmtOf inside) fun _ stop =>
      stop.cursor = start.cursor → ¬ stop.Calm := by
  refine .bind current_meets fun first => ?_
  have hreads : Yields (fun state => state = start ∧ first = state.cursor.current) inside
      (fun _ stop => stop.cursor = start.cursor → ¬ stop.Calm) _ :=
    hinside.mono (fun _ hstate => hstate.1)
      (fun _ stop hmoved hstay => absurd hmoved (by simp [hstay])) fun _ _ hstop => hstop
  refine .recoverWith hreads fun bad => ?_
  rintro stop (hmoved | rfl) hstay
  · obtain ⟨run, hrun⟩ := Cursor.exists_reads_skip .statement stop.cursor
    have hremaining := hrun.remaining
    have hback : stop.cursor.skip .statement = start.cursor := hstay
    rw [hback] at hremaining
    omega
  · intro hcalm
    have hline := opensLine_of_skip_eq hstart hstay
    have hreported : Diagnostic.nestingTooDeep maxNesting start.cursor.current ∈
        (start.diagnostics.push (.nestingTooDeep maxNesting start.cursor.current)).toList := by
      simp
    refine hcalm.keeps _ hreported ⟨hstart, .inr ⟨rfl, ?_⟩⟩
    rw [hstay]
    exact beginsLine_of_opensLine hline

theorem failTooDeep_readsUnlessTooDeep (start : State) :
    ReadsUnlessTooDeep failTooDeep start := by
  rintro _ rfl
  exact .inr rfl

/-- A block reads its opening brace. -/
theorem block_reads (horderly : nested.Orderly) (bound : Nat) :
    Yields (fun state => state.cursor.remaining ≤ bound ∧ state.cursor.kind = .lbrace)
      (block nested) (fun _ state => state.cursor.remaining < bound)
      fun _ state => state.cursor.remaining < bound := by
  have hopening : Yields
      (fun state => state.cursor.remaining ≤ bound ∧ state.cursor.kind = .lbrace)
      (expect .lbrace "'\x7b'") (fun _ state => state.cursor.remaining < bound)
      fun _ state => state.cursor.remaining < bound := by
    refine .bind (.lift currentKind_meets) fun kind => ?_
    split
    · refine .lift ((advance_consumes.reads bound).strengthen ?_)
      rintro state ⟨⟨hremaining, hkind⟩, -⟩
      exact ⟨hremaining, by simp [hkind]⟩
    · next hother =>
        rintro state ⟨⟨-, hkind⟩, rfl⟩
        exact absurd hkind hother
  refine .bind hopening fun opening => Orderly.run_keeps ?_ fun _ _ hfollows hstart =>
    Nat.lt_of_le_of_lt hfollows.remaining_le hstart
  refine .run_bind (.run_lift (stmtList_orderly horderly _)) fun _ => ?_
  exact .run_bind (covering_orderly _ (expect_orderly _ _)) fun _ => .run_pure _

theorem stmtInside_reads (horderly : nested.Orderly) (bound : Nat) :
    Yields (fun state => state.cursor.remaining ≤ bound ∧ state.cursor.kind = .lbrace)
      (stmtInside nested) (fun _ state => state.cursor.remaining < bound)
      fun _ state => state.cursor.remaining < bound := by
  refine .bind (.lift currentKind_meets) fun kind => .of_each fun state hstate => ?_
  obtain ⟨⟨hremaining, hkind⟩, rfl⟩ := hstate
  rw [hkind]
  refine .bind ((block_reads horderly bound).strengthen ?_) fun _ => .pure fun _ hstop => hstop
  rintro _ rfl
  exact ⟨hremaining, hkind⟩

theorem descend_readsUnlessTooDeep (horderly : nested.Orderly) {start : State}
    (hstart : start.cursor.kind = .lbrace) :
    ReadsUnlessTooDeep (descend (stmtInside nested)) start := by
  refine .bind (.lift get_meets) fun found => ?_
  split
  · rintro _ ⟨rfl, -⟩
    exact .inr rfl
  · refine .between (stmtInside_reads horderly start.cursor.remaining) ?_
      (fun _ _ hstop => hstop) fun _ _ hstop => .inl hstop
    rintro _ ⟨rfl, -⟩
    exact ⟨Nat.le_refl _, hstart⟩

theorem nested_accounts (levels : Nat) : (Grammar.nested levels).Accounts := by
  induction levels with
  | zero =>
      have hdeep {α : Type} {pieces : α → List Piece} {here : Cursor → Prop} :
          AccountsOrFails here failTooDeep pieces := fun start before =>
        failTooDeep_yields fun _ hstate => hstate.1.sameBody
      refine ⟨nested_orderly 0, fun least => exprOf_accounts hdeep, stmtOf_accounts hdeep,
        hdeep, fun start hstart => ?_⟩
      exact stmtOf_body hstart (failTooDeep_readsUnlessTooDeep start) start rfl
  | succ levels ih =>
      refine ⟨nested_orderly (levels + 1), fun least => ?_, ?_, ?_, fun start hstart => ?_⟩
      · exact exprOf_accounts (descend_accounts (exprInside_accounts ih least).lift)
      · exact stmtOf_accounts (descend_accounts (stmtInside_accounts ih))
      · exact descend_accounts (ifStmt_accounts ih)
      · exact stmtOf_body hstart (descend_readsUnlessTooDeep ih.orderly hstart) start rfl

theorem outermost_accounts : outermost.Accounts := nested_accounts maxNesting

end OriSyntax.Grammar
