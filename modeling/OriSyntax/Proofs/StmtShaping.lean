import OriSyntax.Grammar.File
import OriSyntax.Proofs.Shaping

/-!
Shapes of statements and files.  Statements that hold others get them from the level inside,
so their shapes follow level by level; what a file holds is read at the outermost one.
-/

namespace OriSyntax.Grammar

variable {nested : Nested}

/-- The statement may stand where `allowed` is asked for, and has its shape. -/
def Fits (allowed : Stmt → Bool) (stmt : Stmt) : Prop := allowed stmt ∧ stmt.Shaped

theorem Fits.inBody {allowed : Stmt → Bool} {stmt : Stmt} (hstmt : Fits allowed stmt)
    (hallowed : ∀ {stmt}, allowed stmt → stmt.inBody) : Fits Stmt.inBody stmt :=
  ⟨hallowed hstmt.1, hstmt.2⟩

/-- Clauses with at most one `default` among them. -/
def ClausesShaped (stmts : List Stmt) : Prop :=
  (∀ stmt ∈ stmts, Fits Stmt.inSwitch stmt) ∧ stmts.countP isDefaultClause ≤ 1

/-- Another clause is no second `default`. -/
theorem ClausesShaped.cons {found : List Stmt} (hfound : ClausesShaped found) {stmt : Stmt}
    (hstmt : Fits Stmt.inSwitch stmt)
    (hdefault : isDefaultClause stmt → ¬ found.any isDefaultClause) :
    ClausesShaped (stmt :: found) := by
  refine ⟨List.forall_mem_cons.2 ⟨hstmt, hfound.1⟩, ?_⟩
  rw [List.countP_cons]
  split
  · next hstmt =>
      have hnone : found.countP isDefaultClause = 0 := by
        rw [List.countP_eq_zero]
        intro other hother hcase
        exact hdefault hstmt (List.any_eq_true.2 ⟨other, hother, hcase⟩)
      exact Nat.le_of_eq (congrArg (· + 1) hnone)
  · exact hfound.2

/-- A statement without parts of its own has its shape if its keyword is right. -/
theorem branchStmt_shapes (kind : Kind) (hkind : kind = .breakKw ∨ kind = .continueKw) :
    MakesOrFailsAt (Facing kind) (Fits Stmt.inBody) branchStmt := by
  apply MakesOrFailsAt.bind (.lift (advance_makes_kind kind))
  intro keyword hkeyword
  apply MakesOrFails.after
  intro state
  apply MakesOrFails.ite (.fail _ _ _)
  refine .after fun _ => .after fun _ => .ite (.pure ?_) (.after fun _ => .fail _ _ _)
  obtain rfl | rfl := hkind
  · simp [hkeyword, Fits, Stmt.inBody, Stmt.isClause, Stmt.Shaped]
  · simp [hkeyword, Fits, Stmt.inBody, Stmt.isClause, Stmt.Shaped]

theorem fallThroughStmt_shapes :
    MakesOrFailsAt (Facing .fallthroughKw) (Fits Stmt.inBody) fallThroughStmt := by
  apply MakesOrFailsAt.bind (.lift (advance_makes_kind _))
  intro keyword hkeyword
  refine .after fun _ => .after fun _ => .ite (.pure ⟨rfl, ?_⟩) (.after fun _ => .fail _ _ _)
  rw [Stmt.Shaped]
  exact hkeyword

section Statements

variable (hnested : nested.Shapes)
include hnested

theorem simpleStmt_shapes : MakesOrFails (Fits Stmt.isSimple) (simpleStmt nested) := by
  apply MakesOrFails.bind (.lift (hnested.expr _))
  intro expr hexpr
  split
  · exact .throw _
  apply MakesOrFailsAt.look
  intro kind
  apply MakesOrFailsAt.ite
  · intro hassign
    rw [Bool.and_eq_true] at hassign
    apply MakesOrFailsAt.bind (.lift (advance_makes_seen kind))
    intro op hop
    apply MakesOrFails.bind (.lift (hnested.expr _))
    intro right hright
    apply MakesOrFails.pure
    refine ⟨rfl, ?_⟩
    rw [Stmt.Shaped, hop]
    exact ⟨hassign.1, hexpr, hassign.2, hright⟩
  intro _
  apply MakesOrFailsAt.ite
  · intro hincDec
    rw [Bool.and_eq_true] at hincDec
    apply MakesOrFailsAt.bind (.lift (advance_makes_seen kind))
    intro op hop
    apply MakesOrFails.pure
    refine ⟨rfl, ?_⟩
    rw [Stmt.Shaped, hop]
    exact ⟨hincDec.1, hexpr, hincDec.2⟩
  intro _
  apply MakesOrFailsAt.ite
  · intro hcall
    apply MakesOrFailsAt.of_makes
    apply MakesOrFails.pure
    refine ⟨rfl, ?_⟩
    rw [Stmt.Shaped]
    exact ⟨hcall, hexpr⟩
  · exact fun _ => .of_makes (.fail _ _ _)

theorem returnStmt_shapes (horderly : nested.Orderly) :
    MakesAt (Facing .returnKw) (Fits Stmt.inBody) (returnStmt nested) := by
  apply MakesAt.bind (advance_makes_kind _)
  intro keyword hkeyword
  apply Makes.after
  intro ends
  apply Makes.ite
  · apply Makes.pure
    refine ⟨rfl, ?_⟩
    rw [Stmt.Shaped]
    exact ⟨hkeyword, trivial⟩
  · apply Makes.bind (exprList_shapes hnested horderly)
    intro values hvalues
    apply Makes.pure
    refine ⟨rfl, ?_⟩
    rw [Stmt.Shaped]
    exact ⟨hkeyword, hvalues.2⟩

theorem steppingStmt_shapes : Makes (Fits Stmt.inBody) (steppingStmt nested) :=
  .after fun _ => .bind hnested.stmt fun _ hstmt => .after fun _ =>
    .ite (.after fun _ => .pure hstmt) (.pure hstmt)

theorem stmtList_shapes (stops : Kind → Bool) :
    Makes (Stmt.ShapedAll Stmt.inBody) (stmtList nested stops) := by
  have hstmts : Makes (fun stmts => ∀ stmt ∈ stmts, Fits Stmt.inBody stmt)
      (stmtList nested stops) := by
    refine .repeatList fun found hfound => .after fun _ => .ite (.pure hfound) (.ite ?_ ?_)
    · exact .after fun _ => .pure hfound
    · apply Makes.bind (steppingStmt_shapes hnested)
      intro stmt hstmt
      exact .pure (List.forall_mem_cons.2 ⟨hstmt, hfound⟩)
  exact hstmts.weaken Stmt.shapedAll_iff.2

theorem block_shapes : MakesOrFails Stmt.ShapedBlock (block nested) := by
  apply MakesOrFails.bind (expect_makes _ _)
  intro opening hopening
  apply MakesOrFails.bind (.lift (stmtList_shapes hnested _))
  intro stmts hstmts
  apply MakesOrFails.bind ((expect_makes _ _).onFailure _)
  intro closing hclosing
  apply MakesOrFails.pure
  rw [Stmt.ShapedBlock]
  exact ⟨hopening, hstmts, hclosing⟩

omit hnested in
theorem fits_block {body : Block} (hbody : Stmt.ShapedBlock body) :
    Fits Stmt.isElse (.block body) := by
  refine ⟨rfl, ?_⟩
  rw [Stmt.Shaped]
  exact hbody

theorem elseBranch_shapes :
    MakesOrFails (Stmt.ShapedPart Stmt.isElse) (elseBranch nested) := by
  have hsome (branch : Stmt) (hbranch : Fits Stmt.isElse branch) :
      Stmt.ShapedPart Stmt.isElse (some branch) := by
    rw [Stmt.ShapedPart]
    exact hbranch
  apply MakesOrFails.after
  intro keyword
  cases keyword with
  | none => exact .pure trivial
  | some keyword =>
      apply MakesOrFailsAt.look
      intro kind
      apply MakesOrFailsAt.ite
      · intro hif
        apply MakesOrFailsAt.bind (hnested.ifElse.strengthen fun _ hstate =>
          hstate.2.symm.trans hif)
        exact fun branch hbranch => .pure (hsome branch hbranch)
      intro _
      apply MakesOrFailsAt.of_makes
      apply MakesOrFails.ite
      · apply MakesOrFails.bind (block_shapes hnested)
        intro body hbody
        exact .pure (hsome _ (fits_block hbody))
      · exact .after fun _ => .after fun _ => .fail _ _ _

theorem ifStmt_shapes : MakesOrFailsAt (Facing .ifKw) (Fits Stmt.isElse) (ifStmt nested) := by
  apply MakesOrFailsAt.bind (.lift (advance_makes_kind _))
  intro keyword hkeyword
  apply MakesOrFails.after
  intro kind
  apply MakesOrFails.ite
  · exact .after fun _ => .after fun _ => .fail _ _ _
  apply MakesOrFails.bind (.lift (hnested.expr _))
  intro condition hcondition
  apply MakesOrFails.after
  intro kind
  apply MakesOrFails.ite
  · exact .after fun _ => .fail _ _ _
  apply MakesOrFails.bind (block_shapes hnested)
  intro body hbody
  apply MakesOrFails.bind (elseBranch_shapes hnested)
  intro otherwise hotherwise
  apply MakesOrFails.pure
  refine ⟨rfl, ?_⟩
  rw [Stmt.Shaped]
  exact ⟨hkeyword, hcondition, hbody, hotherwise⟩

theorem loopBody_shapes : MakesOrFails Stmt.ShapedBlock (loopBody nested) :=
  (block_shapes hnested).between _ _

theorem rangeTargets_shapes (keyword : Token) :
    MakesOrFails (fun targets => RangeShaped targets.1 targets.2.1 targets.2.2)
      (rangeTargets nested keyword) := by
  have hvalue : Makes (fun value => ∀ target ∈ value, target.Shaped) (rangeValue nested) := by
    apply Makes.after
    intro comma
    cases comma with
    | some comma =>
        apply Makes.bind (hnested.expr _)
        intro value hvalue
        exact .pure fun _ hmem => Option.mem_some_iff.1 hmem ▸ hvalue
    | none => exact .pure (by simp)
  apply MakesOrFails.after
  intro kind
  apply MakesOrFails.ite
  · exact .pure ⟨by simp, by simp, by simp, by simp, by simp⟩
  apply MakesOrFails.bind (.lift (hnested.expr _))
  intro key hkey
  apply MakesOrFails.bind (.lift hvalue)
  intro value hvalue
  apply MakesOrFailsAt.look
  intro kind
  apply MakesOrFailsAt.ite
  · intro hkind
    apply MakesOrFailsAt.bind (.lift (advance_makes_seen kind))
    intro op hop
    apply MakesOrFails.pure
    constructor
    · exact ⟨fun _ => rfl, fun _ => rfl⟩
    · exact fun _ => rfl
    · exact fun _ hmem => Option.mem_some_iff.1 hmem ▸ hkey
    · exact hvalue
    · intro sign hmem
      rw [← Option.mem_some_iff.1 hmem, hop]
      simpa [or_comm] using hkind
  · exact fun _ => .of_makes (.after fun _ => .after fun _ => .fail _ _ _)

theorem rangeLoop_shapes {keyword : Token} (hkeyword : keyword.kind = .forKw) :
    MakesOrFails (Fits Stmt.inBody) (rangeLoop nested keyword) := by
  apply MakesOrFails.bind (rangeTargets_shapes hnested keyword)
  intro targets htargets
  apply MakesOrFails.bind (expect_makes _ _)
  intro rangeKeyword hrange
  apply MakesOrFails.bind (.lift (hnested.expr _))
  intro subject hsubject
  apply MakesOrFails.bind (loopBody_shapes hnested)
  intro body hbody
  apply MakesOrFails.pure
  refine ⟨rfl, ?_⟩
  rw [Stmt.Shaped]
  exact ⟨hkeyword, htargets, hrange, hsubject, hbody⟩

/-- Only the last clause of a header may be an increment or a decrement. -/
theorem forClause_shapes (clause : ForClause) :
    MakesOrFails (fun stmt => clause.allows stmt ∧ Fits Stmt.isSimple stmt)
      (forClause nested clause) := by
  apply MakesOrFails.bind (simpleStmt_shapes hnested)
  intro stmt hstmt
  split
  · next hallows => exact .pure ⟨hallows, hstmt⟩
  · exact .fail _ _ _

omit hnested in
theorem isForInit_of_allows {stmt : Stmt} (hallows : ForClause.init.allows stmt)
    (hstmt : stmt.isSimple) : stmt.isForInit := by
  cases stmt <;> simp_all [ForClause.allows, Stmt.isSimple, Stmt.isForInit]

theorem forLoop_shapes {keyword : Token} (hkeyword : keyword.kind = .forKw)
    {first after : Option Stmt} {condition : Option Expr}
    (hfirst : Stmt.ShapedPart Stmt.isForInit first)
    (hcondition : ∀ expr ∈ condition, expr.Shaped)
    (hafter : Stmt.ShapedPart Stmt.isSimple after) :
    MakesOrFails (Fits Stmt.inBody)
      (do return .forLoop keyword first condition after (← loopBody nested)) := by
  apply MakesOrFails.bind (loopBody_shapes hnested)
  intro body hbody
  apply MakesOrFails.pure
  refine ⟨rfl, ?_⟩
  rw [Stmt.Shaped]
  exact ⟨hkeyword, hfirst, hcondition, hafter, hbody⟩

theorem threeClauseLoop_shapes {keyword : Token} (hkeyword : keyword.kind = .forKw) :
    MakesOrFails (Fits Stmt.inBody) (threeClauseLoop nested keyword) := by
  apply MakesOrFails.bind ((forClause_shapes hnested .init).unlessAt _)
  intro first hfirst
  apply MakesOrFails.after
  intro _
  apply MakesOrFails.bind (.unlessAt (.lift (hnested.expr _)) _)
  intro condition hcondition
  apply MakesOrFails.after
  intro _
  apply MakesOrFails.bind ((forClause_shapes hnested .post).unlessAt _)
  intro after hafter
  refine forLoop_shapes hnested hkeyword (Stmt.shapedPart_iff.2 ?_) hcondition
    (Stmt.shapedPart_iff.2 ?_)
  · intro stmt hstmt
    obtain ⟨hallows, hsimple, hshaped⟩ := hfirst stmt hstmt
    exact ⟨isForInit_of_allows hallows hsimple, hshaped⟩
  · exact fun stmt hstmt => (hafter stmt hstmt).2

theorem loop_shapes : MakesOrFailsAt (Facing .forKw) (Fits Stmt.inBody) (loop nested) := by
  apply MakesOrFailsAt.bind (.lift (advance_makes_kind _))
  intro keyword hkeyword
  refine .onFailure (.onFailure ?_ _) _
  apply MakesOrFails.after
  intro kind
  apply MakesOrFails.ite
  · exact forLoop_shapes hnested hkeyword trivial (by simp) trivial
  refine .after fun _ => .ite (rangeLoop_shapes hnested hkeyword) ?_
  refine .after fun _ => .ite (threeClauseLoop_shapes hnested hkeyword) ?_
  apply MakesOrFails.bind (.lift (hnested.expr _))
  intro condition hcondition
  exact forLoop_shapes hnested hkeyword trivial (by simpa using hcondition) trivial

theorem caseClause_shapes (horderly : nested.Orderly) (kind : Kind)
    (hkind : kind = .caseKw ∨ kind = .defaultKw) :
    MakesOrFailsAt (Facing kind) (Fits Stmt.isClause) (caseClause nested) := by
  have hvalues (keyword : Token) (hkeyword : keyword.kind = kind) :
      Makes (fun values => CaseValues keyword values ∧ Expr.ShapedAll values)
        (caseValues nested keyword) := by
    unfold caseValues
    split
    · next hcase =>
        exact (exprList_shapes hnested horderly).weaken fun hvalues =>
          ⟨.inl ⟨hcase, hvalues.1⟩, hvalues.2⟩
    · next hcase =>
        have hdefault := hkind.resolve_left fun hcase' => hcase (hkeyword.trans hcase')
        exact .pure ⟨.inr ⟨hkeyword.trans hdefault, rfl⟩, trivial⟩
  apply MakesOrFailsAt.bind (.lift (advance_makes_kind kind))
  intro keyword hkeyword
  apply MakesOrFails.bind (.lift (hvalues keyword hkeyword))
  intro values hvalues
  apply MakesOrFails.bind (expect_makes _ _)
  intro colon hcolon
  apply MakesOrFails.bind (.lift (stmtList_shapes hnested _))
  intro body hbody
  apply MakesOrFails.pure
  refine ⟨rfl, ?_⟩
  rw [Stmt.Shaped]
  exact ⟨hvalues.1, hvalues.2, hcolon, hbody⟩

/-- A clause behind those `found` is no second `default`. -/
theorem caseStmt_shapes (horderly : nested.Orderly) (found : List Stmt) (kind : Kind)
    (hkind : kind = .caseKw ∨ kind = .defaultKw) :
    MakesAt (Facing kind) (fun stmt => Fits Stmt.inSwitch stmt ∧
      (isDefaultClause stmt → ¬ found.any isDefaultClause)) (caseStmt nested found) := by
  have hbad (bad : BadNode) : Fits Stmt.inSwitch (.bad bad) ∧
      (isDefaultClause (.bad bad) → ¬ found.any isDefaultClause) := by
    simp [Fits, Stmt.inSwitch, Stmt.isBad, isDefaultClause]
  apply MakesAt.look
  intro start
  apply MakesAt.bind_run ((caseClause_shapes hnested horderly kind hkind).strengthen
    fun _ hstate => hstate.1)
  · intro clause hclause
    apply MakesAt.ite
    · exact fun _ => .of_makes (.after fun bad => .pure (hbad bad))
    · intro hfirst
      have hinSwitch : clause.inSwitch := by simp [Stmt.inSwitch, hclause.1]
      refine .of_makes (.pure ⟨⟨hinSwitch, hclause.2⟩, fun hdefault hfound => hfirst ?_⟩)
      exact Bool.and_eq_true_iff.2 ⟨hdefault, hfound⟩
  · exact fun _ => .after fun _ => .after fun _ => .pure (hbad _)

theorem casePass_shapes (horderly : nested.Orderly) {found : List Stmt}
    (hfound : ClausesShaped found) :
    Makes (Gathered ClausesShaped) (casePass nested found) := by
  apply MakesAt.look
  intro kind
  apply MakesAt.ite
  · exact fun _ => .of_makes (.pure hfound)
  intro _
  apply MakesAt.ite
  · exact fun _ => .of_makes (.after fun _ => .pure hfound)
  intro _
  apply MakesAt.ite
  · intro hcase
    have hkind : kind = .caseKw ∨ kind = .defaultKw := by simpa using hcase
    apply MakesAt.bind ((caseStmt_shapes hnested horderly found kind hkind).strengthen
      fun _ hstate => hstate.2.symm)
    exact fun stmt hstmt => .pure (hfound.cons hstmt.1 hstmt.2)
  · intro _
    apply MakesAt.of_makes
    have hstray : Makes (fun stmt => stmt.isBad) strayCase :=
      .after fun _ => .after fun _ => .after fun _ => .after fun _ => .after fun _ =>
        .after fun _ => .pure rfl
    apply Makes.bind hstray
    intro stmt hstmt
    cases stmt with
    | bad node =>
        apply Makes.pure
        apply hfound.cons ⟨rfl, Stmt.shaped_bad node⟩
        exact fun hdefault => absurd hdefault Bool.false_ne_true
    | _ => simp [Stmt.isBad] at hstmt

theorem caseList_shapes (horderly : nested.Orderly) :
    Makes ClausesShaped (caseList nested) := by
  apply Makes.bind (.repeatStep (fun _ => casePass_shapes hnested horderly) ⟨by simp, by simp⟩)
  intro found hfound
  apply Makes.pure
  constructor
  · exact fun stmt hstmt => hfound.1 stmt (List.mem_reverse.1 hstmt)
  · rw [List.countP_reverse]
    exact hfound.2

theorem switchInit_shapes :
    MakesOrFails (Stmt.ShapedPart Stmt.isSimple) (switchInit nested) := by
  apply MakesOrFails.after
  intro semicolon
  apply MakesOrFails.ite
  · apply MakesOrFails.bind (simpleStmt_shapes hnested)
    intro stmt hstmt
    apply MakesOrFails.after
    intro _
    apply MakesOrFails.pure
    rw [Stmt.ShapedPart]
    exact hstmt
  · exact .pure trivial

theorem switch_shapes (horderly : nested.Orderly) :
    MakesOrFailsAt (Facing .switchKw) (Fits Stmt.inBody) (switch nested) := by
  apply MakesOrFailsAt.bind (.lift (advance_makes_kind _))
  intro keyword hkeyword
  refine .onFailure (.onFailure ?_ _) _
  apply MakesOrFails.bind (switchInit_shapes hnested)
  intro first hfirst
  apply MakesOrFails.bind (.unlessAt (.lift (hnested.expr _)) _)
  intro tag htag
  apply MakesOrFails.bind (expect_makes _ _)
  intro opening hopening
  apply MakesOrFails.bind (.lift (caseList_shapes hnested horderly))
  intro cases hcases
  apply MakesOrFails.bind ((expect_makes _ _).onFailure _)
  intro closing hclosing
  apply MakesOrFails.pure
  refine ⟨rfl, ?_⟩
  rw [Stmt.Shaped]
  exact ⟨hkeyword, hfirst, htag, hopening, Stmt.shapedAll_iff.2 hcases.1, hcases.2, hclosing⟩

theorem stmtInside_shapes (horderly : nested.Orderly) :
    MakesOrFails (Fits Stmt.inBody) (stmtInside nested) := by
  have hsimple : MakesOrFails (Fits Stmt.inBody) (simpleStmt nested) :=
    (simpleStmt_shapes hnested).weaken fun hstmt => hstmt.inBody Stmt.inBody_of_isSimple
  have hvalue (keyword : Kind) (what : String) (make : ValueDecl → Stmt)
      (hmake : ∀ decl, decl.Shaped keyword → Fits Stmt.inBody (make decl)) :
      MakesOrFailsAt (Facing keyword) (Fits Stmt.inBody)
        (do return make (← valueDecl nested what)) := by
    apply MakesOrFailsAt.bind (valueDecl_shapes hnested keyword what)
    exact fun decl hdecl => .pure (hmake decl hdecl)
  have hseen {kind : Kind} (state : State) (hstate : True ∧ kind = state.cursor.kind) :
      Facing kind state := hstate.2.symm
  apply MakesOrFailsAt.look
  intro kind
  split
  · exact (hvalue .constKw _ .const fun decl hdecl => ⟨rfl, by rwa [Stmt.Shaped]⟩).strengthen
      hseen
  · exact (hvalue .varKw _ .var fun decl hdecl => ⟨rfl, by rwa [Stmt.Shaped]⟩).strengthen hseen
  · exact .lift ((returnStmt_shapes hnested horderly).strengthen hseen)
  · exact ((ifStmt_shapes hnested).strengthen hseen).weaken fun hstmt =>
      hstmt.inBody Stmt.inBody_of_isElse
  · exact (loop_shapes hnested).strengthen hseen
  · exact (switch_shapes hnested horderly).strengthen hseen
  · exact (branchStmt_shapes .breakKw (.inl rfl)).strengthen hseen
  · exact (branchStmt_shapes .continueKw (.inr rfl)).strengthen hseen
  · exact fallThroughStmt_shapes.strengthen hseen
  · apply MakesOrFailsAt.of_makes
    apply MakesOrFails.bind (block_shapes hnested)
    intro body hbody
    exact .pure ((fits_block hbody).inBody Stmt.inBody_of_isElse)
  · apply MakesOrFailsAt.look
    intro begins
    apply MakesOrFailsAt.ite
    · intro _
      apply MakesOrFailsAt.bind ((typeDecl_shapes hnested horderly).strengthen
        fun _ hstate => hstate.1.2.symm)
      exact fun decl hdecl => .pure ⟨rfl, by rwa [Stmt.Shaped]⟩
    · exact fun _ => .of_makes hsimple
  · exact .of_makes hsimple

end Statements

theorem nested_shapes (levels : Nat) : (Grammar.nested levels).Shapes := by
  have hexpr (bad : BadNode) : (Expr.bad bad).Shaped := Expr.shaped_bad bad
  have hstmt (bad : BadNode) : Fits Stmt.inBody (.bad bad) := ⟨rfl, Stmt.shaped_bad bad⟩
  induction levels with
  | zero =>
      constructor
      · exact fun _ => .after fun _ => .recoverWith .failTooDeep hexpr _ _
      · exact .after fun _ => .recoverWith .failTooDeep hstmt _ _
      · exact .of_makes .failTooDeep
  | succ levels ih =>
      have horderly := nested_orderly levels
      constructor
      · exact fun least => .after fun _ => .recoverWith
          (.descend (.lift (exprInside_shapes ih horderly least))) hexpr _ _
      · exact .after fun _ => .recoverWith (stmtInside_shapes ih horderly).descend hstmt _ _
      · exact (ifStmt_shapes ih).descend fun _ hstate => hstate

theorem outermost_shapes : outermost.Shapes := nested_shapes maxNesting

theorem funcDecl_makes_shaped : MakesOrFailsAt (Facing .funcKw) FuncDecl.Shaped funcDecl := by
  have hbody : MakesOrFails Stmt.ShapedBlock funcBody :=
    .after fun _ => (block_shapes outermost_shapes).between _ _
  apply MakesOrFailsAt.bind (.lift (advance_makes_kind _))
  intro keyword hkeyword
  apply MakesOrFails.bind (expectName_makes _)
  intro name hname
  apply MakesOrFails.bind (paramList_makes true).attempt
  intro params hparams
  apply MakesOrFails.bind results_makes.attempt
  intro results hresults
  apply MakesOrFails.bind hbody.attempt
  intro body hbody
  apply MakesOrFails.bind ((MakesOrFails.settle hparams).onFailure _)
  intro params hparams
  apply MakesOrFails.bind (.settle hresults)
  intro results hresults
  apply MakesOrFails.bind (.settle hbody)
  intro body hbody
  exact .pure ⟨hkeyword, hname, hparams, hresults, hbody⟩

/-- The kind of the second token is known before the first one is read. -/
theorem implementsDecl_makes :
    MakesOrFailsAt (fun state => Facing .ident state ∧
      state.cursor.kindAt 1 = .implementsKw) ImplementsDecl.WellFormed implementsDecl := by
  have hadvance : Meets (fun state => Facing .ident state ∧
      state.cursor.kindAt 1 = .implementsKw) advance
      fun typeName state => Facing .implementsKw state ∧ typeName.kind = .ident := by
    intro state hstate
    obtain ⟨hkind, hnext⟩ := hstate
    have hread : state.cursor.kind ≠ .eof := by
      rw [hkind]
      decide
    exact ⟨(Cursor.kind_next hread).trans hnext, hkind⟩
  apply Yields.bind (.lift hadvance)
  intro typeName
  apply Yields.of_known
  intro htype
  apply MakesOrFailsAt.bind (.lift (advance_makes_kind _))
  intro keyword hkeyword
  apply MakesOrFails.bind (qualifiedName_makes _)
  intro interface hinterface
  exact .pure ⟨htype, hkeyword, hinterface⟩

theorem packageClause_makes :
    MakesOrFails (fun clause => clause.1.kind = .packageKw ∧ clause.2.kind = .ident)
      packageClause := by
  apply MakesOrFailsAt.look
  intro kind
  apply MakesOrFailsAt.ite
  · intro hkind
    apply MakesOrFailsAt.bind (.lift (advance_makes_seen kind))
    intro keyword hkeyword
    apply MakesOrFails.bind ((expectName_makes _).onFailure _)
    intro name hname
    exact .pure ⟨hkeyword.trans hkind, hname⟩
  · exact fun _ => .of_makes (.after fun _ => .failHere _)

end OriSyntax.Grammar

namespace OriSyntax

/-- A top-level item of the sort of its bucket. -/
def Item.Shaped : Item → Prop
  | .const stmt => stmt.ShapedConst
  | .decl inner => inner.ShapedItem
  | .struct inner => StructDecl.Shaped inner
  | .interface inner => InterfaceDecl.Shaped inner
  | .enum inner => EnumDecl.WellFormed inner
  | .sum inner => SumDecl.Shaped inner
  | .implements inner => inner.WellFormed

theorem Item.shaped_ofTypeDecl {decl : Decl} (hdecl : decl.ShapedType) :
    (Item.ofTypeDecl decl).Shaped := by
  cases decl with
  | struct _ | interface _ | enum _ | sum _ => exact hdecl
  | func _ | implements _ | bad _ => exact absurd hdecl id

theorem File.shaped_ofItems {package name : Token} {items : List Item}
    (hitems : ∀ item ∈ items, item.Shaped)
    (hheader : (File.ofItems package name items).ShapedHeader) :
    (File.ofItems package name items).Shaped := by
  constructor
  · exact hheader
  all_goals
    simp only [File.ofItems, List.mem_filterMap]
    rintro part ⟨item, hmem, hpart⟩
    have hitem := hitems item hmem
    cases item <;> simp_all [Item.Shaped]

namespace Grammar

theorem item_shapes : Makes Item.Shaped item := by
  have hdecl (bad : BadNode) : (Item.decl (.bad bad)).Shaped := trivial
  have hstray : MakesOrFails Item.Shaped (strayItem : Production Item) :=
    .after fun _ => .after fun _ => .after fun _ => .throw _
  apply MakesAt.look
  intro start
  have hseen {kind : Kind} (hkind : start.kind = kind) (state : State)
      (hstate : True ∧ start = state.cursor.current) : Facing kind state := by
    rw [← hkind, hstate.2]
    rfl
  dsimp only
  split
  · next hkind =>
      refine .recoverWith ?_ (fun _ => trivial) _ _
      apply MakesOrFailsAt.bind ((valueDecl_shapes outermost_shapes .constKw _).strengthen
        (hseen hkind))
      exact fun decl hdecl => .pure hdecl
  · refine .recoverWith (.of_makes ?_) hdecl _ _
    exact .bind (.after fun _ => .after fun _ => .pure trivial) fun _ hbad => .pure hbad
  · next hkind =>
      refine .recoverWith ?_ hdecl _ _
      apply MakesOrFailsAt.bind (funcDecl_makes_shaped.strengthen (hseen hkind))
      exact fun decl hdecl => .pure hdecl
  · next hkind =>
      refine .recoverWith ?_ hdecl _ _
      apply MakesOrFailsAt.bind ((typeDecl_shapes outermost_shapes outermost_orderly).strengthen
        (hseen hkind))
      exact fun decl hdecl => .pure (Item.shaped_ofTypeDecl hdecl)
  · next hkind =>
      apply MakesAt.look
      intro second
      apply MakesAt.ite
      · intro hsecond
        refine .recoverWith ?_ hdecl _ _
        apply MakesOrFailsAt.bind (implementsDecl_makes.strengthen fun state hstate =>
          ⟨hseen hkind state hstate.1, hstate.2.symm.trans hsecond⟩)
        exact fun decl hdecl => .pure hdecl
      · exact fun _ => .of_makes (.recoverWith hstray hdecl _ _)
  · exact .of_makes (.recoverWith hstray hdecl _ _)

theorem file_shapes : Makes File.Shaped file := by
  have hitems : Makes (fun found => ∀ item ∈ found, item.Shaped) items := by
    refine .repeatList fun found hfound => .after fun _ => .ite (.pure hfound) (.ite ?_ ?_)
    · exact .after fun _ => .pure hfound
    · exact .bind item_shapes fun item hitem => .pure (List.forall_mem_cons.2 ⟨hitem, hfound⟩)
  apply Makes.bind_run packageClause_makes
  · intro clause hclause
    apply Makes.bind hitems
    intro found hfound
    exact .pure (File.shaped_ofItems hfound (.inl hclause))
  · intro bad
    apply Makes.bind hitems
    intro found hfound
    refine .pure (File.shaped_ofItems (List.forall_mem_cons.2 ⟨trivial, hfound⟩) (.inr ?_))
    exact ⟨rfl, rfl, bad, by simp [File.ofItems]⟩

end Grammar

/-- Whatever the tokens are, the tree has the shape that later passes rely on: every bucket
holds items of its sort, clauses stand only in switches, headers and branches are of the
forms that their places allow, and every stored token is of the kind that its field names.
Only bad nodes may stand anywhere in their category. -/
theorem shaped_parse (tokens : List Token) : (parse tokens).file.Shaped :=
  Grammar.file_shapes { cursor := .ofTokens tokens } trivial

end OriSyntax
