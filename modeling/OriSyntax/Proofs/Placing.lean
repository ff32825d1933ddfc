import OriSyntax.Proofs.Branches
import OriSyntax.Proofs.Lossless
import OriSyntax.Proofs.Reports
import OriSyntax.Proofs.StmtShaping

/-!
Statements that branch stand where they may, whatever the tokens are.  The count of loops is
what a tree is made by: where it is not zero there is a loop around the statement, and it is
set to zero for the body of a function.  A `fallthrough` is accepted only in front of a token
that ends its body or begins a clause, and at such a token no statement can be read.
-/

namespace OriSyntax.Grammar

variable {α β : Type} {nested : Nested} {inLoop : Bool}

/-- If the state is in the body of a loop, then so is the statement to be read. -/
def Allowed (inLoop : Bool) (state : State) : Prop := 0 < state.loopDepth → inLoop

/-- Kinds of the tokens in front of which a `fallthrough` may stand. -/
def endsClause (kind : Kind) : Bool := kind ∈ [.rbrace, .eof, .caseKw, .defaultKw]

/-- A statement that hands on to the next clause was read up to a token that ends one. -/
def HandsOn (start : State) (stmt : Stmt) (stop : State) : Prop :=
  stmt.isFallThrough →
    stop.cursor.remaining < start.cursor.remaining ∧ endsClause stop.cursor.kind

/-- Statements of a level stand where they may, and none can be read where a clause begins. -/
structure Nested.Places (nested : Nested) : Prop where
  stmt : ∀ inLoop start, Meets (fun state => state = start ∧ Allowed inLoop state) nested.stmt
    fun stmt stop => stmt.Placed inLoop Stmt.isBad ∧ HandsOn start stmt stop
  ifElse : ∀ inLoop, MakesOrFailsAt (Allowed inLoop) (Stmt.PlacedAlone inLoop Stmt.isBad)
    nested.ifElse
  noExpr : ∀ {kind}, kind = .caseKw ∨ kind = .defaultKw →
    ∀ least, MakesAt (Facing kind) (·.isBad) (nested.expr least)
  noStmt : ∀ {kind}, kind = .caseKw ∨ kind = .defaultKw →
    MakesAt (Facing kind) (·.isBad) nested.stmt

theorem Allowed.follows {start stop : State} (hstart : Allowed inLoop start)
    (hfollows : start.Follows stop) : Allowed inLoop stop := by
  rw [Allowed, hfollows.loopDepth]
  exact hstart

section Allowed

variable {holds : α → Prop} {makes : β → Prop}

namespace MakesAt

variable {step : Step α} {next : α → Step β}

/-- The outcome of the first step need not matter. -/
theorem past (horderly : Orderly step)
    (hnext : ∀ value, MakesAt (Allowed inLoop) makes (next value)) :
    MakesAt (Allowed inLoop) makes (step >>= next) :=
  fun start hstart => hnext _ _ (hstart.follows (horderly start))

theorem before (hstep : MakesAt (Allowed inLoop) holds step) (horderly : Orderly step)
    (hnext : ∀ value, holds value → MakesAt (Allowed inLoop) makes (next value)) :
    MakesAt (Allowed inLoop) makes (step >>= next) :=
  fun start hstart => hnext _ (hstep start hstart) _ (hstart.follows (horderly start))

/-- A loop that gathers items, the last one first. -/
theorem repeatList {pass : List α → Step (ForInStep (List α))}
    (horderly : ∀ found, Orderly (pass found))
    (hpass : ∀ found, (∀ item ∈ found, holds item) → MakesAt (Allowed inLoop)
      (Gathered fun items => ∀ item ∈ items, holds item) (pass found)) :
    MakesAt (Allowed inLoop) (fun items => ∀ item ∈ items, holds item)
      (do return (← repeatStep pass []).reverse) := by
  suffices hpasses : ∀ bound found, (∀ item ∈ found, holds item) → MakesAt (Allowed inLoop)
      (fun items => ∀ item ∈ items, holds item) (passes pass bound found) by
    have hrepeat : MakesAt (Allowed inLoop) (fun items => ∀ item ∈ items, holds item)
        (repeatStep pass []) :=
      fun state hstate => hpasses _ [] (fun _ hnil => nomatch hnil) state hstate
    exact .bind hrepeat fun items hitems =>
      .pure fun item hitem => hitems item (List.mem_reverse.1 hitem)
  intro bound
  induction bound with
  | zero => exact fun found hfound => .of_makes (.pure hfound)
  | succ bound ih =>
      intro found hfound
      apply before (hpass found hfound) (horderly found)
      intro turn hturn
      cases turn with
      | yield found => exact ih found hturn
      | done result => exact .of_makes (.pure hturn)

end MakesAt

namespace MakesOrFailsAt

variable {production : Production α} {next : α → Production β}

theorem before (hproduction : MakesOrFailsAt (Allowed inLoop) holds production)
    (horderly : Orderly production.run)
    (hnext : ∀ value, holds value → MakesOrFailsAt (Allowed inLoop) makes (next value)) :
    MakesOrFailsAt (Allowed inLoop) makes (production >>= next) := by
  have hkeeps : Yields (Allowed inLoop) production (fun _ => Allowed inLoop) fun _ _ => True :=
    (horderly.run_keeps fun _ _ hfollows hstart => hstart.follows hfollows).weaken
      (fun _ _ hstate => hstate) fun _ _ _ => trivial
  apply Yields.bind (Yields.and_succeeded hkeeps hproduction)
  intro value
  exact .of_known (hnext value)

/-- The outcome of the first production need not matter. -/
theorem past (horderly : Orderly production.run)
    (hnext : ∀ value, MakesOrFailsAt (Allowed inLoop) makes (next value)) :
    MakesOrFailsAt (Allowed inLoop) makes (production >>= next) :=
  before (.of_makes .any) horderly fun value _ => hnext value

theorem onFailure (hproduction : MakesOrFailsAt (Allowed inLoop) holds production)
    (repair : BadNode → Step BadNode) :
    MakesOrFailsAt (Allowed inLoop) holds (onFailure production repair) :=
  Yields.onFailure hproduction fun _ => .top

end MakesOrFailsAt

end Allowed

theorem branchStmt_places :
    MakesOrFailsAt (Allowed inLoop) (Stmt.PlacedAlone inLoop Stmt.isBad) branchStmt := by
  refine .past advance_orderly fun keyword => Yields.bind (.lift get_meets) fun found => ?_
  split
  · exact MakesOrFailsAt.of_makes (.fail _ _ _)
  · next hinside =>
      refine Yields.of_each fun state hstate => ?_
      obtain ⟨hallowed, rfl⟩ := hstate
      have hloop : inLoop := hallowed (Nat.pos_of_ne_zero hinside)
      apply MakesOrFailsAt.of_makes
      refine .after fun _ => .after fun _ => .ite (.pure ?_) (.after fun _ => .fail _ _ _)
      split
      · exact ⟨by simp [Stmt.isFallThrough], by rwa [Stmt.Placed]⟩
      · exact ⟨by simp [Stmt.isFallThrough], by rwa [Stmt.Placed]⟩

/-- A `fallthrough` is accepted only where a clause or its body ends. -/
theorem fallThroughStmt_handsOn (start : State) :
    Yields (fun state => state = start ∧ Facing .fallthroughKw state) fallThroughStmt
      (fun _ stop => stop.cursor.remaining < start.cursor.remaining ∧
        endsClause stop.cursor.kind) fun _ _ => True := by
  have hadvance : Meets (fun state => state = start ∧ Facing .fallthroughKw state) advance
      fun _ stop => stop.cursor.remaining < start.cursor.remaining := by
    refine (advance_consumes.reads start.cursor.remaining).strengthen ?_
    rintro state ⟨rfl, hkind⟩
    refine ⟨Nat.le_refl _, ?_⟩
    rw [hkind]
    decide
  have haccept : Meets (fun stop => stop.cursor.remaining < start.cursor.remaining)
      (accept? .semicolon) fun _ stop => stop.cursor.remaining < start.cursor.remaining :=
    (accept?_orderly _).keeps fun _ _ hfollows hstart =>
      Nat.lt_of_le_of_lt hfollows.remaining_le hstart
  apply Yields.bind (.lift hadvance)
  intro keyword
  apply Yields.bind (.lift haccept)
  intro semicolon
  apply Yields.bind (.lift currentKind_meets)
  intro kind
  split
  · next hkind =>
      apply Yields.pure
      rintro stop ⟨hremaining, rfl⟩
      exact ⟨hremaining, decide_eq_true hkind⟩
  · exact .bind (.lift .top) fun _ => .bind (.lift .top) fun _ => .throw fun _ _ => trivial

/-- What was gathered of a body, the last statement first, as long as more may follow: if it
ends with a `fallthrough`, the body or its clause ends here. -/
structure Going (inLoop : Bool) (found : List Stmt) (state : State) : Prop where
  allowed : Allowed inLoop state
  placed : Stmt.PlacedAll inLoop Stmt.isBad found.reverse
  ends : ∀ stmt ∈ found.head?, stmt.isFallThrough → endsClause state.cursor.kind

theorem Stmt.placedAll_concat {follows : Stmt → Bool} {stmts : List Stmt} {stmt : Stmt}
    (hstmts : Stmt.PlacedAll inLoop follows stmts) (hstmt : stmt.Placed inLoop follows)
    (hlast : ∀ last ∈ stmts.getLast?, last.isFallThrough → follows stmt) :
    Stmt.PlacedAll inLoop follows (stmts ++ [stmt]) := by
  induction stmts with
  | nil => exact ⟨hstmt, fun _ next hnone => absurd hnone (Option.not_mem_none next), trivial⟩
  | cons first rest ih =>
      obtain ⟨hfirst, hfalls, hrest⟩ := hstmts
      refine ⟨hfirst, fun hcase next hnext => ?_, ih hrest fun last hmem => hlast last ?_⟩
      · cases rest with
        | nil =>
            obtain rfl : stmt = next := Option.mem_some_iff.1 hnext
            exact hlast first rfl hcase
        | cons second more => exact hfalls hcase next hnext
      · cases rest with
        | nil => exact absurd hmem (Option.not_mem_none last)
        | cons second more => rwa [List.getLast?_cons_cons]

/-- What reads a token is not stepped over. -/
theorem position_ne_of_remaining_lt {start stop : State} (hfollows : start.Follows stop)
    (hremaining : stop.cursor.remaining < start.cursor.remaining) :
    stop.cursor.position ≠ start.cursor.position := by
  intro hidle
  obtain ⟨run, hrun⟩ := hfollows.reads
  rw [hrun.eq_of_position hidle] at hremaining
  exact Nat.lt_irrefl _ hremaining

section Statements

variable (hnested : nested.Places) (horderly : nested.Orderly)
include hnested horderly

omit hnested horderly in
/-- Stepping over a token does not change the statement. -/
theorem steppingStmt_makes_at {here : State → Prop} {holds : Stmt → Prop}
    (hstmt : MakesAt here holds nested.stmt) : MakesAt here holds (steppingStmt nested) := by
  refine .look fun _ => .bind (hstmt.strengthen fun _ hstate => hstate.1) fun stmt hstmt => ?_
  exact .after fun _ => .ite (.after fun _ => .pure hstmt) (.pure hstmt)

theorem steppingStmt_places (inLoop : Bool) (start : State) :
    Meets (fun state => state = start ∧ Allowed inLoop state) (steppingStmt nested)
      fun stmt stop => stmt.Placed inLoop Stmt.isBad ∧ HandsOn start stmt stop := by
  have hstmt : Meets (fun state => state = start ∧ Allowed inLoop state) nested.stmt
      fun stmt stop => (stmt.Placed inLoop Stmt.isBad ∧ HandsOn start stmt stop) ∧
        start.Follows stop :=
    (hnested.stmt inLoop start).and
      ((horderly.stmt.meets_follows start).strengthen fun _ hstate => hstate.1)
  refine .bind get_meets fun first => .of_each fun state hstate => ?_
  obtain ⟨⟨rfl, hallowed⟩, rfl⟩ := hstate
  refine .bind (hstmt.strengthen fun _ hstate => ⟨hstate, hstate ▸ hallowed⟩) fun stmt => ?_
  refine .bind get_meets fun last => ?_
  split
  · next hidle =>
      refine .of_each fun state hstate => ?_
      obtain ⟨⟨⟨hplaced, hhands⟩, hfollows⟩, rfl⟩ := hstate
      refine .bind .top fun _ => .pure fun _ _ => ⟨hplaced, fun hfalls => ?_⟩
      exact absurd hidle (position_ne_of_remaining_lt hfollows (hhands hfalls).1)
  · exact .pure fun _ hstate => hstate.1.1

/-- Behind a `fallthrough` only what is bad is read as a statement. -/
theorem stmtPass_places {stops : Kind → Bool} (hstops : stops .rbrace) (found : List Stmt) :
    Meets (Going inLoop found) (stmtPass nested stops found)
      (Turns (Going inLoop) fun found _ => Stmt.PlacedAll inLoop Stmt.isBad found.reverse) := by
  refine .bind currentKind_meets fun kind => .of_each fun state hstate => ?_
  obtain ⟨hgoing, rfl⟩ := hstate
  split
  · exact .pure fun _ _ => hgoing.placed
  next hmore =>
  rw [Bool.or_eq_true, not_or, decide_eq_true_eq] at hmore
  split
  · next hsemicolon =>
      -- At a semicolon nothing ends, so what was read last is no `fallthrough`.
      refine .bind (advance_orderly.meets_follows state) fun _ => .pure fun stop hstop => ?_
      refine ⟨hgoing.allowed.follows hstop, hgoing.placed, fun last hlast hfalls => ?_⟩
      have hends := hgoing.ends last hlast hfalls
      rw [hsemicolon] at hends
      exact absurd hends (by decide)
  · -- Behind a `fallthrough` the next clause begins, and no statement.
    have hbad : Meets (· = state) (steppingStmt nested) fun stmt _ =>
        ∀ last ∈ found.reverse.getLast?, last.isFallThrough → stmt.isBad := by
      intro start hstart last hlast hfalls
      rw [List.getLast?_reverse] at hlast
      have hends := hgoing.ends last hlast hfalls
      simp only [endsClause, List.mem_cons, List.not_mem_nil, or_false, decide_eq_true_eq]
        at hends
      obtain hrbrace | heof | hclause := hends
      · rw [hrbrace] at hmore
        exact absurd hstops hmore.2
      · exact absurd heof hmore.1
      · rw [← (hstart : start = state)] at hclause
        exact steppingStmt_makes_at (hnested.noStmt hclause) start rfl
    have hstep := ((steppingStmt_places hnested horderly inLoop state).strengthen
      fun _ hstate => ⟨hstate, hstate ▸ hgoing.allowed⟩).and
        (hbad.and ((steppingStmt_consumes horderly).orderly.meets_follows state))
    refine .bind hstep fun stmt => .pure fun stop hstop => ?_
    obtain ⟨⟨hplaced, hhands⟩, hbad, hfollows⟩ := hstop
    refine ⟨hgoing.allowed.follows hfollows, ?_, fun last hlast hfalls => ?_⟩
    · rw [List.reverse_cons]
      exact Stmt.placedAll_concat hgoing.placed hplaced hbad
    · obtain rfl : stmt = last := Option.mem_some_iff.1 hlast
      exact (hhands hfalls).2

theorem stmtList_places {stops : Kind → Bool} (hstops : stops .rbrace) :
    MakesAt (Allowed inLoop) (Stmt.PlacedAll inLoop Stmt.isBad) (stmtList nested stops) := by
  have hstmts : MakesAt (Allowed inLoop)
      (fun found => Stmt.PlacedAll inLoop Stmt.isBad found.reverse)
      (repeatStep (stmtPass nested stops) []) :=
    (Meets.repeatStep (stmtPass_gains horderly stops) (stmtPass_places hnested horderly hstops)
      []).strengthen fun _ hallowed =>
        ⟨hallowed, trivial, fun last hnone => absurd hnone (Option.not_mem_none last)⟩
  exact .bind hstmts fun found hfound => .pure hfound

theorem block_places :
    MakesOrFailsAt (Allowed inLoop) (Stmt.PlacedBlock inLoop Stmt.isBad) (block nested) := by
  refine .past (expect_orderly _ _) fun opening => ?_
  have hstmts : MakesAt (Allowed inLoop) (Stmt.PlacedAll inLoop Stmt.isBad)
      (stmtList nested (· = .rbrace)) := stmtList_places hnested horderly rfl
  exact .bind (.lift hstmts) fun stmts hstmts => .after fun _ => .pure hstmts

theorem elseBranch_places :
    MakesOrFailsAt (Allowed inLoop) (Stmt.PlacedPart inLoop Stmt.isBad) (elseBranch nested) := by
  refine .past (accept?_orderly _) fun keyword => ?_
  cases keyword with
  | none => exact .of_makes (.pure trivial)
  | some keyword =>
      refine .past get_orderly fun kind => ?_
      refine .ite (fun _ => ?_) fun _ => .ite (fun _ => ?_) fun _ => ?_
      · exact .bind (hnested.ifElse inLoop) fun branch hbranch => .pure hbranch
      · refine .bind (block_places hnested horderly) fun body hbody => .pure ?_
        exact ⟨by simp [Stmt.isFallThrough], by rwa [Stmt.Placed]⟩
      · exact .of_makes (.after fun _ => .after fun _ => .fail _ _ _)

theorem ifStmt_places :
    MakesOrFailsAt (Allowed inLoop) (Stmt.PlacedAlone inLoop Stmt.isBad) (ifStmt nested) := by
  refine .past advance_orderly fun keyword => .past get_orderly fun kind => .ite (fun _ => ?_)
    fun _ => .past (horderly.expr _) fun condition => .past get_orderly fun kind =>
      .ite (fun _ => ?_) fun _ => ?_
  · exact .of_makes (.after fun _ => .after fun _ => .fail _ _ _)
  · exact .of_makes (.after fun _ => .fail _ _ _)
  refine .before (block_places hnested horderly) (block_orderly horderly) fun body hbody => ?_
  refine .bind (elseBranch_places hnested horderly) fun otherwise hotherwise => .pure ?_
  refine ⟨by simp [Stmt.isFallThrough], ?_⟩
  rw [Stmt.Placed]
  exact ⟨hbody, hotherwise⟩

/-- Whatever is around a loop, its body is inside. -/
theorem loopBody_places :
    MakesOrFails (Stmt.PlacedBlock true Stmt.isBad) (loopBody nested) :=
  Yields.between (block_places hnested horderly) (fun _ _ _ => rfl) (fun _ _ hbody => hbody)
    fun _ _ hbad => hbad

theorem rangeLoop_places (keyword : Token) :
    MakesOrFails (Stmt.PlacedAlone inLoop Stmt.isBad) (rangeLoop nested keyword) := by
  refine .after fun targets => .after fun _ => .after fun _ => ?_
  refine .bind (loopBody_places hnested horderly) fun body hbody => .pure ?_
  exact ⟨by simp [Stmt.isFallThrough], by rwa [Stmt.Placed]⟩

theorem forLoop_places {keyword : Token} {first after : Option Stmt} {condition : Option Expr}
    (hfirst : Stmt.PlacedPart inLoop Stmt.isBad first)
    (hafter : Stmt.PlacedPart inLoop Stmt.isBad after) :
    MakesOrFails (Stmt.PlacedAlone inLoop Stmt.isBad)
      (do return .forLoop keyword first condition after (← loopBody nested)) := by
  refine .bind (loopBody_places hnested horderly) fun body hbody => .pure ?_
  refine ⟨by simp [Stmt.isFallThrough], ?_⟩
  rw [Stmt.Placed]
  exact ⟨hfirst, hafter, hbody⟩

variable (hshapes : nested.Shapes)
include hshapes

omit hnested horderly in
theorem simpleStmt_places :
    MakesOrFails (Stmt.PlacedAlone inLoop Stmt.isBad) (simpleStmt nested) :=
  (simpleStmt_shapes hshapes).weaken fun hstmt =>
    Stmt.placedAlone_of_isPlain (Stmt.isPlain_of_isSimple hstmt.1)

omit hnested horderly in
theorem forClause_places (clause : ForClause) :
    MakesOrFails (Stmt.PlacedAlone inLoop Stmt.isBad) (forClause nested clause) :=
  .bind (simpleStmt_places hshapes) fun _ hstmt => .ite (.pure hstmt) (.fail _ _ _)

theorem loop_places :
    MakesOrFails (Stmt.PlacedAlone inLoop Stmt.isBad) (loop nested) := by
  refine .after fun keyword => .onFailure (.onFailure ?_ _) _
  refine .after fun _ => .ite (forLoop_places hnested horderly trivial trivial) ?_
  refine .after fun _ => .ite (rangeLoop_places hnested horderly keyword) ?_
  refine .after fun _ => .ite ?_ ?_
  · apply MakesOrFails.bind ((forClause_places hshapes .init).unlessAt _)
    intro first hfirst
    refine .after fun _ => .after fun _ => .after fun _ => ?_
    apply MakesOrFails.bind ((forClause_places hshapes .post).unlessAt _)
    intro after hafter
    exact forLoop_places hnested horderly (Stmt.placedPart_iff.2 hfirst)
      (Stmt.placedPart_iff.2 hafter)
  · exact .after fun _ => forLoop_places hnested horderly trivial trivial

omit hshapes in
theorem caseClause_places :
    MakesOrFailsAt (Allowed inLoop) (Stmt.PlacedAlone inLoop Stmt.isBad) (caseClause nested) := by
  refine .past advance_orderly fun keyword => .past (caseValues_orderly horderly keyword)
    fun values => .past (expect_orderly _ _) fun colon => ?_
  have hbody : MakesAt (Allowed inLoop) (Stmt.PlacedAll inLoop Stmt.isBad)
      (stmtList nested (· ∈ [.caseKw, .defaultKw, .rbrace])) := stmtList_places hnested horderly rfl
  refine .bind (.lift hbody) fun body hbody => .pure ⟨by simp [Stmt.isFallThrough], ?_⟩
  rwa [Stmt.Placed]

omit hnested horderly hshapes in
theorem placedAlone_bad (bad : BadNode) :
    (Stmt.bad bad).PlacedAlone inLoop Stmt.isBad :=
  Stmt.placedAlone_of_isPlain rfl

omit hshapes in
theorem caseList_places :
    MakesAt (Allowed inLoop) (Stmt.PlacedClauses inLoop Stmt.isBad) (caseList nested) := by
  have hstmt (found : List Stmt) : MakesAt (Allowed inLoop) (Stmt.PlacedAlone inLoop Stmt.isBad)
      (caseStmt nested found) := by
    refine .past get_orderly fun start => .bind_run (caseClause_places hnested horderly) ?_ ?_
    · exact fun clause hclause => .ite (.after fun _ => .pure (placedAlone_bad _)) (.pure hclause)
    · exact fun _ => .after fun _ => .after fun _ => .pure (placedAlone_bad _)
  have hstray : Makes (Stmt.PlacedAlone inLoop Stmt.isBad) strayCase :=
    .after fun _ => .after fun _ => .after fun _ => .after fun _ => .after fun _ =>
      .after fun _ => .pure (placedAlone_bad _)
  have hcases : MakesAt (Allowed inLoop)
      (fun stmts => ∀ stmt ∈ stmts, stmt.PlacedAlone inLoop Stmt.isBad) (caseList nested) := by
    refine .repeatList (casePass_orderly horderly) fun found hfound => ?_
    refine .past get_orderly fun kind => .ite (fun _ => .of_makes (.pure hfound)) fun _ => ?_
    refine .ite (fun _ => .of_makes (.after fun _ => .pure hfound)) fun _ => .ite (fun _ => ?_)
      fun _ => ?_
    · exact .bind (hstmt found) fun stmt hstmt => .pure (List.forall_mem_cons.2 ⟨hstmt, hfound⟩)
    · exact .of_makes (.bind hstray fun stmt hstmt =>
        .pure (List.forall_mem_cons.2 ⟨hstmt, hfound⟩))
  exact Meets.weaken hcases fun _ _ => Stmt.placedClauses_iff.2

theorem switch_places :
    MakesOrFailsAt (Allowed inLoop) (Stmt.PlacedAlone inLoop Stmt.isBad) (switch nested) := by
  have hfirst : MakesOrFails (Stmt.PlacedPart inLoop Stmt.isBad) (switchInit nested) := by
    refine .after fun _ => .ite ?_ (.pure trivial)
    exact .bind (simpleStmt_places hshapes) fun stmt hstmt => .after fun _ => .pure hstmt
  refine .past advance_orderly fun keyword => .onFailure (.onFailure ?_ _) _
  refine .before (.of_makes hfirst) (switchInit_orderly horderly) fun first hfirst => ?_
  refine .past (unlessAt_orderly _ (horderly.expr _)) fun tag => .past (expect_orderly _ _)
    fun opening => ?_
  refine .bind (.lift (caseList_places hnested horderly)) fun cases hcases => ?_
  refine .after fun _ => .pure ⟨by simp [Stmt.isFallThrough], ?_⟩
  rw [Stmt.Placed]
  exact ⟨hfirst, hcases⟩

/-- Only a `fallthrough` looks at what follows it. -/
theorem stmtInside_places (inLoop : Bool) (start : State) :
    Yields (fun state => state = start ∧ Allowed inLoop state) (stmtInside nested)
      (fun stmt stop => stmt.Placed inLoop Stmt.isBad ∧ HandsOn start stmt stop)
      fun _ _ => True := by
  have halone {kind : Kind} {production : Production Stmt}
      (hproduction : MakesOrFailsAt (fun state => Allowed inLoop state ∧ Facing kind state)
        (Stmt.PlacedAlone inLoop Stmt.isBad) production) :
      Yields (fun state => (state = start ∧ Allowed inLoop state) ∧ kind = state.cursor.kind)
        production (fun stmt stop => stmt.Placed inLoop Stmt.isBad ∧ HandsOn start stmt stop)
        fun _ _ => True :=
    Yields.mono hproduction (fun _ hstate => ⟨hstate.1.2, hstate.2.symm⟩)
      (fun stmt _ hstmt => ⟨hstmt.2, fun hfalls => absurd hfalls hstmt.1⟩) fun _ _ hbad => hbad
  have hsimple : MakesOrFails (Stmt.PlacedAlone inLoop Stmt.isBad) (simpleStmt nested) :=
    simpleStmt_places hshapes
  apply Yields.bind (.lift currentKind_meets)
  intro kind
  split
  · exact halone (.of_makes (.after fun _ => .pure (Stmt.placedAlone_of_isPlain rfl)))
  · exact halone (.of_makes (.after fun _ => .pure (Stmt.placedAlone_of_isPlain rfl)))
  · have hreturn : Makes (Stmt.PlacedAlone inLoop Stmt.isBad) (returnStmt nested) :=
      .after fun _ => .after fun _ => .ite (.pure (Stmt.placedAlone_of_isPlain rfl))
        (.after fun _ => .pure (Stmt.placedAlone_of_isPlain rfl))
    exact halone (.of_makes (.lift hreturn))
  · exact halone ((ifStmt_places hnested horderly).strengthen fun _ hstate => hstate.1)
  · exact halone (.of_makes (loop_places hnested horderly hshapes))
  · exact halone ((switch_places hnested horderly hshapes).strengthen fun _ hstate => hstate.1)
  · exact halone (branchStmt_places.strengthen fun _ hstate => hstate.1)
  · exact halone (branchStmt_places.strengthen fun _ hstate => hstate.1)
  · have hplaced : MakesOrFails (Stmt.Placed inLoop Stmt.isBad) fallThroughStmt := by
      refine .after fun _ => .after fun _ => .after fun _ => .ite (.pure ?_) ?_
      · simp [Stmt.Placed]
      · exact .after fun _ => .fail _ _ _
    apply Yields.mono (Yields.and_succeeded (fallThroughStmt_handsOn start)
      (MakesOrFailsAt.of_makes hplaced))
    · exact fun _ hstate => ⟨hstate.1.1, hstate.2.symm⟩
    · exact fun _ _ hstop => ⟨hstop.2, fun _ => hstop.1⟩
    · exact fun _ _ hbad => hbad
  · have hblock : MakesOrFailsAt (Allowed inLoop) (Stmt.PlacedAlone inLoop Stmt.isBad)
        (do return .block (← block nested)) := by
      refine .bind (block_places hnested horderly) fun body hbody => .pure ?_
      exact ⟨by simp [Stmt.isFallThrough], by rwa [Stmt.Placed]⟩
    exact halone (hblock.strengthen fun _ hstate => hstate.1)
  · have htype : MakesOrFailsAt (Facing .typeKw) (Stmt.PlacedAlone inLoop Stmt.isBad)
        (do return .decl (← typeDecl nested)) := by
      refine .bind (typeDecl_shapes hshapes horderly) fun decl hdecl => .pure ?_
      refine ⟨by simp [Stmt.isFallThrough], ?_⟩
      rw [Stmt.Placed]
      cases decl with
      | func _ => exact absurd hdecl id
      | _ => trivial
    refine halone (.look fun begins => .ite (fun _ => ?_) fun _ => .of_makes hsimple)
    exact htype.strengthen fun _ hstate => hstate.1.2
  · exact halone (.of_makes hsimple)

end Statements

/-- No expression begins with the keyword of a clause. -/
theorem exprInside_isBad {kind : Kind} (hkind : kind = .caseKw ∨ kind = .defaultKw)
    (nested : Nested) (least : Precedence) :
    MakesAt (Facing kind) (·.isBad) (exprInside nested least) := by
  have hoperand : MakesOrFailsAt (Facing kind) (fun _ => False) (operand nested) := by
    obtain rfl | rfl := hkind
    · exact .facing (.of_makes (.after fun _ => .after fun _ => .after fun _ => .throw _))
    · exact .facing (.of_makes (.after fun _ => .after fun _ => .after fun _ => .throw _))
  exact .bind_run hoperand (fun _ hfalse => hfalse.elim) fun _ => .pure rfl

/-- No statement does either. -/
theorem stmtInside_isBad {kind : Kind} (hkind : kind = .caseKw ∨ kind = .defaultKw)
    (hnested : nested.Places) : MakesOrFailsAt (Facing kind) (·.isBad) (stmtInside nested) := by
  have hsimple : MakesOrFailsAt (Facing kind) (·.isBad) (simpleStmt nested) := by
    refine .bind (.lift (hnested.noExpr hkind _)) fun expr hbad => ?_
    cases expr with
    | bad node => exact .throw node
    | _ => exact nomatch hbad
  obtain rfl | rfl := hkind
  · exact .facing hsimple
  · exact .facing hsimple

theorem failTooDeep_places {pre : State → Prop} {succeeded : Stmt → State → Prop} :
    Yields pre failTooDeep succeeded fun _ _ => True :=
  .bind (.lift .top) fun _ => .bind (.lift .top) fun _ => .throw fun _ _ => trivial

theorem descend_places (inLoop : Bool) (start : State) {production : Production Stmt}
    (hproduction : ∀ start, Yields (fun state => state = start ∧ Allowed inLoop state) production
      (fun stmt stop => stmt.Placed inLoop Stmt.isBad ∧ HandsOn start stmt stop)
      fun _ _ => True) :
    Yields (fun state => state = start ∧ Allowed inLoop state) (descend production)
      (fun stmt stop => stmt.Placed inLoop Stmt.isBad ∧ HandsOn start stmt stop)
      fun _ _ => True := by
  refine Yields.bind (.lift get_meets) fun state => ?_
  split
  · exact failTooDeep_places
  · refine Yields.between (hproduction { start with nesting := start.nesting + 1 }) ?_
      (fun _ _ hstop => hstop) fun _ _ hbad => hbad
    rintro state ⟨⟨rfl, hallowed⟩, -⟩
    exact ⟨rfl, hallowed⟩

theorem stmtOf_places (inLoop : Bool) (start : State) {production : Production Stmt}
    (hproduction : Yields (fun state => state = start ∧ Allowed inLoop state) production
      (fun stmt stop => stmt.Placed inLoop Stmt.isBad ∧ HandsOn start stmt stop)
      fun _ _ => True) :
    Meets (fun state => state = start ∧ Allowed inLoop state) (stmtOf production)
      fun stmt stop => stmt.Placed inLoop Stmt.isBad ∧ HandsOn start stmt stop := by
  refine .bind current_meets fun first => Meets.strengthen ?_ fun _ hstate => hstate.1
  refine .recoverWith hproduction fun bad => .bind .top fun _ => .bind .top fun _ => ?_
  exact .pure fun _ _ => ⟨by simp [Stmt.Placed], fun hfalls => nomatch hfalls⟩

theorem nested_places (levels : Nat) : (Grammar.nested levels).Places := by
  have hexpr (bad : BadNode) : (Expr.bad bad).isBad := rfl
  have hstmt (bad : BadNode) : (Stmt.bad bad).isBad := rfl
  induction levels with
  | zero =>
      constructor
      · exact fun inLoop start => stmtOf_places inLoop start failTooDeep_places
      · exact fun _ => .of_makes .failTooDeep
      · exact fun _ _ => .of_makes (.after fun _ => .recoverWith .failTooDeep hexpr _ _)
      · exact fun _ => .of_makes (.after fun _ => .recoverWith .failTooDeep hstmt _ _)
  | succ levels ih =>
      have horderly := nested_orderly levels
      have hshapes := nested_shapes levels
      constructor
      · exact fun inLoop start => stmtOf_places inLoop start
          (descend_places inLoop start (stmtInside_places ih horderly hshapes inLoop))
      · exact fun _ => (ifStmt_places ih horderly).descend fun _ hstate => hstate
      · intro kind hkind least
        refine .look fun _ => .recoverWith ?_ hexpr _ _
        exact .descend (.lift (exprInside_isBad hkind _ least)) fun _ hstate => hstate.1
      · intro kind hkind
        refine .look fun _ => .recoverWith ?_ hstmt _ _
        exact .descend (stmtInside_isBad hkind ih) fun _ hstate => hstate.1

theorem outermost_places : outermost.Places := nested_places maxNesting

/-- Whatever is around a function, its body is not in a loop. -/
theorem funcBody_places : MakesOrFails (Stmt.PlacedBlock false Stmt.isBad) funcBody := by
  refine .after fun outside => ?_
  exact Yields.between (block_places outermost_places outermost_orderly)
    (fun _ _ hinside => absurd hinside (Nat.lt_irrefl 0)) (fun _ _ hbody => hbody)
    fun _ _ hbad => hbad

theorem funcDecl_places :
    MakesOrFails (fun decl => (Decl.func decl).Placed Stmt.isBad) funcDecl := by
  refine .after fun _ => .after fun _ => .after fun _ => .after fun _ => ?_
  refine .bind funcBody_places.attempt fun body hbody => .after fun _ => .after fun _ => ?_
  refine .bind (.settle hbody) fun body hbody => .pure ?_
  rwa [Decl.Placed]

end OriSyntax.Grammar

namespace OriSyntax

/-- Of the items only constants and declarations can hold statements that branch. -/
def Item.Placed : Item → Prop
  | .const stmt => stmt.PlacedAlone false Stmt.isBad
  | .decl inner => inner.Placed Stmt.isBad
  | .struct _ | .interface _ | .enum _ | .sum _ | .implements _ => True

theorem File.placed_ofItems {items : List Item} (hitems : ∀ item ∈ items, item.Placed)
    (package name : Token) : (File.ofItems package name items).Placed Stmt.isBad := by
  constructor
  all_goals
    simp only [File.ofItems, List.mem_filterMap]
    rintro part ⟨item, hmem, hpart⟩
    have hitem := hitems item hmem
    cases item <;> simp_all [Item.Placed]

theorem Item.placed_ofTypeDecl (decl : Decl) (hdecl : decl.ShapedType) :
    (Item.ofTypeDecl decl).Placed := by
  cases decl with
  | struct _ | interface _ | enum _ | sum _ => trivial
  | func _ | implements _ | bad _ => exact absurd hdecl id

namespace Grammar

theorem item_places : Makes Item.Placed item := by
  have hbad (bad : BadNode) : (Item.decl (.bad bad)).Placed := by simp [Item.Placed, Decl.Placed]
  have hconst (bad : BadNode) : (Item.const (.bad bad)).Placed := Stmt.placedAlone_of_isPlain rfl
  have hstray : MakesOrFails Item.Placed (strayItem : Production Item) :=
    .after fun _ => .after fun _ => .after fun _ => .throw _
  apply MakesAt.look
  intro start
  dsimp only
  split
  · refine .of_makes (.recoverWith (.after fun decl => .pure ?_) hconst _ _)
    exact Stmt.placedAlone_of_isPlain rfl
  · have hvariable : MakesOrFails (Decl.Placed Stmt.isBad) fileVariable :=
      .after fun _ => .after fun _ => .pure (by simp [Decl.Placed])
    refine .of_makes (.recoverWith ?_ hbad _ _)
    exact .bind hvariable fun decl hdecl => .pure hdecl
  · refine .of_makes (.recoverWith ?_ hbad _ _)
    exact .bind funcDecl_places fun decl hdecl => .pure hdecl
  · next hkind =>
      refine .recoverWith ?_ hbad _ _
      apply MakesOrFailsAt.bind ((typeDecl_shapes outermost_shapes outermost_orderly).strengthen ?_)
      · exact fun decl hdecl => .pure (Item.placed_ofTypeDecl decl hdecl)
      · rintro state ⟨-, rfl⟩
        exact hkind
  · apply MakesAt.of_makes
    refine .after fun _ => .ite (.recoverWith ?_ hbad _ _) (.recoverWith hstray hbad _ _)
    exact .after fun _ => .pure trivial
  · exact .of_makes (.recoverWith hstray hbad _ _)

theorem file_places : Makes (File.Placed Stmt.isBad) file := by
  have hitems : Makes (fun found => ∀ item ∈ found, item.Placed) items := by
    refine .repeatList fun found hfound => .after fun _ => .ite (.pure hfound) (.ite ?_ ?_)
    · exact .after fun _ => .pure hfound
    · exact .bind item_places fun item hitem => .pure (List.forall_mem_cons.2 ⟨hitem, hfound⟩)
  refine .bind_run .any (fun clause _ => ?_) fun bad => ?_
  · exact .bind hitems fun found hfound => .pure (File.placed_ofItems hfound _ _)
  · refine .bind hitems fun found hfound => .pure (File.placed_ofItems ?_ _ _)
    exact List.forall_mem_cons.2 ⟨by simp [Item.Placed, Decl.Placed], hfound⟩

end Grammar

/-- A loop around a switch, one clause of which is left by `fallthrough` and the other by
`break`. -/
def loopTokens : List Token :=
  [⟨.packageKw, "package", 1, 1⟩, ⟨.ident, "p", 1, 9⟩, ⟨.funcKw, "func", 2, 1⟩,
    ⟨.ident, "f", 2, 6⟩, ⟨.lparen, "(", 2, 7⟩, ⟨.rparen, ")", 2, 8⟩, ⟨.lbrace, "\x7b", 2, 10⟩,
    ⟨.forKw, "for", 3, 3⟩, ⟨.lbrace, "\x7b", 3, 7⟩, ⟨.switchKw, "switch", 4, 5⟩,
    ⟨.ident, "x", 4, 12⟩, ⟨.lbrace, "\x7b", 4, 14⟩, ⟨.caseKw, "case", 5, 5⟩,
    ⟨.intLit, "1", 5, 10⟩, ⟨.colon, ":", 5, 11⟩, ⟨.fallthroughKw, "fallthrough", 6, 7⟩,
    ⟨.defaultKw, "default", 7, 5⟩, ⟨.colon, ":", 7, 12⟩, ⟨.breakKw, "break", 8, 7⟩,
    ⟨.rbrace, "\x7d", 9, 5⟩, ⟨.rbrace, "\x7d", 10, 3⟩, ⟨.rbrace, "\x7d", 11, 1⟩]

end OriSyntax
