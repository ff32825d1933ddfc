import OriSyntax.Proofs.StmtComplete

/-!
Loops and switches are read back from their written form.  What stands before the opening
brace tells their form, and the kinds in the written header are those of its parts.
-/

namespace OriSyntax.Grammar

variable {nested : Nested} {start : State} {cursor last : Cursor} {room : Nat} {inLoop : Bool}

/-- A body begins with a brace. -/
theorem exists_slotsOfBlock {body : Enclosed Stmt} (hbody : Stmt.WellFormedBlock inLoop body) :
    ∃ opening rest, Stmt.slotsOfBlock body = .token opening :: rest ∧ opening.kind = .lbrace := by
  obtain ⟨opening, stmts, closing⟩ := body
  simp only [Stmt.WellFormedBlock] at hbody
  exact ⟨opening, _, rfl, hbody.1⟩

/-- Assignments and calls may be the first clause of a loop. -/
theorem ForClause.allows_of_isForInit (stmt : Stmt) (hstmt : stmt.isForInit)
    (hwellFormed : stmt.WellFormed inLoop) : stmt.isSimple ∧ ForClause.init.allows stmt := by
  cases stmt with
  | assign left op right => exact ⟨rfl, rfl⟩
  | effect value =>
      simp only [Stmt.WellFormed] at hwellFormed
      exact ⟨rfl, hwellFormed.1⟩
  | _ => simp [Stmt.isForInit] at hstmt

/-- All statements without keywords may be the last clause of a loop. -/
theorem ForClause.allows_of_isSimple (stmt : Stmt) (hstmt : stmt.isSimple)
    (hwellFormed : stmt.WellFormed inLoop) : stmt.isSimple ∧ ForClause.post.allows stmt := by
  cases stmt with
  | assign left op right => exact ⟨rfl, rfl⟩
  | incDec target op => exact ⟨rfl, rfl⟩
  | effect value =>
      simp only [Stmt.WellFormed] at hwellFormed
      exact ⟨rfl, hwellFormed.1⟩
  | _ => simp [Stmt.isSimple] at hstmt

/-- A loop is read from its keyword, once its form is known from the rest. -/
theorem loop_of_rest {keyword : Token} {stmt : Stmt} {slots : List Slot}
    (hfaces : cursor.Faces (.token keyword :: slots) last)
    (hrest : ∀ after : Cursor, after.Faces slots last →
      Succeeds (restOfLoop nested keyword) (start.moveTo after) stmt (start.moveTo last)) :
    Succeeds (loop nested) (start.moveTo cursor) stmt (start.moveTo last) := by
  apply Succeeds.read readsNext_advance hfaces
  rintro _ after rfl hafter
  exact Succeeds.onFailure (Succeeds.onFailure (hrest after hafter))

/-- Where clauses are written, a clause begins or the switch ends. -/
theorem Stmt.kind_of_clauses {clauses : List Stmt}
    (hclauses : Stmt.WellFormedClauses inLoop clauses)
    (hfaces : cursor.Faces (Stmt.slotsOfClauses clauses) last) (hlast : last.kind = .rbrace) :
    cursor.kind ∈ [.caseKw, .defaultKw, .rbrace] := by
  cases clauses with
  | nil =>
      obtain rfl := Cursor.faces_nil.1 hfaces
      simp [hlast]
  | cons clause others =>
      cases clause with
      | clause keyword values colon body =>
          simp only [Stmt.WellFormedClauses] at hclauses
          have hkind : cursor.kind = keyword.kind := hfaces.kind_eq
          rcases hclauses.1 with hkeyword | hkeyword <;> simp [hkind, hkeyword.1]
      | _ => simp [Stmt.WellFormedClauses] at hclauses

/-- One pass reads a clause, if it is not a second `default`. -/
theorem casePass_round {keyword colon : Token} {values : List Expr} {body found : List Stmt}
    (hkeyword : CaseValues keyword values)
    (hread : Succeeds (caseClause nested) (start.moveTo cursor)
      (.clause keyword values colon body) (start.moveTo last))
    (hkind : cursor.kind = keyword.kind)
    (hdefault : isDefaultClause (.clause keyword values colon body) →
      found.any isDefaultClause = false) :
    Round (casePass nested) (found, start.moveTo cursor)
      (.clause keyword values colon body :: found, start.moveTo last) := by
  have hclause : cursor.kind = .caseKw ∨ cursor.kind = .defaultKw := by
    rcases hkeyword with hkeyword | hkeyword
    · exact .inl (hkind.trans hkeyword.1)
    · exact .inr (hkind.trans hkeyword.1)
  have hstmt : Gives (caseStmt nested found) (start.moveTo cursor)
      (.clause keyword values colon body) (start.moveTo last) := by
    apply Gives.look rfl
    apply Gives.bind hread
    apply Gives.of_neg
    · simp only [Bool.and_eq_true, not_and, Bool.not_eq_true]
      exact hdefault
    · exact .pure _ _
  rcases hclause with hclause | hclause
  all_goals
    apply Gives.look hclause
    exact Gives.bind hstmt (.pure _ _)

section Headers

variable (hnested : nested.Complete room) (hroom : start.nesting + room ≤ maxNesting)

include hnested hroom

theorem loopBody_succeeds {body : Enclosed Stmt} (hbody : Stmt.WellFormedBlock true body)
    (hnesting : Stmt.insideBlock body ≤ room)
    (hfaces : cursor.Faces (Stmt.slotsOfBlock body) last) :
    Succeeds (loopBody nested) (start.moveTo cursor) body (start.moveTo last) := by
  let inner : State := { start with loopDepth := start.loopDepth + 1 }
  have hread : Succeeds (block nested) (inner.moveTo cursor) body (inner.moveTo last) :=
    block_succeeds hnested (show inner.nesting + room ≤ maxNesting from hroom)
      (fun _ => Nat.succ_ne_zero _) hbody hnesting hfaces
  exact Succeeds.between hread rfl

theorem forClause_succeeds {clause : ForClause} {stmt : Stmt} (hsimple : stmt.isSimple)
    (hallows : clause.allows stmt) (hstmt : stmt.WellFormed inLoop)
    (hinside : stmt.inside ≤ room) (hfaces : cursor.Faces stmt.slots last)
    (hends : last.Ends .lowest) :
    Succeeds (forClause nested clause) (start.moveTo cursor) stmt (start.moveTo last) := by
  apply Succeeds.bind (simpleStmt_succeeds hnested hroom hsimple hstmt hinside hfaces hends)
  apply Succeeds.of_pos hallows
  exact .pure _ _

/-- A clause of a header that may be missing is read up to what ends it. -/
theorem unlessAt_forClause {clause : ForClause} {allowed : Stmt → Bool} {part : Option Stmt}
    {kind : Kind} (hpart : Stmt.WellFormedPart inLoop allowed part)
    (hallowed : ∀ stmt, allowed stmt → stmt.WellFormed inLoop →
      stmt.isSimple ∧ clause.allows stmt)
    (hinside : Stmt.inside? part ≤ room) (hfaces : cursor.Faces (Stmt.slots? part) last)
    (hlast : last.kind = kind) (hkind : kind.precedence = .lowest)
    (hother : kind.beginsExpr = false) :
    Succeeds (unlessAt kind (forClause nested clause)) (start.moveTo cursor) part
      (start.moveTo last) := by
  cases part with
  | none =>
      obtain rfl := Cursor.faces_nil.1 hfaces
      exact unlessAt_none _ hlast
  | some stmt =>
      simp only [Stmt.WellFormedPart] at hpart
      obtain ⟨hsimple, hallows⟩ := hallowed stmt hpart.1 hpart.2
      have hends : last.Ends .lowest := .inl (by rw [hlast, hkind])
      have hbegins : cursor.kind ≠ kind :=
        Kind.ne_of_holds (Stmt.beginsExpr_of_faces hsimple hpart.2 hfaces) hother
      exact unlessAt_some hbegins
        (forClause_succeeds hnested hroom hsimple hallows hpart.2 hinside hfaces hends)

/-- An expression that may be missing is read up to what ends it. -/
theorem unlessAt_expr {part : Option Expr} {kind : Kind}
    (hpart : ∀ expr ∈ part, expr.Canonical .lowest) (hnesting : Expr.nesting? part ≤ room)
    (hfaces : cursor.Faces (slotsOf? Expr.slots part) last) (hlast : last.kind = kind)
    (hkind : kind.precedence = .lowest) (hother : kind.beginsExpr = false) :
    Succeeds (unlessAt kind (liftM (nested.expr .lowest))) (start.moveTo cursor) part
      (start.moveTo last) := by
  cases part with
  | none =>
      obtain rfl := Cursor.faces_nil.1 hfaces
      exact unlessAt_none _ hlast
  | some expr =>
      have hexpr := hpart expr rfl
      have hends : last.Ends .lowest := .inl (by rw [hlast, hkind])
      have hbegins : cursor.kind ≠ kind :=
        Kind.ne_of_holds (Expr.beginsExpr_of_faces hexpr hfaces) hother
      exact unlessAt_some hbegins (.lift (hnested.exprs hroom hexpr hnesting hfaces hends))

theorem threeClauseLoop_succeeds {keyword : Token} {first after : Option Stmt}
    {condition : Option Expr} {body : Enclosed Stmt}
    (hfirst : Stmt.WellFormedPart inLoop Stmt.isForInit first)
    (hcondition : ∀ expr ∈ condition, expr.Canonical .lowest)
    (hafter : Stmt.WellFormedPart inLoop Stmt.isSimple after)
    (hbody : Stmt.WellFormedBlock true body)
    (hinside : (Stmt.forLoop keyword first condition after body).inside ≤ room)
    (hfaces : cursor.Faces (Stmt.slots? first ++ .separator .semicolon ::
      (slotsOf? Expr.slots condition ++ .separator .semicolon ::
        (Stmt.slots? after ++ Stmt.slotsOfBlock body))) last) :
    Succeeds (threeClauseLoop nested keyword) (start.moveTo cursor)
      (.forLoop keyword first condition after body) (start.moveTo last) := by
  simp only [Stmt.inside, Nat.max_le] at hinside
  obtain ⟨⟨hinsideFirst, hinsideTest⟩, hinsideAfter, hinsideBody⟩ := hinside
  obtain ⟨place, hbefore, hbehind⟩ := Cursor.faces_append.1 hfaces
  apply Succeeds.bind (unlessAt_forClause hnested hroom hfirst ForClause.allows_of_isForInit
    hinsideFirst hbefore hbehind.kind_eq rfl rfl)
  apply Succeeds.read (readsNext_expectAs _ _ hbehind.kind_eq) hbehind
  intro _ cursor _ hfaces
  obtain ⟨place, hbefore, hbehind⟩ := Cursor.faces_append.1 hfaces
  apply Succeeds.bind (unlessAt_expr hnested hroom hcondition hinsideTest hbefore
    hbehind.kind_eq rfl rfl)
  apply Succeeds.read (readsNext_expectAs _ _ hbehind.kind_eq) hbehind
  intro _ cursor _ hfaces
  obtain ⟨place, hbefore, hbehind⟩ := Cursor.faces_append.1 hfaces
  obtain ⟨opening, rest, hslots, hopening⟩ := exists_slotsOfBlock hbody
  have hbrace : place.kind = .lbrace := by
    rw [hslots] at hbehind
    exact hbehind.kind_eq.trans hopening
  apply Succeeds.bind (unlessAt_forClause hnested hroom hafter ForClause.allows_of_isSimple
    hinsideAfter hbefore hbrace rfl rfl)
  exact Succeeds.map (loopBody_succeeds hnested hroom hbody hinsideBody hbehind)

theorem rangeValue_gives {value : Option Expr}
    (hvalue : ∀ expr ∈ value, expr.Canonical .lowest) (hnesting : Expr.nesting? value ≤ room)
    (hfaces : cursor.Faces (slotsOf? (fun value => .separator .comma :: value.slots) value) last)
    (hends : last.Ends .lowest) (hlast : last.kind ≠ .comma) :
    Gives (rangeValue nested) (start.moveTo cursor) value (start.moveTo last) := by
  cases value with
  | none =>
      obtain rfl := Cursor.faces_nil.1 hfaces
      exact Gives.bind (accept?_gives_none hlast) (.pure _ _)
  | some expr =>
      have hread := hnested.exprs hroom (hvalue expr rfl) hnesting hfaces.next hends
      apply Gives.bind (accept?_gives_some hfaces.kind_eq)
      exact Gives.bind hread (.pure _ _)

theorem rangeTargets_succeeds {keyword : Token} {key value : Option Expr} {op : Option Token}
    (htargets : RangeTargets key value op) (hkey : Expr.nesting? key ≤ room)
    (hvalue : Expr.nesting? value ≤ room)
    (hfaces : cursor.Faces (slotsOf? Expr.slots key ++
      slotsOf? (fun value => .separator .comma :: value.slots) value ++
      slotsOf? (fun op => [.token op]) op) last) (hlast : last.kind = .rangeKw) :
    Succeeds (rangeTargets nested keyword) (start.moveTo cursor) (key, value, op)
      (start.moveTo last) := by
  rcases htargets with ⟨rfl, rfl, rfl⟩ | ⟨⟨target, rfl, htarget⟩, hsecond, sign, rfl, hsign⟩
  · obtain rfl := Cursor.faces_nil.1 hfaces
    apply Succeeds.look hlast
    exact .pure _ _
  · rw [List.append_assoc] at hfaces
    have hbegins : cursor.kind ≠ .rangeKw :=
      Kind.ne_of_holds (Expr.kind_of_faces htarget hfaces) rfl
    apply Succeeds.look rfl
    apply Succeeds.of_neg hbegins
    obtain ⟨place, hexpr, hbehind⟩ := Cursor.faces_append.1 hfaces
    obtain ⟨middle, hsecondFaces, hop⟩ := Cursor.faces_append.1 hbehind
    have hkind : middle.kind = sign.kind := hop.kind_eq
    have hmem : middle.kind ∈ [.define, .assign] := by
      simpa [hkind] using hsign
    have hassign : middle.kind.isAssignOp := by
      rcases hsign with hsign | hsign <;> rw [hkind, hsign] <;> rfl
    have hmiddle : middle.Ends .lowest := .inl (Kind.precedence_of_isAssignOp hassign)
    have hcomma : middle.kind ≠ .comma := Kind.ne_of_holds hassign rfl
    have hplace : place.Ends .lowest := by
      cases value with
      | none =>
          rw [← Cursor.faces_nil.1 hsecondFaces]
          exact hmiddle
      | some expr => exact .inl (by rw [hsecondFaces.kind_eq]; rfl)
    apply Succeeds.bind (.lift (hnested.exprs hroom htarget hkey hexpr hplace))
    apply Succeeds.bind
      (.lift (rangeValue_gives hnested hroom hsecond hvalue hsecondFaces hmiddle hcomma))
    apply Succeeds.look rfl
    apply Succeeds.of_pos hmem
    exact Succeeds.readLast readsNext_advance hop

theorem rangeLoop_succeeds {keyword : Token} {key value : Option Expr} {op : Option Token}
    {rangeKeyword : Token} {subject : Expr} {body : Enclosed Stmt}
    (htargets : RangeTargets key value op) (hrange : rangeKeyword.kind = .rangeKw)
    (hsubject : subject.Canonical .lowest) (hbody : Stmt.WellFormedBlock true body)
    (hinside : (Stmt.rangeLoop keyword key value op rangeKeyword subject body).inside ≤ room)
    (hfaces : cursor.Faces ((slotsOf? Expr.slots key ++
      slotsOf? (fun value => .separator .comma :: value.slots) value ++
      slotsOf? (fun op => [.token op]) op) ++ .token rangeKeyword ::
        (subject.slots ++ Stmt.slotsOfBlock body)) last) :
    Succeeds (rangeLoop nested keyword) (start.moveTo cursor)
      (.rangeLoop keyword key value op rangeKeyword subject body) (start.moveTo last) := by
  simp only [Stmt.inside, Nat.max_le] at hinside
  obtain ⟨⟨hinsideKey, hinsideValue⟩, hinsideSubject, hinsideBody⟩ := hinside
  obtain ⟨place, hbefore, hbehind⟩ := Cursor.faces_append.1 hfaces
  have hkind : place.kind = .rangeKw := hbehind.kind_eq.trans hrange
  apply Succeeds.bind
    (rangeTargets_succeeds hnested hroom htargets hinsideKey hinsideValue hbefore hkind)
  apply Succeeds.read (readsNext_expectAs _ _ hkind) hbehind
  rintro _ after rfl hafter
  obtain ⟨opening, rest, hslots, hopening⟩ := exists_slotsOfBlock hbody
  rw [hslots] at hafter
  apply Succeeds.readExpr hnested.exprs hroom hsubject hinsideSubject hafter
    (by rw [Slot.kind, hopening]; rfl)
  intro middle hmiddle
  rw [← hslots] at hmiddle
  exact Succeeds.map (loopBody_succeeds hnested hroom hbody hinsideBody hmiddle)

/-- A loop whose header is empty or a condition. -/
theorem restOfLoop_condition {keyword : Token} {condition : Option Expr} {body : Enclosed Stmt}
    (hcondition : ∀ expr ∈ condition, expr.Canonical .lowest)
    (hbody : Stmt.WellFormedBlock true body) (hnesting : Expr.nesting? condition ≤ room)
    (hinside : Stmt.insideBlock body ≤ room)
    (hfaces : cursor.Faces (slotsOf? Expr.slots condition ++ Stmt.slotsOfBlock body) last) :
    Succeeds (restOfLoop nested keyword) (start.moveTo cursor)
      (.forLoop keyword none condition none body) (start.moveTo last) := by
  obtain ⟨opening, rest, hslots, hopening⟩ := exists_slotsOfBlock hbody
  cases condition with
  | none =>
      have hkind : cursor.kind = .lbrace := by
        rw [hslots] at hfaces
        exact hfaces.kind_eq.trans hopening
      apply Succeeds.look hkind
      apply Succeeds.of_pos rfl
      exact Succeeds.map (loopBody_succeeds hnested hroom hbody hinside hfaces)
  | some expr =>
      have hexpr := hcondition expr rfl
      have hkinds := Expr.inSimple_slots hexpr
      rw [slotsOf?, hslots] at hfaces
      apply Succeeds.look rfl
      apply Succeeds.of_neg (Kind.ne_of_holds (Expr.kind_of_faces hexpr hfaces) rfl)
      apply Succeeds.look rfl
      apply Succeeds.of_neg (hfaces.not_headerContains hopening hkinds rfl rfl)
      apply Succeeds.look rfl
      apply Succeeds.of_neg (hfaces.not_headerContains hopening hkinds rfl rfl)
      apply Succeeds.readExpr hnested.exprs hroom hexpr hnesting hfaces
        (by rw [Slot.kind, hopening]; rfl)
      intro middle hmiddle
      rw [← hslots] at hmiddle
      exact Succeeds.map (loopBody_succeeds hnested hroom hbody hinside hmiddle)

/-- A loop whose header has semicolons. -/
theorem restOfLoop_clauses {keyword : Token} {first after : Option Stmt}
    {condition : Option Expr} {body : Enclosed Stmt}
    (hfirst : Stmt.WellFormedPart inLoop Stmt.isForInit first)
    (hcondition : ∀ expr ∈ condition, expr.Canonical .lowest)
    (hafter : Stmt.WellFormedPart inLoop Stmt.isSimple after)
    (hbody : Stmt.WellFormedBlock true body)
    (hinside : (Stmt.forLoop keyword first condition after body).inside ≤ room)
    (hfaces : cursor.Faces (Stmt.slots? first ++ .separator .semicolon ::
      (slotsOf? Expr.slots condition ++ .separator .semicolon ::
        (Stmt.slots? after ++ Stmt.slotsOfBlock body))) last) :
    Succeeds (restOfLoop nested keyword) (start.moveTo cursor)
      (.forLoop keyword first condition after body) (start.moveTo last) := by
  have hread := threeClauseLoop_succeeds hnested hroom hfirst hcondition hafter hbody hinside
    hfaces
  -- The header is searched up to the brace of the body: no other brace may stand in it.
  obtain ⟨opening, rest, hslots, hopening⟩ := exists_slotsOfBlock hbody
  let header := Stmt.slots? first ++ .separator .semicolon ::
    (slotsOf? Expr.slots condition ++ .separator .semicolon :: Stmt.slots? after)
  have hkinds : OfKinds (Kind.inHeader .semicolon) header := by
    have hsimple (kind : Kind) := kind.inHeader_of_inSimple .semicolon
    have hinit := (Stmt.inSimple_slots? hfirst Stmt.isSimple_of_isForInit).mono hsimple
    have htest := (Expr.inSimple_slotsOf? hcondition).mono hsimple
    have hlast := (Stmt.inSimple_slots? hafter fun _ => id).mono hsimple
    simp only [header, OfKinds.append, OfKinds.cons]
    exact ⟨hinit, rfl, htest, rfl, hlast⟩
  have hheader : cursor.Faces (header ++ .token opening :: rest) last := by
    simpa [header, hslots] using hfaces
  have hbrace : cursor.kind ≠ .lbrace := hheader.kind_ne hkinds rfl (by simp [header])
  apply Succeeds.look rfl
  apply Succeeds.of_neg hbrace
  apply Succeeds.look rfl
  apply Succeeds.of_neg (hheader.not_headerContains hopening hkinds rfl rfl)
  have hsemicolon : cursor.headerContains (Slot.separator .semicolon).kind :=
    hheader.headerContains_of_mem hopening hkinds rfl (by simp [header])
  apply Succeeds.look rfl
  apply Succeeds.of_pos hsemicolon
  exact hread

theorem restOfLoop_range {keyword : Token} {key value : Option Expr} {op : Option Token}
    {rangeKeyword : Token} {subject : Expr} {body : Enclosed Stmt}
    (htargets : RangeTargets key value op) (hrange : rangeKeyword.kind = .rangeKw)
    (hsubject : subject.Canonical .lowest) (hbody : Stmt.WellFormedBlock true body)
    (hinside : (Stmt.rangeLoop keyword key value op rangeKeyword subject body).inside ≤ room)
    (hfaces : cursor.Faces ((slotsOf? Expr.slots key ++
      slotsOf? (fun value => .separator .comma :: value.slots) value ++
      slotsOf? (fun op => [.token op]) op) ++ .token rangeKeyword ::
        (subject.slots ++ Stmt.slotsOfBlock body)) last) :
    Succeeds (restOfLoop nested keyword) (start.moveTo cursor)
      (.rangeLoop keyword key value op rangeKeyword subject body) (start.moveTo last) := by
  have hread := rangeLoop_succeeds hnested hroom htargets hrange hsubject hbody hinside hfaces
  obtain ⟨opening, rest, hslots, hopening⟩ := exists_slotsOfBlock hbody
  let header := (slotsOf? Expr.slots key ++
      slotsOf? (fun value => .separator .comma :: value.slots) value ++
      slotsOf? (fun op => [.token op]) op) ++ .token rangeKeyword :: subject.slots
  have hkinds : OfKinds (Kind.inHeader .rangeKw) header := by
    have hsimple (kind : Kind) := kind.inHeader_of_inSimple .rangeKw
    have hbefore := htargets.inSimple_slots.mono hsimple
    have hbehind := (Expr.inSimple_slots hsubject).mono hsimple
    exact OfKinds.append.2 ⟨hbefore, OfKinds.cons.2 ⟨by rw [Slot.kind, hrange]; rfl, hbehind⟩⟩
  have hheader : cursor.Faces (header ++ .token opening :: rest) last := by
    simpa [header, hslots] using hfaces
  have hcontains : cursor.headerContains (Slot.token rangeKeyword).kind :=
    hheader.headerContains_of_mem hopening hkinds rfl (by simp [header])
  rw [Slot.kind, hrange] at hcontains
  have hbrace : cursor.kind ≠ .lbrace := hheader.kind_ne hkinds rfl (by simp [header])
  apply Succeeds.look rfl
  apply Succeeds.of_neg hbrace
  apply Succeeds.look rfl
  apply Succeeds.of_pos hcontains
  exact hread

theorem loop_forLoop {keyword : Token} {first after : Option Stmt} {condition : Option Expr}
    {body : Enclosed Stmt}
    (hstmt : (Stmt.forLoop keyword first condition after body).WellFormed inLoop)
    (hinside : (Stmt.forLoop keyword first condition after body).inside ≤ room)
    (hfaces : cursor.Faces (Stmt.forLoop keyword first condition after body).slots last) :
    Succeeds (loop nested) (start.moveTo cursor)
      (.forLoop keyword first condition after body) (start.moveTo last) := by
  simp only [Stmt.WellFormed] at hstmt
  obtain ⟨-, hfirst, hcondition, hafter, hbody⟩ := hstmt
  apply loop_of_rest hfaces
  intro place hplace
  by_cases hclauses : first.isNone && after.isNone
  · obtain ⟨rfl, rfl⟩ : first = none ∧ after = none := by simpa using hclauses
    rw [if_pos hclauses] at hplace
    simp only [Stmt.inside, Nat.max_le] at hinside
    exact restOfLoop_condition hnested hroom hcondition hbody hinside.1.2 hinside.2.2 hplace
  · rw [if_neg hclauses] at hplace
    apply restOfLoop_clauses hnested hroom hfirst hcondition hafter hbody hinside
    simpa using hplace

theorem loop_rangeLoop {keyword : Token} {key value : Option Expr} {op : Option Token}
    {rangeKeyword : Token} {subject : Expr} {body : Enclosed Stmt}
    (hstmt : (Stmt.rangeLoop keyword key value op rangeKeyword subject body).WellFormed inLoop)
    (hinside : (Stmt.rangeLoop keyword key value op rangeKeyword subject body).inside ≤ room)
    (hfaces : cursor.Faces
      (Stmt.rangeLoop keyword key value op rangeKeyword subject body).slots last) :
    Succeeds (loop nested) (start.moveTo cursor)
      (.rangeLoop keyword key value op rangeKeyword subject body) (start.moveTo last) := by
  simp only [Stmt.WellFormed] at hstmt
  obtain ⟨-, htargets, hrange, hsubject, hbody⟩ := hstmt
  apply loop_of_rest hfaces
  intro place hplace
  apply restOfLoop_range hnested hroom htargets hrange hsubject hbody hinside
  simpa using hplace

theorem caseValues_gives {keyword : Token} {values : List Expr}
    (hkeyword : CaseValues keyword values) (hvalues : Expr.CanonicalAll values)
    (hnesting : Expr.nestingOfAll values ≤ room)
    (hfaces : cursor.Faces (commaSlots Expr.slots values) last) (hlast : last.kind = .colon) :
    Gives (caseValues nested keyword) (start.moveTo cursor) values (start.moveTo last) := by
  rcases hkeyword with ⟨hcase, hnonempty⟩ | ⟨hdefault, rfl⟩
  · apply Gives.of_pos hcase
    exact exprList_gives hnested hroom hnonempty hvalues hnesting hfaces
      (.inl (by rw [hlast]; rfl)) (by rw [hlast]; decide)
  · obtain rfl := Cursor.faces_nil.1 hfaces
    apply Gives.of_neg (by rw [hdefault]; decide)
    exact .pure _ _

/-- A clause is read up to the next one or to the end of the switch. -/
theorem caseClause_succeeds (hloop : inLoop → start.loopDepth ≠ 0) {keyword : Token}
    {values : List Expr} {colon : Token} {body : List Stmt}
    (hkeyword : CaseValues keyword values) (hvalues : Expr.CanonicalAll values)
    (hcolon : colon.kind = .colon) (hbody : Stmt.WellFormedAll inLoop body)
    (hinside : (Stmt.clause keyword values colon body).inside ≤ room)
    (hfaces : cursor.Faces (Stmt.clause keyword values colon body).slots last)
    (hlast : last.kind ∈ [.caseKw, .defaultKw, .rbrace]) :
    Succeeds (caseClause nested) (start.moveTo cursor) (.clause keyword values colon body)
      (start.moveTo last) := by
  simp only [Stmt.inside, Nat.max_le] at hinside
  apply Succeeds.read readsNext_advance hfaces
  rintro _ after rfl hafter
  obtain ⟨middle, hbefore, hbehind⟩ := Cursor.faces_append.1 hafter
  have hkind : middle.kind = .colon := hbehind.kind_eq.trans hcolon
  apply Succeeds.bind
    (.lift (caseValues_gives hnested hroom hkeyword hvalues hinside.1 hbefore hkind))
  apply Succeeds.read (readsNext_expectAs _ _ hkind) hbehind
  rintro _ after rfl hafter
  have hends : last.kind.endsStmts := by
    revert hlast
    cases last.kind <;> decide
  have hstops : ∀ kind : Kind, kind.beginsStmt →
      decide (kind ∈ [.caseKw, .defaultKw, .rbrace]) = false := by
    intro kind hkind
    exact decide_eq_false (Kind.not_mem_of_holds hkind (by decide))
  have hread := stmtList_gives hnested hroom hloop hstops rfl hbody hinside.2 hafter
    (decide_eq_true hlast) hends
  exact Succeeds.map (.lift hread)

/-- Passes over clauses gather all of them; `found` are those read before. -/
theorem casePass_rounds (hloop : inLoop → start.loopDepth ≠ 0) {clauses found : List Stmt}
    (hclauses : Stmt.WellFormedClauses inLoop clauses)
    (hinside : Stmt.insideClauses clauses ≤ room)
    (hfaces : cursor.Faces (Stmt.slotsOfClauses clauses) last) (hlast : last.kind = .rbrace)
    (hdefault : found.countP isDefaultClause + clauses.countP isDefaultClause ≤ 1) :
    Relation.ReflTransGen (Round (casePass nested)) (found, start.moveTo cursor)
      (clauses.reverse ++ found, start.moveTo last) := by
  induction clauses generalizing cursor found with
  | nil =>
      obtain rfl := Cursor.faces_nil.1 hfaces
      exact .refl
  | cons clause others ih =>
      cases clause with
      | clause keyword values colon body =>
          simp only [Stmt.WellFormedClauses] at hclauses
          obtain ⟨hkeyword, hvalues, hcolon, hbody, hothers⟩ := hclauses
          simp only [Stmt.insideClauses, Nat.max_le] at hinside
          rw [Stmt.slotsOfClauses] at hfaces
          obtain ⟨middle, hbefore, hbehind⟩ := Cursor.faces_append.1 hfaces
          have hmiddle := Stmt.kind_of_clauses hothers hbehind hlast
          have hread := caseClause_succeeds hnested hroom hloop hkeyword hvalues hcolon hbody
            hinside.1 hbefore hmiddle
          rw [List.countP_cons] at hdefault
          have hnone : isDefaultClause (.clause keyword values colon body) →
              found.any isDefaultClause = false := by
            intro hclause
            rw [if_pos hclause] at hdefault
            have hzero : found.countP isDefaultClause = 0 := by omega
            simpa [List.countP_eq_zero] using hzero
          have hrest : (Stmt.clause keyword values colon body :: found).countP isDefaultClause +
              others.countP isDefaultClause ≤ 1 := by
            rw [List.countP_cons]
            omega
          have hround := casePass_round hkeyword hread hbefore.kind_eq hnone
          have hrounds := ih hothers hinside.2 hbehind hrest
          simpa using Relation.ReflTransGen.head hround hrounds
      | _ => simp [Stmt.WellFormedClauses] at hclauses

theorem caseList_gives (hloop : inLoop → start.loopDepth ≠ 0) {clauses : List Stmt}
    (hclauses : Stmt.WellFormedClauses inLoop clauses)
    (hinside : Stmt.insideClauses clauses ≤ room)
    (hdefault : clauses.countP isDefaultClause ≤ 1)
    (hfaces : cursor.Faces (Stmt.slotsOfClauses clauses) last) (hlast : last.kind = .rbrace) :
    Gives (caseList nested) (start.moveTo cursor) clauses (start.moveTo last) := by
  have hrounds : Relation.ReflTransGen (Round (casePass nested)) ([], start.moveTo cursor)
      (clauses.reverse ++ [], start.moveTo last) :=
    casePass_rounds hnested hroom hloop hclauses hinside hfaces hlast (by simpa using hdefault)
  have hdone : Gives (casePass nested (clauses.reverse ++ [])) (start.moveTo last)
      (.done (clauses.reverse ++ [])) (start.moveTo last) := by
    apply Gives.look hlast
    exact .pure _ _
  have hread := Gives.repeatStep (casePass_gains hnested.orderly) hrounds hdone
  rw [List.append_nil] at hread
  apply Gives.bind hread
  rw [List.reverse_reverse]
  exact .pure _ _

theorem switchInit_succeeds {first : Option Stmt} {tag : Option Expr} {opening : Token}
    {rest : List Slot} (hfirst : Stmt.WellFormedPart inLoop Stmt.isSimple first)
    (htag : ∀ expr ∈ tag, expr.Canonical .lowest) (hopening : opening.kind = .lbrace)
    (hinside : Stmt.inside? first ≤ room)
    (hfaces : cursor.Faces (Stmt.slotsOfInit first ++ (slotsOf? Expr.slots tag ++
      .token opening :: rest)) last) :
    ∃ after : Cursor, after.Faces (slotsOf? Expr.slots tag ++ .token opening :: rest) last ∧
      Succeeds (switchInit nested) (start.moveTo cursor) first (start.moveTo after) := by
  have hsimple (kind : Kind) := kind.inHeader_of_inSimple .semicolon
  have htagKinds := (Expr.inSimple_slotsOf? htag).mono hsimple
  cases first with
  | none =>
      refine ⟨cursor, hfaces, ?_⟩
      apply Succeeds.look rfl
      apply Succeeds.of_neg
        (hfaces.not_headerContains hopening (Expr.inSimple_slotsOf? htag) rfl rfl)
      exact .pure _ _
  | some stmt =>
      simp only [Stmt.WellFormedPart] at hfirst
      have hstmtKinds := (Stmt.inSimple_slots hfirst.1 hfirst.2).mono hsimple
      let header := stmt.slots ++ .separator .semicolon :: slotsOf? Expr.slots tag
      have hkinds : OfKinds (Kind.inHeader .semicolon) header :=
        OfKinds.append.2 ⟨hstmtKinds, OfKinds.cons.2 ⟨rfl, htagKinds⟩⟩
      have hheader : cursor.Faces (header ++ .token opening :: rest) last := by
        simpa [header, Stmt.slotsOfInit] using hfaces
      have hcontains : cursor.headerContains (Slot.separator .semicolon).kind :=
        hheader.headerContains_of_mem hopening hkinds rfl (by simp [header])
      simp only [Stmt.slotsOfInit, List.append_assoc, List.singleton_append] at hfaces
      obtain ⟨middle, hbefore, hbehind⟩ := Cursor.faces_append.1 hfaces
      refine ⟨middle.next, hbehind.next, ?_⟩
      apply Succeeds.look rfl
      apply Succeeds.of_pos hcontains
      have hends : middle.Ends .lowest := .inl (by rw [hbehind.kind_eq]; rfl)
      apply Succeeds.bind
        (simpleStmt_succeeds hnested hroom hfirst.1 hfirst.2 hinside hbefore hends)
      exact Succeeds.bind (readsNext_expectAs _ _ hbehind.kind_eq) (.pure _ _)

theorem switch_succeeds (hloop : inLoop → start.loopDepth ≠ 0) {keyword : Token}
    {first : Option Stmt} {tag : Option Expr} {body : Enclosed Stmt}
    (hstmt : (Stmt.switch keyword first tag body).WellFormed inLoop)
    (hinside : (Stmt.switch keyword first tag body).inside ≤ room)
    (hfaces : cursor.Faces (Stmt.switch keyword first tag body).slots last) :
    Succeeds (switch nested) (start.moveTo cursor) (.switch keyword first tag body)
      (start.moveTo last) := by
  obtain ⟨opening, clauses, closing⟩ := body
  simp only [Stmt.WellFormed] at hstmt
  obtain ⟨-, hfirst, htag, hopening, hclauses, hdefault, hclosing⟩ := hstmt
  simp only [Stmt.inside, Nat.max_le] at hinside
  obtain ⟨⟨hinsideFirst, hinsideTag⟩, hinsideClauses⟩ := hinside
  simp only [Stmt.slots, List.cons_append, List.append_assoc] at hfaces
  apply Succeeds.read readsNext_advance hfaces
  rintro _ after rfl hafter
  apply Succeeds.onFailure
  apply Succeeds.onFailure
  obtain ⟨place, hplace, hinit⟩ :=
    switchInit_succeeds hnested hroom hfirst htag hopening hinsideFirst hafter
  apply Succeeds.bind hinit
  obtain ⟨middle, hbefore, hbehind⟩ := Cursor.faces_append.1 hplace
  have hbrace : middle.kind = .lbrace := hbehind.kind_eq.trans hopening
  apply Succeeds.bind (unlessAt_expr hnested hroom htag hinsideTag hbefore hbrace rfl rfl)
  apply Succeeds.read (readsNext_expectAs _ _ hbrace) hbehind
  rintro _ body rfl hbody
  obtain ⟨stop, hlist, hend⟩ := Cursor.faces_append.1 hbody
  have hkind : stop.kind = .rbrace := hend.kind_eq.trans hclosing
  apply Succeeds.bind
    (.lift (caseList_gives hnested hroom hloop hclauses hinsideClauses hdefault hlist hkind))
  exact Succeeds.readLast ((readsNext_expectAs _ _ hkind).covering _) hend

end Headers

end OriSyntax.Grammar
