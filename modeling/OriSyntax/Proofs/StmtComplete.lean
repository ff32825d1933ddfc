import OriSyntax.Proofs.DeclComplete
import OriSyntax.Proofs.SlotKinds

/-!
Well-formed statements are read back from their written form.  The statements inside a
statement are read one level deeper, so what all levels do follows by induction on the
levels; at each level every form of statement is followed along its slots.
-/

namespace OriSyntax

namespace Kind

variable {kind : Kind}

/-- Kinds with which a statement begins. -/
def beginsStmt (kind : Kind) : Bool :=
  kind.beginsExpr || kind ∈ [.constKw, .varKw, .returnKw, .ifKw, .forKw, .switchKw, .breakKw,
    .continueKw, .fallthroughKw, .lbrace, .typeKw]

theorem beginsStmt_of_beginsExpr (hkind : kind.beginsExpr) : kind.beginsStmt := by
  simp [beginsStmt, hkind]

/-- Kinds behind the last statement of a sequence. -/
def endsStmts (kind : Kind) : Bool := kind ∈ [.rbrace, .eof, .caseKw, .defaultKw]

theorem precedence_of_isAssignOp (hkind : kind.isAssignOp) : kind.precedence = .lowest := by
  revert hkind
  cases kind <;> decide

theorem precedence_of_isIncDec (hkind : kind.isIncDec) : kind.precedence = .lowest := by
  revert hkind
  cases kind <;> decide

theorem not_isAssignOp_of_isIncDec (hkind : kind.isIncDec) : kind.isAssignOp = false := by
  revert hkind
  cases kind <;> decide

end Kind

/-- As many places are left behind as there are slots. -/
theorem Cursor.Faces.position_eq {start last : Cursor} {slots : List Slot}
    (hfaces : start.Faces slots last) : last.position = slots.length + start.position := by
  obtain ⟨run, hrun, hlength⟩ := hfaces.exists_reads
  rw [hrun.position, hlength]

namespace Stmt

variable {inLoop : Bool} {stmt : Stmt}

theorem slotsOfAll_eq (stmts : List Stmt) :
    Stmt.slotsOfAll stmts = closedSlots Stmt.slots stmts := by
  induction stmts with
  | nil => rfl
  | cons stmt rest ih => rw [Stmt.slotsOfAll, ih, closedSlots_cons]

theorem nestingOfAll_eq (stmts : List Stmt) :
    Stmt.nestingOfAll stmts = greatest Stmt.nesting stmts := by
  induction stmts with
  | nil => rfl
  | cons stmt rest ih =>
      rw [Stmt.nestingOfAll, ih]
      rfl

/-- What follows a statement of a sequence, if it hands on to the next clause. -/
theorem WellFormedAll.of_suffix {stmts rest : List Stmt}
    (hstmts : Stmt.WellFormedAll inLoop stmts) (hsuffix : stmt :: rest <:+ stmts) :
    stmt.WellFormed inLoop ∧ (stmt.isFallThrough → rest = []) := by
  induction stmts with
  | nil => exact absurd hsuffix (by simp)
  | cons first others ih =>
      simp only [Stmt.WellFormedAll] at hstmts
      rcases List.suffix_cons_iff.1 hsuffix with heq | hsuffix
      · obtain ⟨rfl, rfl⟩ := List.cons.inj heq
        exact ⟨hstmts.1, hstmts.2.1⟩
      · exact ih hstmts.2.2 hsuffix

/-- The written form of an expression begins as a statement may. -/
theorem exists_head?_of_expr {least : Precedence} {expr : Expr}
    (hcanonical : expr.Canonical least) (rest : List Slot) :
    ∃ slot, (expr.slots ++ rest).head? = some slot ∧ slot.kind.beginsStmt := by
  refine ⟨.token expr.first, by simp [expr.head?_slots hcanonical], ?_⟩
  exact Kind.beginsStmt_of_beginsExpr (expr.beginsExpr_first hcanonical)

/-- A written keyword begins a statement. -/
theorem exists_head?_of_keyword {keyword : Token} {kind : Kind} (hkeyword : keyword.kind = kind)
    (hkind : kind.beginsStmt) (rest : List Slot) :
    ∃ slot, (Slot.token keyword :: rest).head? = some slot ∧ slot.kind.beginsStmt :=
  ⟨_, rfl, by rw [Slot.kind, hkeyword, hkind]⟩

theorem exists_head?_slots (hstmt : stmt.WellFormed inLoop) :
    ∃ slot, stmt.slots.head? = some slot ∧ slot.kind.beginsStmt := by
  cases stmt with
  | block body =>
      obtain ⟨opening, stmts, closing⟩ := body
      simp only [Stmt.WellFormed, Stmt.WellFormedBlock] at hstmt
      exact exists_head?_of_keyword hstmt.1 rfl _
  | const value | var value =>
      simp only [Stmt.WellFormed] at hstmt
      exact exists_head?_of_keyword hstmt.keyword rfl _
  | assign left op right =>
      simp only [Stmt.WellFormed] at hstmt
      exact exists_head?_of_expr hstmt.2.1 _
  | incDec target op =>
      simp only [Stmt.WellFormed] at hstmt
      exact exists_head?_of_expr hstmt.2.1 _
  | effect value =>
      simp only [Stmt.WellFormed] at hstmt
      simpa [Stmt.slots] using exists_head?_of_expr hstmt.2 []
  | returns keyword values =>
      simp only [Stmt.WellFormed] at hstmt
      exact exists_head?_of_keyword hstmt.1 rfl _
  | ifElse keyword condition body otherwise =>
      simp only [Stmt.WellFormed] at hstmt
      exact exists_head?_of_keyword hstmt.1 rfl _
  | forLoop keyword first condition after body =>
      simp only [Stmt.WellFormed] at hstmt
      exact exists_head?_of_keyword hstmt.1 rfl _
  | rangeLoop keyword key value op rangeKeyword subject body =>
      simp only [Stmt.WellFormed] at hstmt
      exact exists_head?_of_keyword hstmt.1 rfl _
  | switch keyword first tag cases =>
      obtain ⟨opening, cases, closing⟩ := cases
      simp only [Stmt.WellFormed] at hstmt
      exact exists_head?_of_keyword hstmt.1 rfl _
  | breakLoop keyword | continueLoop keyword =>
      simp only [Stmt.WellFormed] at hstmt
      exact exists_head?_of_keyword hstmt.2 rfl _
  | fallThrough keyword =>
      simp only [Stmt.WellFormed] at hstmt
      exact exists_head?_of_keyword hstmt rfl _
  | decl inner =>
      simp only [Stmt.WellFormed] at hstmt
      cases inner with
      | struct decl => exact exists_head?_of_keyword hstmt.typeKeyword rfl _
      | interface decl => exact exists_head?_of_keyword hstmt.typeKeyword rfl _
      | enum decl => exact exists_head?_of_keyword hstmt.1.typeKeyword rfl _
      | sum decl => exact exists_head?_of_keyword hstmt.1.typeKeyword rfl _
      | func _ | implements _ | bad _ => exact absurd hstmt id
  | clause _ _ _ _ | bad _ => simp [Stmt.WellFormed] at hstmt

/-- The written form of a statement begins as a statement may. -/
theorem kind_of_faces {cursor last : Cursor} {rest : List Slot} (hstmt : stmt.WellFormed inLoop)
    (hfaces : cursor.Faces (stmt.slots ++ rest) last) : cursor.kind.beginsStmt := by
  obtain ⟨slot, hslot, hbegins⟩ := exists_head?_slots hstmt
  have hhead : (stmt.slots ++ rest).head? = some slot := by simp [hslot]
  rw [hfaces.kind_head hhead]
  exact hbegins

theorem beginsExpr_of_faces {cursor last : Cursor} (hsimple : stmt.isSimple)
    (hstmt : stmt.WellFormed inLoop) (hfaces : cursor.Faces stmt.slots last) :
    cursor.kind.beginsExpr := by
  cases stmt with
  | assign left op right =>
      simp only [Stmt.WellFormed] at hstmt
      exact Expr.kind_of_faces hstmt.2.1 hfaces
  | incDec target op =>
      simp only [Stmt.WellFormed] at hstmt
      exact Expr.kind_of_faces hstmt.2.1 hfaces
  | effect value =>
      simp only [Stmt.WellFormed] at hstmt
      exact Expr.beginsExpr_of_faces hstmt.2 hfaces
  | _ => simp [isSimple] at hsimple

end Stmt

namespace Grammar

variable {α β : Type} {nested : Nested} {start stop : State} {slot : Slot} {rest : List Slot}
  {cursor last : Cursor} {room : Nat} {inLoop : Bool}

/-- Where `room` levels are left, well-formed trees are read from their slots.  A statement
is read up to the semicolon behind it; the one that hands on to the next clause is read
with it. -/
structure Nested.Complete (nested : Nested) (room : Nat) : Prop where
  orderly : nested.Orderly
  exprs : nested.ReadsExprs room
  stmts : ∀ {inLoop : Bool} {stmt : Stmt} {start : State} {cursor last : Cursor},
    start.nesting + room ≤ maxNesting → (inLoop → start.loopDepth ≠ 0) →
    stmt.WellFormed inLoop → stmt.nesting ≤ room →
    cursor.Faces (stmt.slots ++ [.separator .semicolon]) last →
    (stmt.isFallThrough → last.kind.endsStmts) →
    ∃ middle, Gives nested.stmt (start.moveTo cursor) stmt (start.moveTo middle) ∧
      (middle = last ∨ middle.Faces [.separator .semicolon] last)
  ifElses : ∀ {inLoop : Bool} {keyword : Token} {condition : Expr} {body : Enclosed Stmt}
    {otherwise : Option Stmt} {start : State} {cursor last : Cursor},
    start.nesting + room ≤ maxNesting → (inLoop → start.loopDepth ≠ 0) →
    (Stmt.ifElse keyword condition body otherwise).WellFormed inLoop →
    (Stmt.ifElse keyword condition body otherwise).nesting ≤ room →
    cursor.Faces (Stmt.ifElse keyword condition body otherwise).slots last →
    last.kind ≠ .elseKw →
    Succeeds nested.ifElse (start.moveTo cursor) (.ifElse keyword condition body otherwise)
      (start.moveTo last)

/-- An expression that could be read is looked at further. -/
theorem Succeeds.of_canonical {expr : Expr} {least : Precedence}
    (hcanonical : expr.Canonical least) {production : Production β} {value : β}
    (hproduction : Succeeds production start value stop) :
    Succeeds (match expr with
      | .bad bad => throw bad
      | _ => production) start value stop := by
  split
  · simp [Expr.Canonical] at hcanonical
  · exact hproduction

section Stmts

variable (hnested : nested.Complete room) (hroom : start.nesting + room ≤ maxNesting)
  (hloop : inLoop → start.loopDepth ≠ 0)

include hnested hroom hloop

theorem stmtPass_rounds {stops : Kind → Bool} {stmt : Stmt}
    (hstops : ∀ kind, kind.beginsStmt → stops kind = false)
    (hsemicolon : stops .semicolon = false) (hstmt : stmt.WellFormed inLoop)
    (hnesting : stmt.nesting ≤ room)
    (hfaces : cursor.Faces (stmt.slots ++ [.separator .semicolon]) last)
    (hends : stmt.isFallThrough → last.kind.endsStmts) (found : List Stmt) :
    Relation.ReflTransGen (Round (stmtPass nested stops)) (found, start.moveTo cursor)
      (stmt :: found, start.moveTo last) := by
  obtain ⟨middle, hread, hmiddle⟩ := hnested.stmts hroom hloop hstmt hnesting hfaces hends
  have hkind := Stmt.kind_of_faces hstmt hfaces
  have hmoved : middle.position ≠ cursor.position := by
    obtain ⟨slot, hslot, -⟩ := Stmt.exists_head?_slots hstmt
    obtain ⟨others, hslots⟩ := List.head?_eq_some_iff.1 hslot
    have hlast := hfaces.position_eq
    rw [hslots, List.length_append, List.length_cons, List.length_singleton] at hlast
    rcases hmiddle with rfl | hmiddle
    · omega
    · have hrest := hmiddle.position_eq
      rw [List.length_singleton] at hrest
      omega
  have hstep : Gives (steppingStmt nested) (start.moveTo cursor) stmt (start.moveTo middle) := by
    apply Gives.look rfl
    apply Gives.bind hread
    apply Gives.look rfl
    apply Gives.of_neg hmoved
    exact .pure _ _
  have hround : Round (stmtPass nested stops) (found, start.moveTo cursor)
      (stmt :: found, start.moveTo middle) := by
    have heof : cursor.kind ≠ .eof := Kind.ne_of_holds hkind rfl
    apply Gives.look rfl
    apply Gives.of_neg (by simp [heof, hstops _ hkind])
    apply Gives.of_neg (Kind.ne_of_holds hkind rfl)
    exact Gives.bind hstep (.pure _ _)
  rcases hmiddle with rfl | hmiddle
  · exact .single hround
  · obtain rfl := Cursor.faces_nil.1 hmiddle.next
    have hskip : Round (stmtPass nested stops) (stmt :: found, start.moveTo middle)
        (stmt :: found, start.moveTo middle.next) := by
      apply Gives.look hmiddle.kind_eq
      apply Gives.of_neg (by simp [Slot.kind, hsemicolon])
      apply Gives.of_pos rfl
      exact Gives.bind rfl (.pure _ _)
    exact .tail (.single hround) hskip

theorem stmtList_gives {stops : Kind → Bool} {stmts : List Stmt}
    (hstops : ∀ kind, kind.beginsStmt → stops kind = false)
    (hsemicolon : stops .semicolon = false) (hstmts : Stmt.WellFormedAll inLoop stmts)
    (hnesting : Stmt.nestingOfAll stmts ≤ room)
    (hfaces : cursor.Faces (Stmt.slotsOfAll stmts) last) (hlast : stops last.kind)
    (hends : last.kind.endsStmts) :
    Gives (stmtList nested stops) (start.moveTo cursor) stmts (start.moveTo last) := by
  rw [Stmt.nestingOfAll_eq, greatest_le_iff] at hnesting
  rw [Stmt.slotsOfAll_eq] at hfaces
  have hrounds : Relation.ReflTransGen (Round (stmtPass nested stops)) ([], start.moveTo cursor)
      (stmts.reverse ++ [], start.moveTo last) := by
    apply closedSlots_rounds _ hfaces
    intro stmt others found cursor after hsuffix hbefore hbehind
    obtain ⟨hstmt, hfallThrough⟩ := Stmt.WellFormedAll.of_suffix hstmts hsuffix
    apply stmtPass_rounds hnested hroom hloop hstops hsemicolon hstmt
      (hnesting stmt (hsuffix.subset List.mem_cons_self)) hbefore
    intro hstmt
    rw [hfallThrough hstmt] at hbehind
    rw [← Cursor.faces_nil.1 hbehind]
    exact hends
  have hdone : Gives (stmtPass nested stops (stmts.reverse ++ [])) (start.moveTo last)
      (.done (stmts.reverse ++ [])) (start.moveTo last) := by
    apply Gives.look rfl
    apply Gives.of_pos (by simp [hlast])
    exact .pure _ _
  have hread := Gives.repeatStep (stmtPass_gains hnested.orderly stops) hrounds hdone
  rw [List.append_nil] at hread
  apply Gives.bind hread
  rw [List.reverse_reverse]
  exact .pure _ _

/-- A body is read up to its closing brace, whatever follows. -/
theorem block_succeeds {body : Enclosed Stmt} (hbody : Stmt.WellFormedBlock inLoop body)
    (hnesting : Stmt.insideBlock body ≤ room)
    (hfaces : cursor.Faces (Stmt.slotsOfBlock body) last) :
    Succeeds (block nested) (start.moveTo cursor) body (start.moveTo last) := by
  obtain ⟨opening, stmts, closing⟩ := body
  simp only [Stmt.WellFormedBlock] at hbody
  obtain ⟨hopening, hstmts, hclosing⟩ := hbody
  apply Succeeds.read (readsNext_expectAs _ _ (hfaces.kind_eq.trans hopening)) hfaces
  rintro _ after rfl hafter
  obtain ⟨middle, hbefore, hbehind⟩ := Cursor.faces_append.1 hafter
  have hkind : middle.kind = .rbrace := hbehind.kind_eq.trans hclosing
  have hread : Gives (stmtList nested (· = .rbrace)) (start.moveTo after) stmts
      (start.moveTo middle) :=
    stmtList_gives hnested hroom hloop
      (fun kind hkind => by simpa using Kind.ne_of_holds hkind rfl) rfl hstmts hnesting hbefore
      (by simp [hkind]) (by rw [hkind]; rfl)
  apply Succeeds.bind (.lift hread)
  exact Succeeds.readLast ((readsNext_expectAs _ _ hkind).covering _) hbehind

theorem elseBranch_succeeds {otherwise : Option Stmt}
    (hotherwise : Stmt.WellFormedPart inLoop Stmt.isElse otherwise)
    (hnesting : Stmt.insideElse otherwise ≤ room)
    (hfaces : cursor.Faces (Stmt.slotsOfElse otherwise) last) (hlast : last.kind ≠ .elseKw) :
    Succeeds (elseBranch nested) (start.moveTo cursor) otherwise (start.moveTo last) := by
  cases otherwise with
  | none =>
      obtain rfl := Cursor.faces_nil.1 hfaces
      exact Succeeds.acceptNone hlast (.pure _ _)
  | some stmt =>
      simp only [Stmt.WellFormedPart] at hotherwise
      apply Succeeds.acceptSome hfaces rfl
      intro _ after _ hafter
      cases stmt with
      | ifElse keyword condition body otherwise =>
          have hkeyword : keyword.kind = .ifKw := by
            simp only [Stmt.WellFormed] at hotherwise
            exact hotherwise.2.1
          have hread := hnested.ifElses hroom hloop hotherwise.2 hnesting hafter hlast
          apply Succeeds.look (hafter.kind_eq.trans hkeyword)
          apply Succeeds.of_pos rfl
          exact hread.map
      | block body =>
          simp only [Stmt.WellFormed] at hotherwise
          have hread := block_succeeds hnested hroom hloop hotherwise.2 hnesting hafter
          have hopening : after.kind = .lbrace := by
            obtain ⟨opening, stmts, closing⟩ := body
            simp only [Stmt.WellFormedBlock] at hotherwise
            exact hafter.kind_eq.trans hotherwise.2.1
          apply Succeeds.look hopening
          apply Succeeds.of_neg (by decide)
          apply Succeeds.of_pos rfl
          exact hread.map
      | _ => simp [Stmt.isElse] at hotherwise

/-- A condition is read with all its branches if no other branch follows. -/
theorem ifStmt_succeeds {keyword : Token} {condition : Expr} {body : Enclosed Stmt}
    {otherwise : Option Stmt}
    (hstmt : (Stmt.ifElse keyword condition body otherwise).WellFormed inLoop)
    (hinside : (Stmt.ifElse keyword condition body otherwise).inside ≤ room)
    (hfaces : cursor.Faces (Stmt.ifElse keyword condition body otherwise).slots last)
    (hlast : last.kind ≠ .elseKw) :
    Succeeds (ifStmt nested) (start.moveTo cursor) (.ifElse keyword condition body otherwise)
      (start.moveTo last) := by
  simp only [Stmt.WellFormed] at hstmt
  obtain ⟨-, hcondition, hbody, hotherwise⟩ := hstmt
  simp only [Stmt.inside, Nat.max_le] at hinside
  simp only [Stmt.slots, List.cons_append, List.append_assoc] at hfaces
  apply Succeeds.read readsNext_advance hfaces
  rintro _ after rfl hafter
  have hbegins : after.kind ≠ .lbrace :=
    Kind.ne_of_holds (Expr.kind_of_faces hcondition hafter) rfl
  apply Succeeds.look rfl
  apply Succeeds.of_neg hbegins
  obtain ⟨middle, hexpr, hbehind⟩ := Cursor.faces_append.1 hafter
  have hopening : middle.kind = .lbrace := by
    obtain ⟨opening, stmts, closing⟩ := body
    simp only [Stmt.WellFormedBlock] at hbody
    exact hbehind.kind_eq.trans hbody.1
  have hends : middle.Ends .lowest := .inl (by rw [hopening]; rfl)
  apply Succeeds.bind (.lift (hnested.exprs hroom hcondition hinside.1 hexpr hends))
  apply Succeeds.look hopening
  apply Succeeds.of_neg (by decide)
  obtain ⟨place, hblock, helse⟩ := Cursor.faces_append.1 hbehind
  apply Succeeds.bind (block_succeeds hnested hroom hloop hbody hinside.2.1 hblock)
  exact Succeeds.map
    (elseBranch_succeeds hnested hroom hloop hotherwise hinside.2.2 helse hlast)

omit hloop

theorem simpleStmt_succeeds {stmt : Stmt} (hsimple : stmt.isSimple)
    (hstmt : stmt.WellFormed inLoop) (hinside : stmt.inside ≤ room)
    (hfaces : cursor.Faces stmt.slots last) (hends : last.Ends .lowest) :
    Succeeds (simpleStmt nested) (start.moveTo cursor) stmt (start.moveTo last) := by
  cases stmt with
  | assign left op right =>
      simp only [Stmt.WellFormed] at hstmt
      obtain ⟨hassignable, hleft, hop, hright⟩ := hstmt
      simp only [Stmt.inside, Nat.max_le] at hinside
      obtain ⟨middle, hbefore, hbehind⟩ := Cursor.faces_append.1 hfaces
      have hkind : middle.kind = op.kind := hbehind.kind_eq
      have hmiddle : middle.Ends .lowest :=
        .inl (by rw [hkind, Kind.precedence_of_isAssignOp hop])
      apply Succeeds.bind (.lift (hnested.exprs hroom hleft hinside.1 hbefore hmiddle))
      apply Succeeds.of_canonical hleft
      apply Succeeds.look hkind
      apply Succeeds.of_pos (by simp [hassignable, hop])
      apply Succeeds.read readsNext_advance hbehind
      rintro _ after rfl hafter
      exact Succeeds.map (.lift (hnested.exprs hroom hright hinside.2 hafter hends))
  | incDec target op =>
      simp only [Stmt.WellFormed] at hstmt
      obtain ⟨hassignable, htarget, hop⟩ := hstmt
      obtain ⟨middle, hbefore, hbehind⟩ := Cursor.faces_append.1 hfaces
      have hkind : middle.kind = op.kind := hbehind.kind_eq
      have hmiddle : middle.Ends .lowest :=
        .inl (by rw [hkind, Kind.precedence_of_isIncDec hop])
      apply Succeeds.bind (.lift (hnested.exprs hroom htarget hinside hbefore hmiddle))
      apply Succeeds.of_canonical htarget
      apply Succeeds.look hkind
      apply Succeeds.of_neg (by simp [Kind.not_isAssignOp_of_isIncDec hop])
      apply Succeeds.of_pos (by simp [hassignable, hop])
      exact Succeeds.readLast readsNext_advance hbehind
  | effect value =>
      simp only [Stmt.WellFormed] at hstmt
      obtain ⟨hcall, hvalue⟩ := hstmt
      have hassignable : value.isAssignable = false := by
        cases value <;> simp_all [Expr.isCall, Expr.isAssignable]
      apply Succeeds.bind (.lift (hnested.exprs hroom hvalue hinside hfaces hends))
      apply Succeeds.of_canonical hvalue
      apply Succeeds.look rfl
      apply Succeeds.of_neg (by simp [hassignable])
      apply Succeeds.of_neg (by simp [hassignable])
      apply Succeeds.of_pos hcall
      exact .pure _ _
  | _ => simp [Stmt.isSimple] at hsimple

/-- Expressions in a row are read up to a token that is no comma and ends the last one. -/
theorem exprListPass_rounds {exprs : List Expr} (hnonempty : exprs ≠ [])
    (hexprs : ∀ expr ∈ exprs, expr.Canonical .lowest)
    (hnesting : ∀ expr ∈ exprs, expr.nesting ≤ room)
    (hfaces : cursor.Faces (commaSlots Expr.slots exprs) last) (hends : last.Ends .lowest)
    (hlast : last.kind ≠ .comma) (found : List Expr) :
    ∃ gathered middle,
      Relation.ReflTransGen (Round (exprListPass nested)) (found, start.moveTo cursor)
        (gathered, start.moveTo middle) ∧
      Gives (exprListPass nested gathered) (start.moveTo middle)
        (.done (exprs.reverse ++ found)) (start.moveTo last) := by
  induction exprs generalizing cursor found with
  | nil => exact absurd rfl hnonempty
  | cons expr others ih =>
      obtain ⟨hexpr, hothers⟩ := List.forall_mem_cons.1 hexprs
      obtain ⟨hfirst, hrest⟩ := List.forall_mem_cons.1 hnesting
      cases others with
      | nil =>
          refine ⟨found, cursor, .refl, ?_⟩
          apply Gives.bind (hnested.exprs hroom hexpr hfirst hfaces hends)
          exact Gives.bind (accept?_gives_none hlast) (.pure _ _)
      | cons other others =>
          rw [commaSlots] at hfaces
          obtain ⟨middle, hbefore, hbehind⟩ := Cursor.faces_append.1 hfaces
          have hcomma : middle.kind = .comma := hbehind.kind_eq
          have hmiddle : middle.Ends .lowest := .inl (by rw [hcomma]; rfl)
          have hround : Round (exprListPass nested) (found, start.moveTo cursor)
              (expr :: found, start.moveTo middle.next) := by
            apply Gives.bind (hnested.exprs hroom hexpr hfirst hbefore hmiddle)
            exact Gives.bind (accept?_gives_some hcomma) (.pure _ _)
          obtain ⟨gathered, place, hrounds, hdone⟩ :=
            ih (List.cons_ne_nil _ _) hothers hrest hbehind.next (expr :: found)
          refine ⟨gathered, place, .head hround hrounds, ?_⟩
          simpa using hdone

theorem exprList_gives {exprs : List Expr} (hnonempty : exprs ≠ [])
    (hexprs : Expr.CanonicalAll exprs) (hnesting : Expr.nestingOfAll exprs ≤ room)
    (hfaces : cursor.Faces (commaSlots Expr.slots exprs) last) (hends : last.Ends .lowest)
    (hlast : last.kind ≠ .comma) :
    Gives (exprList nested) (start.moveTo cursor) exprs (start.moveTo last) := by
  rw [Expr.nestingOfAll_eq, greatest_le_iff] at hnesting
  obtain ⟨gathered, middle, hrounds, hdone⟩ := exprListPass_rounds hnested hroom hnonempty
    (Expr.canonicalAll_iff.1 hexprs) hnesting hfaces hends hlast []
  have hread := Gives.repeatStep (exprListPass_gains hnested.orderly) hrounds hdone
  rw [List.append_nil] at hread
  apply Gives.bind hread
  rw [List.reverse_reverse]
  exact .pure _ _

theorem returnStmt_gives {keyword : Token} {values : List Expr}
    (hvalues : Expr.CanonicalAll values) (hnesting : Expr.nestingOfAll values ≤ room)
    (hfaces : cursor.Faces (Stmt.returns keyword values).slots last)
    (hlast : last.kind = .semicolon) :
    Gives (returnStmt nested) (start.moveTo cursor) (.returns keyword values)
      (start.moveTo last) := by
  obtain rfl := hfaces.current_token
  apply Gives.bind rfl
  cases values with
  | nil =>
      obtain rfl := Cursor.faces_nil.1 hfaces.next
      have hend : Gives atReturnEnd (start.moveTo cursor.next) true
          (start.moveTo cursor.next) := by
        apply Gives.look hlast
        apply Gives.look rfl
        exact .pure _ _
      exact Gives.bind hend (.pure _ _)
  | cons value others =>
      have hvalue := hvalues.1
      -- Only the first token of the values is bound to the line of the keyword, so it has to
      -- be taken out of their slots.
      obtain ⟨tail, htail⟩ := exists_commaSlots_cons Expr.slots value others
      obtain ⟨first, hfirst⟩ := List.head?_eq_some_iff.1 (value.head?_slots hvalue)
      have hslots : commaSlots Expr.slots (value :: others) =
          .token value.first :: (first ++ tail) := by
        rw [htail, hfirst, List.cons_append]
      have hjoined := hfaces.next
      rw [hslots] at hjoined
      obtain ⟨hlist, hline⟩ := hjoined.of_join
      have hkind : cursor.next.kind.beginsExpr := by
        rw [hlist.kind_eq]
        exact value.beginsExpr_first hvalue
      have hgoes : Gives atReturnEnd (start.moveTo cursor.next) false
          (start.moveTo cursor.next) := by
        have hother : cursor.next.kind ∉ [.rbrace, .semicolon, .eof, .caseKw, .defaultKw] :=
          Kind.not_mem_of_holds hkind (by decide)
        apply Gives.look rfl
        apply Gives.look hline
        simp only [State.cursor_moveTo, hother, decide_false, Bool.or_false]
        exact .pure _ _
      apply Gives.bind hgoes
      have hends : last.Ends .lowest := .inl (by rw [hlast]; rfl)
      rw [← hslots] at hlist
      have hread := exprList_gives hnested hroom (List.cons_ne_nil _ _) hvalues hnesting hlist
        hends (by rw [hlast]; decide)
      exact Gives.bind hread (.pure _ _)

end Stmts

end Grammar

end OriSyntax
