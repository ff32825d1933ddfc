import OriSyntax.Proofs.Pieces
import OriSyntax.Proofs.WellFormed

/-!
Where the statements stand that branch.  A `break` or a `continue` needs the body of a loop
around it, within one function.  A `fallthrough` hands on to the next clause and is the last
statement of its body; in a tree that has bad nodes, one of these may follow it.
-/

namespace OriSyntax

mutual

/-- Every `break` and `continue` of the statement stands in the body of a loop; if `inLoop`
is true, the statement does itself.  Of the statements behind a `fallthrough` the first is
one that `follows` allows. -/
def Stmt.Placed (inLoop : Bool) (follows : Stmt → Bool) : Stmt → Prop
  | .block body => Stmt.PlacedBlock inLoop follows body
  | .ifElse _ _ body otherwise =>
      Stmt.PlacedBlock inLoop follows body ∧ Stmt.PlacedPart inLoop follows otherwise
  | .forLoop _ first _ after body =>
      Stmt.PlacedPart inLoop follows first ∧ Stmt.PlacedPart inLoop follows after ∧
        Stmt.PlacedBlock true follows body
  | .rangeLoop _ _ _ _ _ _ body => Stmt.PlacedBlock true follows body
  | .switch _ first _ ⟨_, cases, _⟩ =>
      Stmt.PlacedPart inLoop follows first ∧ Stmt.PlacedClauses inLoop follows cases
  | .clause _ _ _ body => Stmt.PlacedAll inLoop follows body
  | .breakLoop _ | .continueLoop _ => inLoop
  | .decl inner => inner.Placed follows
  | .const _ | .var _ | .assign .. | .incDec .. | .effect _ | .returns .. | .fallThrough _
  | .bad _ => True

/-- The statements in braces stand where they may. -/
def Stmt.PlacedBlock (inLoop : Bool) (follows : Stmt → Bool) : Enclosed Stmt → Prop
  | ⟨_, stmts, _⟩ => Stmt.PlacedAll inLoop follows stmts

/-- The statements of a body stand where they may. -/
def Stmt.PlacedAll (inLoop : Bool) (follows : Stmt → Bool) : List Stmt → Prop
  | [] => True
  | stmt :: rest =>
      stmt.Placed inLoop follows ∧ (stmt.isFallThrough → ∀ next ∈ rest.head?, follows next) ∧
        Stmt.PlacedAll inLoop follows rest

/-- The clauses of a switch stand where they may, and none is a `fallthrough`. -/
def Stmt.PlacedClauses (inLoop : Bool) (follows : Stmt → Bool) : List Stmt → Prop
  | [] => True
  | stmt :: rest =>
      ¬ stmt.isFallThrough ∧ stmt.Placed inLoop follows ∧
        Stmt.PlacedClauses inLoop follows rest

/-- A part of a statement is no `fallthrough`. -/
def Stmt.PlacedPart (inLoop : Bool) (follows : Stmt → Bool) : Option Stmt → Prop
  | none => True
  | some stmt => ¬ stmt.isFallThrough ∧ stmt.Placed inLoop follows

/-- A function is not in the body of a loop, even if a loop should be around it. -/
def Decl.Placed (follows : Stmt → Bool) : Decl → Prop
  | .func ⟨_, _, _, _, body⟩ => Stmt.PlacedBlock false follows body
  | .struct _ | .interface _ | .enum _ | .sum _ | .implements _ | .bad _ => True

end

/-- The statement stands where it may, and what follows it does not matter. -/
def Stmt.PlacedAlone (inLoop : Bool) (follows : Stmt → Bool) (stmt : Stmt) : Prop :=
  ¬ stmt.isFallThrough ∧ stmt.Placed inLoop follows

/-- The functions of a file are not in loops, and only in their bodies are statements that
branch. -/
structure File.Placed (follows : Stmt → Bool) (file : File) : Prop where
  consts : ∀ stmt ∈ file.consts, stmt.PlacedAlone false follows
  decls : ∀ decl ∈ file.decls, decl.Placed follows

namespace Stmt

variable {inLoop : Bool} {follows : Stmt → Bool}

theorem placedClauses_iff {stmts : List Stmt} :
    PlacedClauses inLoop follows stmts ↔ ∀ stmt ∈ stmts, stmt.PlacedAlone inLoop follows := by
  induction stmts with
  | nil => simp [PlacedClauses]
  | cons stmt rest ih => rw [PlacedClauses, ih, List.forall_mem_cons, PlacedAlone, and_assoc]

theorem placedPart_iff {part : Option Stmt} :
    PlacedPart inLoop follows part ↔ ∀ stmt ∈ part, stmt.PlacedAlone inLoop follows := by
  cases part with
  | none => simp [PlacedPart]
  | some stmt => simp [PlacedPart, PlacedAlone]

/-- Statements that neither branch nor hold others. -/
def isPlain : Stmt → Bool
  | const _ | var _ | assign .. | incDec .. | effect _ | returns .. | bad _ => true
  | _ => false

theorem placedAlone_of_isPlain {stmt : Stmt} (hstmt : stmt.isPlain) :
    stmt.PlacedAlone inLoop follows := by
  cases stmt <;> simp_all [isPlain, PlacedAlone, isFallThrough, Placed]

theorem isPlain_of_isSimple {stmt : Stmt} (hstmt : stmt.isSimple) : stmt.isPlain := by
  cases stmt <;> simp_all [isSimple, isPlain]

end Stmt

theorem Stmt.not_isBad_of_badNodesOf_eq_nil {stmt : Stmt} (hnone : badNodesOf stmt.pieces = []) :
    ¬ stmt.isBad := by
  cases stmt with
  | bad node => simp [Stmt.pieces] at hnone
  | _ => simp [Stmt.isBad]

mutual

/-- If there are no bad nodes then nothing at all follows a `fallthrough`. -/
theorem Stmt.placed_of_badNodesOf_eq_nil {inLoop : Bool} (stmt : Stmt)
    (hplaced : stmt.Placed inLoop Stmt.isBad) (hnone : badNodesOf stmt.pieces = []) :
    stmt.Placed inLoop fun _ => false := by
  match stmt with
  | .block body =>
      simp only [Stmt.Placed] at hplaced ⊢
      exact Stmt.placedBlock_of_badNodesOf_eq_nil body hplaced hnone
  | .ifElse _ _ body otherwise =>
      simp only [Stmt.Placed, Stmt.pieces, badNodesOf_append, badNodesOf_token, List.cons_append,
        List.append_eq_nil_iff] at hplaced hnone ⊢
      exact ⟨Stmt.placedBlock_of_badNodesOf_eq_nil body hplaced.1 hnone.1.2,
        Stmt.placedPart_of_badNodesOf_eq_nil otherwise hplaced.2 hnone.2⟩
  | .forLoop _ first _ after body =>
      simp only [Stmt.Placed, Stmt.pieces, badNodesOf_append, badNodesOf_token, List.cons_append,
        List.append_eq_nil_iff] at hplaced hnone ⊢
      exact ⟨Stmt.placedPart_of_badNodesOf_eq_nil first hplaced.1 hnone.1.1.1,
        Stmt.placedPart_of_badNodesOf_eq_nil after hplaced.2.1 hnone.1.2,
        Stmt.placedBlock_of_badNodesOf_eq_nil body hplaced.2.2 hnone.2⟩
  | .rangeLoop _ _ _ _ _ _ body =>
      simp only [Stmt.Placed, Stmt.pieces, badNodesOf_append, List.append_eq_nil_iff]
        at hplaced hnone ⊢
      exact Stmt.placedBlock_of_badNodesOf_eq_nil body hplaced hnone.2
  | .switch _ first _ ⟨_, cases, _⟩ =>
      simp only [Stmt.Placed, Stmt.pieces, Stmt.piecesOfBlock, badNodesOf_append, badNodesOf_token,
        badNodesOf_opens, List.cons_append, List.append_eq_nil_iff] at hplaced hnone ⊢
      exact ⟨Stmt.placedPart_of_badNodesOf_eq_nil first hplaced.1 hnone.1.1,
        Stmt.placedClauses_of_badNodesOf_eq_nil cases hplaced.2 hnone.2.1⟩
  | .clause _ _ _ body =>
      simp only [Stmt.Placed, Stmt.pieces, badNodesOf_append, badNodesOf_token,
        List.cons_append, List.append_eq_nil_iff] at hplaced hnone ⊢
      exact Stmt.placedAll_of_badNodesOf_eq_nil body hplaced hnone.2
  | .breakLoop _ | .continueLoop _ =>
      simp only [Stmt.Placed] at hplaced ⊢
      exact hplaced
  | .decl inner =>
      simp only [Stmt.Placed] at hplaced ⊢
      exact Decl.placed_of_badNodesOf_eq_nil inner hplaced hnone
  | .const _ | .var _ | .assign .. | .incDec .. | .effect _ | .returns .. | .fallThrough _
  | .bad _ => simp only [Stmt.Placed]

theorem Stmt.placedBlock_of_badNodesOf_eq_nil {inLoop : Bool} (body : Enclosed Stmt)
    (hplaced : Stmt.PlacedBlock inLoop Stmt.isBad body)
    (hnone : badNodesOf (Stmt.piecesOfBlock body) = []) :
    Stmt.PlacedBlock inLoop (fun _ => false) body := by
  match body with
  | ⟨_, stmts, _⟩ =>
      simp only [Stmt.PlacedBlock, Stmt.piecesOfBlock, badNodesOf_append, badNodesOf_opens,
        List.cons_append, List.append_eq_nil_iff] at hplaced hnone ⊢
      exact Stmt.placedAll_of_badNodesOf_eq_nil stmts hplaced hnone.1

theorem Stmt.placedAll_of_badNodesOf_eq_nil {inLoop : Bool} (stmts : List Stmt)
    (hplaced : Stmt.PlacedAll inLoop Stmt.isBad stmts)
    (hnone : badNodesOf (Stmt.piecesOfAll stmts) = []) :
    Stmt.PlacedAll inLoop (fun _ => false) stmts := by
  match stmts with
  | [] => trivial
  | stmt :: rest =>
      simp only [Stmt.PlacedAll, Stmt.piecesOfAll, badNodesOf_append, List.append_eq_nil_iff]
        at hplaced hnone ⊢
      refine ⟨Stmt.placed_of_badNodesOf_eq_nil stmt hplaced.1 hnone.1, fun hfalls next hnext => ?_,
        Stmt.placedAll_of_badNodesOf_eq_nil rest hplaced.2.2 hnone.2⟩
      cases rest with
      | nil => exact nomatch hnext
      | cons other more =>
          obtain rfl : other = next := Option.mem_some_iff.1 hnext
          simp only [Stmt.piecesOfAll, badNodesOf_append, List.append_eq_nil_iff] at hnone
          exact absurd (hplaced.2.1 hfalls other hnext)
            (Stmt.not_isBad_of_badNodesOf_eq_nil hnone.2.1)

theorem Stmt.placedClauses_of_badNodesOf_eq_nil {inLoop : Bool} (stmts : List Stmt)
    (hplaced : Stmt.PlacedClauses inLoop Stmt.isBad stmts)
    (hnone : badNodesOf (Stmt.piecesOfAll stmts) = []) :
    Stmt.PlacedClauses inLoop (fun _ => false) stmts := by
  match stmts with
  | [] => trivial
  | stmt :: rest =>
      simp only [Stmt.PlacedClauses, Stmt.piecesOfAll, badNodesOf_append, List.append_eq_nil_iff]
        at hplaced hnone ⊢
      exact ⟨hplaced.1, Stmt.placed_of_badNodesOf_eq_nil stmt hplaced.2.1 hnone.1,
        Stmt.placedClauses_of_badNodesOf_eq_nil rest hplaced.2.2 hnone.2⟩

theorem Stmt.placedPart_of_badNodesOf_eq_nil {inLoop : Bool} (part : Option Stmt)
    (hplaced : Stmt.PlacedPart inLoop Stmt.isBad part)
    (hnone : badNodesOf (Stmt.pieces? part) = []) :
    Stmt.PlacedPart inLoop (fun _ => false) part := by
  match part with
  | none => trivial
  | some stmt =>
      simp only [Stmt.PlacedPart, Stmt.pieces?] at hplaced hnone ⊢
      exact ⟨hplaced.1, Stmt.placed_of_badNodesOf_eq_nil stmt hplaced.2 hnone⟩

theorem Decl.placed_of_badNodesOf_eq_nil (decl : Decl) (hplaced : decl.Placed Stmt.isBad)
    (hnone : badNodesOf decl.pieces = []) : decl.Placed fun _ => false := by
  match decl with
  | .func ⟨_, _, _, _, body⟩ =>
      simp only [Decl.Placed, Decl.pieces, FuncDecl.pieces, badNodesOf_append,
        List.append_eq_nil_iff] at hplaced hnone ⊢
      exact Stmt.placedBlock_of_badNodesOf_eq_nil body hplaced hnone.2
  | .struct _ | .interface _ | .enum _ | .sum _ | .implements _ | .bad _ =>
      simp only [Decl.Placed]

end

theorem File.placed_of_badNodes_eq_nil {file : File} (hplaced : file.Placed Stmt.isBad)
    (hnone : file.badNodes = []) : file.Placed fun _ => false := by
  rw [File.badNodes_eq, List.flatMap_eq_nil_iff] at hnone
  have hitem (item : Item) (hitem : item ∈ file.items) : badNodesOf item.pieces = [] :=
    hnone item hitem
  constructor
  · intro stmt hstmt
    obtain ⟨hfalls, hstmt'⟩ := hplaced.consts stmt hstmt
    refine ⟨hfalls, Stmt.placed_of_badNodesOf_eq_nil stmt hstmt' (hitem (.const stmt) ?_)⟩
    simp [File.items, hstmt]
  · intro decl hdecl
    refine Decl.placed_of_badNodesOf_eq_nil decl (hplaced.decls decl hdecl)
      (hitem (.decl decl) ?_)
    simp [File.items, hdecl]

end OriSyntax
