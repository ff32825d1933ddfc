import OriSyntax.Kind

/-!
Sets of token kinds, one bit for each kind.
-/

namespace OriSyntax

/-- A set of kinds; the bit with a kind's number tells whether it is a member. -/
structure KindSet where
  bits : Nat
deriving DecidableEq, Repr

namespace KindSet

instance : EmptyCollection KindSet := ⟨⟨0⟩⟩

/-- The set with one more kind. -/
def insert (set : KindSet) (kind : Kind) : KindSet :=
  ⟨set.bits ||| 1 <<< kind.index⟩

/-- Whether a kind is in the set. -/
def contains (set : KindSet) (kind : Kind) : Bool := set.bits.testBit kind.index

/-- The set of the kinds of a list. -/
def ofList (kinds : List Kind) : KindSet := kinds.foldl insert ∅

theorem contains_empty (kind : Kind) : (∅ : KindSet).contains kind = false :=
  Nat.zero_testBit kind.index

theorem contains_insert (set : KindSet) (added kind : Kind) :
    (set.insert added).contains kind = (set.contains kind || decide (added = kind)) := by
  have hshift : (1 <<< added.index).testBit kind.index = decide (added = kind) := by
    rw [Nat.one_shiftLeft, Nat.testBit_two_pow]
    exact decide_eq_decide.2 ⟨Kind.index_injective, congrArg Kind.index⟩
  rw [contains, insert, Nat.testBit_or, hshift]
  rfl

theorem contains_ofList (kinds : List Kind) (kind : Kind) :
    (ofList kinds).contains kind = decide (kind ∈ kinds) := by
  suffices hfold : ∀ set : KindSet,
      (kinds.foldl insert set).contains kind =
        (set.contains kind || decide (kind ∈ kinds)) by
    rw [ofList, hfold, contains_empty, Bool.false_or]
  induction kinds with
  | nil => simp
  | cons head tail ih =>
      intro set
      rw [List.foldl_cons, ih, contains_insert, Bool.or_assoc]
      rw [← Bool.decide_or]
      exact congrArg _ (decide_eq_decide.2
        (List.mem_cons.trans (or_congr_left eq_comm)).symm)

/-- Reserved words that open a declaration at the top level. -/
def declStart : KindSet :=
  ofList [.packageKw, .importKw, .funcKw, .constKw, .varKw, .typeKw]

/-- Kinds that end a statement within a body. -/
def stmtEnd : KindSet := ofList [.semicolon, .rbrace]

/-- Kinds that end a clause of a switch. -/
def caseBoundary : KindSet := ofList [.caseKw, .defaultKw, .rbrace]

end KindSet

end OriSyntax
