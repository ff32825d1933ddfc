import OriSyntax.Kind

/-!
Binding strength of the operators, from the loosest to the tightest:
disjunction, conjunction, equality, order, sums, products, signs, and the forms
that follow their operand (selection, indexing, call).
-/

namespace OriSyntax

/-- How tightly an operator binds. -/
inductive Precedence where
  | lowest | or | and | equality | compare | additive | multiplicative
  | unary | suffix
deriving DecidableEq, Repr, Inhabited

namespace Precedence

/-- The place of a level among the levels; a larger rank binds tighter. -/
def rank (level : Precedence) : Nat := level.ctorIdx

instance : LT Precedence where
  lt first second := first.rank < second.rank

instance : LE Precedence where
  le first second := first.rank ≤ second.rank

instance (first second : Precedence) : Decidable (first < second) :=
  inferInstanceAs (Decidable (first.rank < second.rank))

instance (first second : Precedence) : Decidable (first ≤ second) :=
  inferInstanceAs (Decidable (first.rank ≤ second.rank))

/-- The next tighter level; nothing binds tighter than the last one. -/
def tighter : Precedence → Precedence
  | .lowest => .or
  | .or => .and
  | .and => .equality
  | .equality => .compare
  | .compare => .additive
  | .additive => .multiplicative
  | .multiplicative => .unary
  | .unary | .suffix => .suffix

/-- The name of a level in reports. -/
def name : Precedence → String
  | .lowest => "Lowest"
  | .or => "Or"
  | .and => "And"
  | .equality => "Equality"
  | .compare => "Compare"
  | .additive => "Additive"
  | .multiplicative => "Multiplicative"
  | .unary => "Prefix"
  | .suffix => "Postfix"

/-- A level is looser than the next one, the last level apart. -/
theorem lt_tighter {level : Precedence} (hlevel : level ≠ .suffix) :
    level < level.tighter := by
  revert hlevel
  cases level <;> decide

end Precedence

namespace Kind

/-- The level at which a kind continues the expression before it; `lowest` if it
never does. -/
def precedence : Kind → Precedence
  | .or => .or
  | .and => .and
  | .eq | .neq => .equality
  | .lt | .lte | .gt | .gte => .compare
  | .plus | .minus => .additive
  | .star | .slash | .modulo => .multiplicative
  | .dot | .lbracket | .lparen => .suffix
  | _ => .lowest

/-- Kinds that open a selection, an index or a call. -/
def isSuffix (kind : Kind) : Bool := kind ∈ [.dot, .lbracket, .lparen]

end Kind

end OriSyntax
