import OriSyntax.Grammar.File
import OriSyntax.Proofs.EveryExpr
import OriSyntax.Proofs.ExprComplete
import OriSyntax.Proofs.Lists

/-!
Operators bind as their levels say, in every expression of every tree.  The loop that folds
operators and suffixes onto an operand goes on where the operand that was read last ends;
so whatever it folds next binds no tighter than what it has folded.  Where the operand is
broken nothing is known of the place, but then the expression is broken too.
-/

namespace OriSyntax

/-- Nothing in the expression is bad. -/
def Expr.Clean (expr : Expr) : Prop := ∀ node, Visit.bad node ∉ expr.visits

/-- Whether the expression is an operand with a sign before it. -/
def Expr.isUnary : Expr → Bool
  | unary .. => true
  | _ => false

/-- The operators directly below the expression bind as its form asks: those on the left of
an operator no looser than it, those on the right tighter, none below a sign, and no operator
or sign is selected from, indexed or called. -/
def Expr.Binds : Expr → Prop
  | binary left op right =>
      (∀ inner ∈ left.binaryOp?, op.kind.precedence ≤ inner.kind.precedence) ∧
        ∀ inner ∈ right.binaryOp?, op.kind.precedence < inner.kind.precedence
  | unary _ operand => operand.binaryOp? = none
  | selector base _ _ | index base _ _ _ | call base _ =>
      base.binaryOp? = none ∧ base.isUnary = false
  | ident _ | literal .. | paren .. | bad _ => True

/-- What an operator or a suffix continues, and the token by which it does. -/
def Expr.continued? : Expr → Option (Expr × Token)
  | binary left op _ => some (left, op)
  | selector base dot _ => some (base, dot)
  | index base opening _ _ => some (base, opening)
  | call callee args => some (callee, args.opening)
  | ident _ | literal .. | paren .. | unary .. | bad _ => none

/-- In the list `stream` the token stands right behind `previous`, and on no later line. -/
def OnLineOf (stream : List Token) (previous token : Token) : Prop :=
  ∃ before after, stream = before ++ previous :: token :: after ∧ token.line ≤ previous.line

/-- An expression read from `stream` whose operator, if it has one, stands where it should. -/
structure Expr.Sound (stream : List Token) (expr : Expr) : Prop where
  binds : expr.Clean → expr.Binds
  compares : ∀ left op right, expr = .binary left op right → op.kind.isComparison →
    left.isComparison = false
  continues : ∀ left token, expr.continued? = some (left, token) →
    ∃ previous, OnLineOf stream previous token ∧ (left.Clean → previous = left.last)

namespace Expr

variable {stream : List Token}

theorem clean_unary {op : Token} {operand : Expr} (hclean : (unary op operand).Clean) :
    operand.Clean := by
  intro node hnode
  apply hclean node
  simp [hnode]

theorem clean_binary {left right : Expr} {op : Token} (hclean : (binary left op right).Clean) :
    left.Clean ∧ right.Clean := by
  constructor
  · intro node hnode
    apply hclean node
    simp [hnode]
  · intro node hnode
    apply hclean node
    simp [hnode]

theorem not_clean_bad (node : BadNode) : ¬ (bad node).Clean := by
  intro hclean
  apply hclean node
  simp

/-- An expression without an operator or a suffix is sound if its operand is no operator. -/
theorem Sound.of_continued?_eq_none {expr : Expr} (hbinds : expr.Clean → expr.Binds)
    (hnone : expr.continued? = none) : expr.Sound stream where
  binds := hbinds
  compares := by
    rintro left op right rfl
    exact nomatch hnone
  continues := by
    intro left token hsome
    rw [hnone] at hsome
    exact nomatch hsome

end Expr

/-- The next token stands on the line of the one read last, or further up. -/
theorem Cursor.onLineOf {cursor : Cursor} {previous : Token}
    (hprevious : cursor.behind.head? = some previous) (hkind : cursor.kind ≠ .eof)
    (hline : cursor.opensLine = false) :
    OnLineOf cursor.tokens previous cursor.current := by
  obtain ⟨rest, hbehind⟩ := List.head?_eq_some_iff.1 hprevious
  refine ⟨rest.reverse, cursor.next.ahead ++ [cursor.eof], ?_, ?_⟩
  · rw [Cursor.tokens, hbehind, ahead_eq_cons hkind]
    simp
  · rw [Cursor.opensLine, hprevious] at hline
    simpa using hline

namespace Precedence

theorem le_of_lt_tighter {first second : Precedence} (hlt : first < second.tighter) :
    first ≤ second := by
  revert hlt
  cases first <;> cases second <;> decide

end Precedence

theorem Kind.ne_eof_of_precedence {kind : Kind} (hlevel : kind.precedence ≠ .lowest) :
    kind ≠ .eof := by
  rintro rfl
  exact hlevel rfl

namespace Expr

variable {cursor : Cursor} {expr : Expr}

/-- Before an operator the operand that was read last has ended; so the operator binds no
tighter than those folded before. -/
theorem EndsAt.precedence_le (hends : expr.EndsAt cursor)
    (hlowest : cursor.kind.precedence ≠ .lowest) (hline : cursor.opensLine = false) :
    ∀ inner ∈ expr.binaryOp?, cursor.kind.precedence ≤ inner.kind.precedence := by
  intro inner hinner
  cases expr with
  | binary left op right =>
      obtain rfl : op = inner := Option.mem_some_iff.1 hinner
      rcases hends with hends | hlt | hends
      · exact absurd hends hlowest
      · exact Precedence.le_of_lt_tighter hlt
      · exact absurd hends (by simp [hline])
  | _ => exact nomatch hinner

/-- What a selection, an index or a call follows is neither an operator nor a sign with its
operand: neither ends before a suffix. -/
theorem EndsAt.isHead (hends : expr.EndsAt cursor) (hsuffix : cursor.kind.isSuffix)
    (hline : cursor.opensLine = false) : expr.binaryOp? = none ∧ expr.isUnary = false := by
  have hlevel := Kind.precedence_of_isSuffix hsuffix
  have hopen (least : Precedence) : ¬ cursor.Ends least := by
    rintro (hlowest | hlooser | hopens)
    · rw [hlevel] at hlowest
      exact nomatch hlowest
    · rw [hlevel] at hlooser
      exact Precedence.not_lt (Precedence.le_suffix least) hlooser
    · exact absurd hopens (by simp [hline])
  cases expr with
  | binary left op right => exact absurd hends (hopen _)
  | unary op operand => exact absurd hends (hopen _)
  | _ => exact ⟨rfl, rfl⟩

end Expr

namespace Grammar

variable {α : Type} {stream : List Token} {nested : Nested} {least : Precedence}
  {expr left : Expr} {token : Token} {start state : State}

/-- Of what is read from `stream`, the token was read last. -/
structure JustRead (stream : List Token) (token : Token) (state : State) : Prop where
  reads : ReadsFrom stream state
  last : state.cursor.behind.head? = some token

theorem JustRead.begun (hread : JustRead stream token state) : state.cursor.behind ≠ [] := by
  intro hnil
  have hlast := hread.last
  rw [hnil] at hlast
  exact nomatch hlast

theorem State.Follows.begun {stop : State} (hfollows : start.Follows stop)
    (hbegun : start.cursor.behind ≠ []) : stop.cursor.behind ≠ [] := by
  obtain ⟨run, hrun⟩ := hfollows.reads
  rw [hrun.behind]
  exact List.append_ne_nil_of_right_ne_nil _ hbegun

theorem Yields.reads {production : Production α} {succeeded : α → State → Prop}
    (hproduction : Yields (ReadsFrom stream) production succeeded fun _ _ => True)
    (horderly : Orderly production.run) :
    Yields (ReadsFrom stream) production
      (fun value state => ReadsFrom stream state ∧ succeeded value state)
      fun _ => ReadsFrom stream :=
  .and_succeeded (horderly.run_keeps fun _ _ hfollows hstart => hstart.follows hfollows)
    hproduction

variable (stream) in
theorem advance_justRead :
    Meets (fun state => ReadsFrom stream state ∧ state.cursor.kind ≠ .eof) advance
      (JustRead stream) := by
  intro state hstate
  constructor
  · exact hstate.1.follows (advance_orderly state)
  · change state.cursor.next.behind.head? = some state.cursor.current
    rw [Cursor.behind_next hstate.2]
    rfl

variable (stream) in
theorem expectAs_justRead (code : ErrorCode) {kind : Kind} (what : String)
    (hkind : kind ≠ .eof) :
    Yields (ReadsFrom stream) (expectAs code kind what) (JustRead stream) fun _ _ => True := by
  apply Yields.bind (.lift currentKind_meets)
  intro found
  split
  · next hfound =>
      apply Yields.lift ((advance_justRead stream).strengthen _)
      rintro state ⟨hreads, rfl⟩
      exact ⟨hreads, hfound ▸ hkind⟩
  · exact .bind (.lift .top) fun _ => .bind (.lift .top) fun _ =>
      .bind (.lift .top) fun _ => .throw fun _ _ => trivial

variable (stream) in
theorem restOfList_justRead (noun : String) (opening : Token) {entry : Production α}
    (horderly : Orderly entry.run) :
    Yields (ReadsFrom stream) (restOfList noun opening entry)
      (fun list state => JustRead stream list.closing state) fun _ _ => True := by
  have hlist : Yields (ReadsFrom stream) (skipping .list (commaList noun entry))
      (fun _ => Facing .rparen) fun _ _ => True :=
    .onFailure ((commaList_ends noun horderly).strengthen fun _ _ => trivial) fun _ => .top
  have hreads := hlist.reads (skipping_orderly _ (commaList_orderly noun horderly))
  apply Yields.bind (hreads.weaken (fun _ _ hstate => hstate) fun _ _ _ => trivial)
  intro items
  refine .bind (.lift ((advance_justRead stream).strengthen ?_)) fun closing =>
    .pure fun _ hread => hread
  intro state hstate
  refine ⟨hstate.1, ?_⟩
  rw [hstate.2]
  decide

theorem MakesOrFailsFrom.yields {production : Production α} {holds : α → Prop}
    (hproduction : MakesOrFailsFrom stream holds production) :
    Yields (ReadsFrom stream) production (fun value _ => holds value) fun _ _ => True := by
  intro start hstart
  obtain ⟨-, houtcome⟩ := hproduction start hstart
  generalize production.run.run start = result at houtcome
  obtain ⟨outcome, stop⟩ := result
  cases outcome with
  | ok value => exact houtcome value rfl
  | error bad => trivial

/-- An expression that was read from `stream`, whose operator binds at least as tightly as
`least`. -/
structure Made (stream : List Token) (least : Precedence) (expr : Expr) (state : State) :
    Prop where
  reads : ReadsFrom stream state
  sound : EveryExpr (Expr.Sound stream) expr.visits
  tight : ∀ op ∈ expr.binaryOp?, least ≤ op.kind.precedence ∧ op.kind.precedence < .suffix
  last : expr.Clean → state.cursor.behind.head? = some expr.last

/-- An expression as the loop over operators and suffixes leaves it: no operator that binds
at least as tightly as `least` goes on with it. -/
structure Finished (stream : List Token) (least : Precedence) (expr : Expr) (state : State) :
    Prop extends Made stream least expr state where
  ends : expr.Clean → state.cursor.Ends least

/-- An expression within the loop over operators and suffixes: the operand on its right has
ended. -/
structure Folded (stream : List Token) (least : Precedence) (expr : Expr) (state : State) :
    Prop extends Made stream least expr state where
  begun : state.cursor.behind ≠ []
  ends : expr.Clean → expr.EndsAt state.cursor

theorem sound_bad (node : BadNode) : EveryExpr (Expr.Sound stream) (Expr.bad node).visits :=
  .node (.of_continued?_eq_none (fun _ => trivial) rfl) (.cons (by simp) .nil)

theorem Made.bad (hreads : ReadsFrom stream state) (node : BadNode) :
    Made stream least (.bad node) state where
  reads := hreads
  sound := sound_bad node
  tight := fun _ hnone => nomatch hnone
  last := fun hclean => absurd hclean (Expr.not_clean_bad node)

theorem Finished.bad (hreads : ReadsFrom stream state) (node : BadNode) :
    Finished stream least (.bad node) state where
  toMade := .bad hreads node
  ends := fun hclean => absurd hclean (Expr.not_clean_bad node)

theorem Folded.bad (hreads : ReadsFrom stream state) (hbegun : state.cursor.behind ≠ [])
    (node : BadNode) : Folded stream least (.bad node) state where
  toMade := .bad hreads node
  begun := hbegun
  ends := fun hclean => absurd hclean (Expr.not_clean_bad node)

/-- An expression that ends with a token of its own. -/
theorem Folded.of_justRead (hread : JustRead stream expr.last state)
    (hsound : EveryExpr (Expr.Sound stream) expr.visits) (hop : expr.binaryOp? = none)
    (hends : expr.EndsAt state.cursor) : Folded stream least expr state where
  reads := hread.reads
  sound := hsound
  tight := by
    intro op hsome
    rw [hop] at hsome
    exact nomatch hsome
  last := fun _ => hread.last
  begun := hread.begun
  ends := fun _ => hends

/-- A sign whose operand has ended: no operator is loose enough to stay out of it. -/
theorem Finished.signed (hoperand : Finished stream .suffix expr state)
    (hbegun : state.cursor.behind ≠ []) (op : Token) :
    Folded stream least (.unary op expr) state where
  reads := hoperand.reads
  sound := by
    have hplain : expr.binaryOp? = none := by
      rw [Option.eq_none_iff_forall_ne_some]
      intro inner hinner
      obtain ⟨hsuffix, hlt⟩ := hoperand.tight inner hinner
      exact Precedence.not_lt hsuffix hlt
    rw [Expr.visits_unary]
    exact .node (.of_continued?_eq_none (fun _ => hplain) rfl) hoperand.sound
  tight := fun _ hnone => nomatch hnone
  last := fun hclean => hoperand.last (Expr.clean_unary hclean)
  begun := hbegun
  ends := fun hclean => hoperand.ends (Expr.clean_unary hclean)

/-- What continues the expression stands right behind it, and on no later line. -/
theorem Folded.continues (hfolded : Folded stream least left state)
    (hlevel : state.cursor.kind.precedence ≠ .lowest)
    (hline : state.cursor.opensLine = false) :
    ∃ previous, OnLineOf stream previous state.cursor.current ∧
      (left.Clean → previous = left.last) := by
  obtain ⟨previous, rest, hbehind⟩ := List.exists_cons_of_ne_nil hfolded.begun
  have hprevious : state.cursor.behind.head? = some previous := by rw [hbehind, List.head?_cons]
  have hline := Cursor.onLineOf hprevious (Kind.ne_eof_of_precedence hlevel) hline
  refine ⟨previous, hfolded.reads ▸ hline, fun hclean => ?_⟩
  exact Option.some_inj.1 (hprevious.symm.trans (hfolded.last hclean))

/-- Reading from `stream`, the productions of a level make finished expressions. -/
structure Nested.Finishes (stream : List Token) (nested : Nested) : Prop where
  orderly : nested.Orderly
  expr : ∀ least, Meets (ReadsFrom stream) (nested.expr least) (Finished stream least)

theorem Nested.Finishes.expr_makesFrom (hnested : nested.Finishes stream) (least : Precedence) :
    MakesFrom stream (fun expr => EveryExpr (Expr.Sound stream) expr.visits)
      (nested.expr least) :=
  fun start hstart => ⟨hnested.orderly.expr least start, (hnested.expr least start hstart).sound⟩

/-- Whatever the expression is, something was read once it is read. -/
theorem Nested.Finishes.expr_begun (hnested : nested.Finishes stream) (least : Precedence) :
    Meets (JustRead stream token) (nested.expr least) fun expr state =>
      Finished stream least expr state ∧ state.cursor.behind ≠ [] := by
  apply Meets.and
  · exact (hnested.expr least).strengthen fun _ hread => hread.reads
  · exact ((hnested.orderly.expr least).keeps fun _ _ hfollows hbegun =>
      hfollows.begun hbegun).strengthen fun _ hread => hread.begun

section Forms

variable (hnested : nested.Finishes stream)
include hnested

theorem parenthesized_folds :
    Yields (fun state => ReadsFrom stream state ∧ state.cursor.kind ≠ .eof)
      (parenthesized nested) (Folded stream least) fun _ _ => True := by
  apply Yields.bind (.lift (advance_justRead stream))
  intro opening
  apply Yields.bind (.lift currentKind_meets)
  intro kind
  split
  · exact .bind (.lift .top) fun _ => .bind (.lift .top) fun _ =>
      .bind (.lift .top) fun _ => .throw fun _ _ => trivial
  · refine .bind (.lift ((hnested.expr _).strengthen fun _ hstate => hstate.1.reads)) ?_
    intro inner
    apply Yields.of_each
    intro middle hinner
    refine .bind (.onFailure
      ((expectAs_justRead stream _ _ (by decide)).strengthen ?_) fun _ => .top) ?_
    · rintro _ rfl
      exact hinner.reads
    · intro closing
      have hsound : EveryExpr (Expr.Sound stream) (Expr.paren opening inner closing).visits := by
        rw [Expr.visits_paren]
        exact .node (.of_continued?_eq_none (fun _ => trivial) rfl) hinner.sound
      exact .pure fun _ hread => .of_justRead hread hsound rfl trivial

theorem operand_folds :
    Yields (ReadsFrom stream) (operand nested) (Folded stream least) fun _ _ => True := by
  apply Yields.bind (.lift currentKind_meets)
  intro kind
  have hleaf {make : Token → Expr} (hkind : kind ≠ .eof)
      (hmake : ∀ token state, JustRead stream token state →
        Folded stream least (make token) state) :
      Yields (fun state => ReadsFrom stream state ∧ kind = state.cursor.kind)
        (do return make (← advance)) (Folded stream least) fun _ _ => True := by
    refine .bind (.lift ((advance_justRead stream).strengthen ?_)) fun token =>
      .pure (hmake token)
    rintro state ⟨hreads, rfl⟩
    exact ⟨hreads, hkind⟩
  have hsigned (hkind : kind ≠ .eof) :
      Yields (fun state => ReadsFrom stream state ∧ kind = state.cursor.kind)
        (do return Expr.unary (← advance) (← nested.expr .suffix)) (Folded stream least)
        fun _ _ => True := by
    refine .bind (.lift ((advance_justRead stream).strengthen ?_)) fun op => ?_
    · rintro state ⟨hreads, rfl⟩
      exact ⟨hreads, hkind⟩
    exact .bind (.lift (hnested.expr_begun _)) fun operand =>
      .pure fun _ hstate => hstate.1.signed hstate.2 op
  split
  case h_6 =>
    apply (parenthesized_folds hnested).strengthen
    intro state hstate
    exact ⟨hstate.1, hstate.2 ▸ nofun⟩
  case h_7 | h_8 => exact hsigned nofun
  case h_9 =>
    exact .bind (.lift .top) fun _ => .bind (.lift .top) fun _ =>
      .bind (.lift .top) fun _ => .throw fun _ _ => trivial
  all_goals
    exact hleaf nofun fun _ _ hread => .of_justRead hread
      (.node (.of_continued?_eq_none (fun _ => trivial) rfl) .nil) rfl trivial

variable (hfolded : Folded stream least left start) (hline : start.cursor.opensLine = false)
include hfolded hline

omit hnested in
/-- An expression that goes on with a suffix is sound if its parts are. -/
theorem Folded.sound_suffix (hsuffix : start.cursor.kind.isSuffix) {rest : List Visit}
    (hvisits : expr.visits = .expr expr :: (left.visits ++ rest))
    (hbinds : left.binaryOp? = none ∧ left.isUnary = false → expr.Binds)
    (hcontinued : expr.continued? = some (left, start.cursor.current))
    (hop : expr.binaryOp? = none) (hrest : EveryExpr (Expr.Sound stream) rest) :
    EveryExpr (Expr.Sound stream) expr.visits := by
  have hlevel : start.cursor.kind.precedence ≠ .lowest := by
    rw [Kind.precedence_of_isSuffix hsuffix]
    decide
  rw [hvisits]
  refine .node ?_ (hfolded.sound.append hrest)
  constructor
  · intro hclean
    have hleft : left.Clean := by
      intro node hnode
      apply hclean node
      simp [hvisits, hnode]
    exact hbinds ((hfolded.ends hleft).isHead hsuffix hline)
  · rintro _ _ _ rfl
    exact nomatch hop
  · intro other token hsome
    rw [hcontinued] at hsome
    obtain ⟨rfl, rfl⟩ := Prod.mk.inj (Option.some_inj.1 hsome)
    exact hfolded.continues hlevel hline

theorem suffix_folds (hsuffix : start.cursor.kind.isSuffix) :
    Yields (· = start) (suffix nested left) (Folded stream least) fun _ _ => True := by
  have hadvance : Meets (· = start) advance fun token state =>
      ReadsFrom stream state ∧ token = start.cursor.current := by
    rintro _ rfl
    exact ⟨hfolded.reads.follows (advance_orderly _), rfl⟩
  apply Yields.bind (.lift hadvance)
  intro opening
  apply Yields.of_known
  rintro rfl
  split
  · refine .bind (expectAs_justRead stream _ _ (by decide)) fun name => .pure fun _ hread => ?_
    refine .of_justRead hread (hfolded.sound_suffix hline hsuffix ?_ id rfl rfl .nil) rfl trivial
    rw [Expr.visits_selector, List.append_nil]
  split
  · refine .bind (.lift (hnested.expr _)) fun inner => ?_
    apply Yields.of_each
    intro middle hinner
    refine .bind ((expectAs_justRead stream _ _ (by decide)).strengthen ?_) fun closing => ?_
    · rintro _ rfl
      exact hinner.reads
    · refine .pure fun _ hread => .of_justRead hread ?_ rfl trivial
      exact hfolded.sound_suffix hline hsuffix (Expr.visits_index ..) id rfl rfl hinner.sound
  · have hentry : MakesOrFailsFrom stream (fun arg => EveryExpr (Expr.Sound stream) arg.visits)
        (liftM (nested.expr .lowest)) := .lift (hnested.expr_makesFrom _)
    have horderly := Orderly.run_lift (hnested.orderly.expr .lowest)
    have hlist := Yields.and_succeeded
      (restOfList_justRead stream "argument" start.cursor.current horderly)
      (.and_succeeded (restOfList_makesFrom hentry "argument" start.cursor.current).yields
        ((restOfList_closes "argument" start.cursor.current horderly).strengthen
          fun _ _ => trivial))
    refine .bind hlist fun args => .pure fun state hstate => ?_
    obtain ⟨hread, hargs, hopening, -⟩ := hstate
    refine .of_justRead hread ?_ rfl trivial
    refine hfolded.sound_suffix hline hsuffix (Expr.visits_call ..) id ?_ rfl (.flatMap hargs)
    rw [Expr.continued?, hopening]

omit hnested in
/-- An operator folded onto what is there binds looser than what is on its right. -/
theorem Folded.sound_binary {right : Expr} {stop : State}
    (hop : start.cursor.kind.isBinaryOp)
    (hcomparison : ¬ (start.cursor.current.kind.isComparison && left.isComparison))
    (hright : Finished stream start.cursor.kind.precedence.tighter right stop) :
    Expr.Sound stream (.binary left start.cursor.current right) := by
  have hlevel := Kind.precedence_ne_lowest_of_isBinaryOp hop
  constructor
  · intro hclean
    obtain ⟨hleft, -⟩ := Expr.clean_binary hclean
    constructor
    · exact (hfolded.ends hleft).precedence_le hlevel hline
    · intro inner hinner
      exact Precedence.lt_of_lt_of_le (Kind.precedence_lt_tighter_of_isBinaryOp hop)
        (hright.tight inner hinner).1
  · intro _ _ _ hsame hcompares
    obtain ⟨rfl, rfl, rfl⟩ := Expr.binary.inj hsame
    simpa [hcompares] using hcomparison
  · intro _ _ hsame
    obtain ⟨rfl, rfl⟩ := Prod.mk.inj (Option.some_inj.1 hsame)
    exact hfolded.continues hlevel hline

omit hnested in
theorem Folded.binary {right : Expr} {stop : State} (hop : start.cursor.kind.isBinaryOp)
    (hleast : least ≤ start.cursor.kind.precedence)
    (hcomparison : ¬ (start.cursor.current.kind.isComparison && left.isComparison))
    (hright : Finished stream start.cursor.kind.precedence.tighter right stop)
    (hbegun : stop.cursor.behind ≠ []) :
    Folded stream least (.binary left start.cursor.current right) stop where
  reads := hright.reads
  sound := by
    rw [Expr.visits_binary]
    exact .node (hfolded.sound_binary hline hop hcomparison hright)
      (hfolded.sound.append hright.sound)
  tight := by
    intro inner hinner
    obtain rfl : start.cursor.current = inner := Option.mem_some_iff.1 hinner
    exact ⟨hleast, Kind.precedence_lt_suffix_of_isBinaryOp hop⟩
  last := fun hclean => hright.last (Expr.clean_binary hclean).2
  begun := hbegun
  ends := fun hclean => hright.ends (Expr.clean_binary hclean).2

theorem binary_folds (hop : start.cursor.kind.isBinaryOp)
    (hleast : least ≤ start.cursor.kind.precedence) :
    Meets (· = start) (binary nested left start.cursor.kind.precedence)
      (Folded stream least) := by
  have hkind := Kind.ne_eof_of_precedence (Kind.precedence_ne_lowest_of_isBinaryOp hop)
  have hadvance : Meets (· = start) advance fun token state =>
      JustRead stream token state ∧ token = start.cursor.current := by
    rintro _ rfl
    exact ⟨advance_justRead stream _ ⟨hfolded.reads, hkind⟩, rfl⟩
  refine Meets.bind hadvance fun op => ?_
  apply Meets.of_known
  rintro rfl
  refine .bind (hnested.expr_begun _) fun right => ?_
  split
  · have hreport : Meets (fun state => Finished stream start.cursor.kind.precedence.tighter right
          state ∧ state.cursor.behind ≠ [])
        (report (.chainedComparison start.cursor.current) start.cursor.current right.last)
        fun _ state => ReadsFrom stream state ∧ state.cursor.behind ≠ [] :=
      fun _ hstate => ⟨hstate.1.reads, hstate.2⟩
    exact .bind hreport fun node => .pure fun _ hstate => .bad hstate.1 hstate.2 node
  next hcomparison =>
    exact .pure fun _ hstate =>
      hfolded.binary hline hop hleast hcomparison hstate.1 hstate.2

omit hfolded hline in
/-- A pass folds the next operator or suffix onto what is there, or finds that it has ended. -/
theorem exprPass_turns (left : Expr) :
    Meets (Folded stream least left) (exprPass nested least left)
      (Turns (Folded stream least) (Finished stream least)) := by
  refine .bind currentKind_meets fun kind => .bind opensLine_meets fun line => ?_
  apply Meets.of_each
  rintro start ⟨⟨hfolded, rfl⟩, rfl⟩
  split
  · next hends =>
      apply Meets.pure
      rintro _ rfl
      refine ⟨hfolded.toMade, fun _ => ?_⟩
      simpa [Cursor.Ends, or_assoc] using hends
  next hmore =>
    simp only [Bool.or_eq_true, decide_eq_true_eq, not_or, Bool.not_eq_true] at hmore
    obtain ⟨⟨hlowest, hleast⟩, hline⟩ := hmore
    split
    · next hsuffix =>
        have horderly := (suffix_consumes hnested.orderly left).orderly
        refine .bind (.and (suffix_folds hnested hfolded hline hsuffix)
          (horderly.meets_follows start)) fun outcome => ?_
        cases outcome with
        | ok expr => exact .pure fun _ hstate => hstate.1
        | error bad =>
            have hcover : Meets (fun state => True ∧ start.Follows state) (cover left.first bad)
                fun _ => ReadsFrom stream := fun _ hstate => hfolded.reads.follows hstate.2
            exact .bind hcover fun node => .pure fun _ hreads => .bad hreads node
    · next hsuffix =>
        have hop : start.cursor.kind.isBinaryOp := by
          simpa [Kind.isBinaryOp, hlowest] using hsuffix
        have hbinary := binary_folds hnested hfolded hline hop (Nat.le_of_not_lt hleast)
        exact .bind hbinary fun expr => .pure fun _ hexpr => hexpr

omit hfolded hline in
theorem exprInside_finishes :
    Meets (ReadsFrom stream) (exprInside nested least) (Finished stream least) := by
  have hoperand : Yields (ReadsFrom stream) (operand nested) (Folded stream least)
      fun _ _ => True := operand_folds hnested
  refine Meets.bind (hoperand.reads (operand_orderly hnested.orderly)) fun outcome => ?_
  cases outcome with
  | ok left =>
      exact (Meets.repeatStep (exprPass_gains hnested.orderly least) (exprPass_turns hnested)
        left).strengthen fun _ hstate => hstate.2
  | error bad => exact .pure fun _ hreads => .bad hreads bad

end Forms

theorem Finished.stay {other : State} (hfinished : Finished stream least expr state)
    (hcursor : other.cursor = state.cursor) : Finished stream least expr other where
  reads := (congrArg Cursor.tokens hcursor).trans hfinished.reads
  sound := hfinished.sound
  tight := hfinished.tight
  last := hcursor ▸ hfinished.last
  ends := hcursor ▸ hfinished.ends

theorem exprOf_finishes {inside : Production Expr} (horderly : Orderly inside.run)
    (hinside : Yields (ReadsFrom stream) inside (Finished stream least) fun _ _ => True) :
    Meets (ReadsFrom stream) (exprOf inside) (Finished stream least) := by
  have hreads {step : Step Unit} (hstep : Orderly step) :
      Meets (ReadsFrom stream) step fun _ => ReadsFrom stream :=
    hstep.keeps fun _ _ hfollows hstart => hstart.follows hfollows
  have hbad (first : Token) (bad : BadNode) :
      Meets (ReadsFrom stream) (do skip .expression; return Expr.bad (← cover first bad))
        (Finished stream least) :=
    .bind (hreads (skip_orderly _)) fun _ => fun _ hstate => .bad hstate _
  refine .bind current_meets fun first => ?_
  refine Meets.strengthen (Meets.recoverWith ?_ (hbad first)) fun _ hstate => hstate.1
  exact (hinside.reads horderly).weaken (fun _ _ hstate => hstate.2) fun _ _ hstate => hstate

/-- All levels make finished expressions, whatever the tokens. -/
theorem nested_finishes (levels : Nat) : (Grammar.nested levels).Finishes stream := by
  have htooDeep {least : Precedence} : Yields (ReadsFrom stream) failTooDeep
      (Finished stream least) fun _ _ => True :=
    .bind (.lift .top) fun _ => .bind (.lift .top) fun _ => .throw fun _ _ => trivial
  induction levels with
  | zero => exact ⟨nested_orderly 0, fun _ => exprOf_finishes failTooDeep_orderly htooDeep⟩
  | succ levels ih =>
      refine ⟨nested_orderly (levels + 1), fun least => ?_⟩
      have hinside : Yields (ReadsFrom stream) (liftM (exprInside (Grammar.nested levels) least))
          (Finished stream least) fun _ _ => True := .lift (exprInside_finishes ih)
      apply exprOf_finishes (descend_orderly (.run_lift (exprInside_orderly ih.orderly least)))
      refine .bind (.lift get_meets) fun state => ?_
      split
      · exact htooDeep.strengthen fun _ hstate => hstate.1
      · exact .between hinside (fun _ hstate => hstate.1)
          (fun _ _ hfinished => hfinished.stay rfl) fun _ _ _ => trivial

end Grammar

/-- Whatever the tokens, wherever an expression stands in their tree: if nothing in it is
bad, its operators bind as their levels say; the operands of a comparison on its left are no
comparison, bad nodes or not; and the token by which an operator or a suffix goes on with an
expression stands right behind what was read before it, which is the last token of that
expression if nothing in it is bad, and on no later line. -/
theorem parse_operators_bind (tokens : List Token) (expr : Expr)
    (hexpr : .expr expr ∈ (parse tokens).file.visits) :
    (expr.Clean → expr.Binds) ∧
    (∀ left op right, expr = .binary left op right → op.kind.isComparison →
      left.isComparison = false) ∧
    ∀ left token, expr.continued? = some (left, token) →
      ∃ previous, OnLineOf (Cursor.ofTokens tokens).tokens previous token ∧
        (left.Clean → previous = left.last) := by
  have hnested (levels : Nat) : (Grammar.nested levels).Finishes (Cursor.ofTokens tokens).tokens :=
    Grammar.nested_finishes levels
  have hfile := Grammar.file_makesFrom (fun levels => (hnested levels).expr_makesFrom)
    { cursor := .ofTokens tokens } rfl
  obtain ⟨hbinds, hcompares, hcontinues⟩ := hfile.2 expr hexpr
  exact ⟨hbinds, hcompares, hcontinues⟩

/-- A constant whose value breaks off behind an operator. -/
def unendedTokens : List Token :=
  [⟨.packageKw, "package", 1, 1⟩, ⟨.ident, "p", 1, 9⟩, ⟨.constKw, "const", 2, 1⟩,
    ⟨.ident, "x", 2, 7⟩, ⟨.assign, "=", 2, 9⟩, ⟨.ident, "a", 2, 11⟩, ⟨.minus, "-", 2, 13⟩,
    ⟨.ident, "b", 2, 15⟩, ⟨.dot, ".", 2, 16⟩, ⟨.ident, "c", 2, 17⟩, ⟨.lt, "<", 2, 19⟩]

/-- The difference `a - b.c`. -/
def differenceExpr : Expr :=
  .binary (.ident ⟨.ident, "a", 2, 11⟩) ⟨.minus, "-", 2, 13⟩
    (.selector (.ident ⟨.ident, "b", 2, 15⟩) ⟨.dot, ".", 2, 16⟩ ⟨.ident, "c", 2, 17⟩)

/-- In the broken value stands an unbroken difference; its sign goes on with `a`. -/
theorem parse_operators_bind_unendedTokens :
    (parse unendedTokens).diagnostics ≠ [] ∧
      Visit.expr differenceExpr ∈ (parse unendedTokens).file.visits ∧ differenceExpr.Clean ∧
      differenceExpr.Binds ∧ ∃ previous, previous = ⟨.ident, "a", 2, 11⟩ ∧
        OnLineOf (Cursor.ofTokens unendedTokens).tokens previous ⟨.minus, "-", 2, 13⟩ := by
  have hvisit : (parse unendedTokens).file.visits[2]? = some (.expr differenceExpr) := rfl
  have hmem := List.mem_of_getElem? hvisit
  have hclean : differenceExpr.Clean := by
    intro node hnode
    simp [differenceExpr] at hnode
  obtain ⟨hbinds, -, hcontinues⟩ := parse_operators_bind unendedTokens differenceExpr hmem
  obtain ⟨previous, hline, hlast⟩ := hcontinues _ _ rfl
  refine ⟨by decide +kernel, hmem, hclean, hbinds hclean, previous, hlast ?_, hline⟩
  intro node hnode
  simp at hnode

end OriSyntax
