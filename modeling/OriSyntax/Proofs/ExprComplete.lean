import OriSyntax.Proofs.Outcomes
import OriSyntax.Proofs.Progress
import OriSyntax.Proofs.Slots
import OriSyntax.Proofs.WellFormed

/-!
Canonical expressions are read back from their written form.  The loop that folds
operators and suffixes onto an operand walks along the left side of the tree: each pass
adds the next node around what was read, and what stands on the right of an operator is
read one level deeper, up to an operator that binds no tighter.
-/

namespace OriSyntax

namespace Precedence

variable {first second third : Precedence}

theorem le_refl (level : Precedence) : level ≤ level := Nat.le_refl _

theorem le_trans (hfirst : first ≤ second) (hsecond : second ≤ third) : first ≤ third :=
  Nat.le_trans hfirst hsecond

theorem lt_of_lt_of_le (hfirst : first < second) (hsecond : second ≤ third) :
    first < third :=
  Nat.lt_of_lt_of_le hfirst hsecond

theorem lt_of_le_of_lt (hfirst : first ≤ second) (hsecond : second < third) :
    first < third :=
  Nat.lt_of_le_of_lt hfirst hsecond

theorem not_lt (hle : first ≤ second) : ¬ second < first := Nat.not_lt.2 hle

theorem le_suffix (level : Precedence) : level ≤ .suffix := by
  cases level <;> decide

theorem le_tighter (level : Precedence) : level ≤ level.tighter := by
  cases level <;> decide

end Precedence

namespace Kind

variable {kind : Kind}

theorem precedence_ne_lowest_of_isBinaryOp (hkind : kind.isBinaryOp) :
    kind.precedence ≠ .lowest := by
  simp only [isBinaryOp, Bool.and_eq_true, decide_eq_true_eq] at hkind
  exact hkind.1

theorem not_isSuffix_of_isBinaryOp (hkind : kind.isBinaryOp) : kind.isSuffix = false := by
  simp only [isBinaryOp, Bool.and_eq_true, Bool.not_eq_true'] at hkind
  exact hkind.2

theorem precedence_lt_suffix_of_isBinaryOp (hkind : kind.isBinaryOp) :
    kind.precedence < .suffix := by
  revert hkind
  cases kind <;> decide

theorem precedence_lt_tighter_of_isBinaryOp (hkind : kind.isBinaryOp) :
    kind.precedence < kind.precedence.tighter := by
  apply Precedence.lt_tighter
  intro hsuffix
  have hlt := precedence_lt_suffix_of_isBinaryOp hkind
  rw [hsuffix] at hlt
  exact absurd hlt (by decide)

theorem precedence_of_isSuffix (hkind : kind.isSuffix) : kind.precedence = .suffix := by
  revert hkind
  cases kind <;> decide

end Kind

/-- An expression whose operators bind at least as tightly as `least` ends here: the next
token continues no expression, binds more loosely, or opens a line. -/
def Cursor.Ends (least : Precedence) (cursor : Cursor) : Prop :=
  cursor.kind.precedence = .lowest ∨ cursor.kind.precedence < least ∨ cursor.opensLine

theorem Cursor.Ends.mono {least level : Precedence} {cursor : Cursor}
    (hends : cursor.Ends least) (hlevel : least ≤ level) : cursor.Ends level := by
  rcases hends with hlowest | hlooser | hline
  · exact .inl hlowest
  · exact .inr (.inl (Precedence.lt_of_lt_of_le hlooser hlevel))
  · exact .inr (.inr hline)

/-- Expressions without an operator or a suffix behind them. -/
def Expr.isOperand : Expr → Bool
  | ident _ | literal .. | paren .. | unary .. => true
  | binary .. | selector .. | index .. | call .. | bad _ => false

/-- The operand that is read last, on the right of the expression, ends here. -/
def Expr.EndsAt (cursor : Cursor) : Expr → Prop
  | binary _ op _ => cursor.Ends op.kind.precedence.tighter
  | unary .. => cursor.Ends .suffix
  | _ => True

namespace Expr

variable {cursor : Cursor} {least : Precedence} {expr : Expr}

theorem endsAt_of_ends (hcanonical : expr.Canonical least) (hends : cursor.Ends least) :
    expr.EndsAt cursor := by
  cases expr with
  | binary left op right =>
      simp only [Canonical] at hcanonical
      have hop := Precedence.le_trans hcanonical.2.1 (Precedence.le_tighter _)
      exact hends.mono hop
  | unary op operand => exact hends.mono (Precedence.le_suffix least)
  | _ => trivial

/-- Before an operator that binds no tighter than those of the expression it ends. -/
theorem endsAt_of_isBinaryOp (hcanonical : expr.Canonical cursor.kind.precedence)
    (hop : cursor.kind.isBinaryOp) : expr.EndsAt cursor := by
  cases expr with
  | binary left op right =>
      simp only [Canonical] at hcanonical
      have hinner := Kind.precedence_lt_tighter_of_isBinaryOp hcanonical.1
      exact .inr (.inl (Precedence.lt_of_le_of_lt hcanonical.2.1 hinner))
  | unary op operand => exact .inr (.inl (Kind.precedence_lt_suffix_of_isBinaryOp hop))
  | _ => trivial

theorem endsAt_of_isHead (hhead : expr.isHead) : expr.EndsAt cursor := by
  cases expr with
  | binary left op right | unary op operand => simp [isHead] at hhead
  | _ => trivial

theorem head?_slots {least : Precedence} (expr : Expr) (hcanonical : expr.Canonical least) :
    expr.slots.head? = some (.token expr.first) := by
  match expr with
  | .ident _ | .literal .. | .paren .. | .unary .. => simp [slots, Expr.first]
  | .binary inner _ _ =>
      simp only [Canonical] at hcanonical
      simp [slots, Expr.first, inner.head?_slots hcanonical.2.2.1]
  | .selector inner _ _ | .index inner _ _ _ | .call inner ⟨_, _, _⟩ =>
      simp only [Canonical] at hcanonical
      simp [slots, Expr.first, inner.head?_slots hcanonical.2.1]
  | .bad _ => simp [Canonical] at hcanonical

/-- The written form of an expression begins with an operand. -/
theorem beginsExpr_of_faces {start stop : Cursor} (hcanonical : expr.Canonical least)
    (hfaces : start.Faces expr.slots stop) : start.kind.beginsExpr := by
  rw [hfaces.kind_head (expr.head?_slots hcanonical)]
  exact expr.beginsExpr_first hcanonical

theorem kind_of_faces {start stop : Cursor} (hcanonical : expr.Canonical least)
    {rest : List Slot} (hfaces : start.Faces (expr.slots ++ rest) stop) :
    start.kind.beginsExpr := by
  obtain ⟨middle, hexpr, -⟩ := Cursor.faces_append.1 hfaces
  exact beginsExpr_of_faces hcanonical hexpr

end Expr

namespace Grammar

variable {α β : Type} {nested : Nested} {start stop : State} {slot : Slot}
  {rest : List Slot} {cursor last : Cursor}

/-- The production reads the next token and gives it. -/
def ReadsNext (production : Production Token) (start : State) : Prop :=
  Succeeds production start start.cursor.current (start.moveTo start.cursor.next)

theorem readsNext_advance : ReadsNext (liftM advance) start := rfl

theorem readsNext_expectAs (code : ErrorCode) {kind : Kind} (what : String)
    (hkind : cursor.kind = kind) :
    ReadsNext (expectAs code kind what) (start.moveTo cursor) := by
  apply Succeeds.look hkind
  apply Succeeds.of_pos rfl
  rfl

theorem ReadsNext.covering {production : Production Token} (first : Token)
    (hreads : ReadsNext production start) : ReadsNext (covering first production) start :=
  Succeeds.onFailure hreads

/-- Reading a slot comes first, then what faces the slots behind it. -/
theorem Succeeds.read {production : Production Token} {next : Token → Production β}
    {result : β} (hreads : ReadsNext production (start.moveTo cursor))
    (hfaces : cursor.Faces (slot :: rest) last)
    (hnext : ∀ token after, slot.Takes token → after.Faces rest last →
      Succeeds (next token) (start.moveTo after) result stop) :
    Succeeds (production >>= next) (start.moveTo cursor) result stop :=
  hreads.bind (hnext _ _ hfaces.2.1 hfaces.next)

/-- Reading the last slot of a construct. -/
theorem Succeeds.readLast {production : Production Token} {made : Token → β} {stored : Token}
    (hreads : ReadsNext production (start.moveTo cursor))
    (hfaces : cursor.Faces [.token stored] last) :
    Succeeds (do return made (← production)) (start.moveTo cursor) (made stored)
      (start.moveTo last) := by
  apply Succeeds.read hreads hfaces
  rintro _ after rfl hafter
  rw [Cursor.faces_nil.1 hafter]
  exact .pure _ _

theorem accept?_gives_some {kind : Kind} (hkind : cursor.kind = kind) :
    Gives (accept? kind) (start.moveTo cursor) (some cursor.current)
      (start.moveTo cursor.next) := by
  apply Gives.look hkind
  apply Gives.of_pos rfl
  rfl

theorem accept?_gives_none {kind : Kind} (hkind : cursor.kind ≠ kind) :
    Gives (accept? kind) (start.moveTo cursor) none (start.moveTo cursor) := by
  apply Gives.look rfl
  apply Gives.of_neg hkind
  exact .pure _ _

/-- Reading a slot that might have been missing. -/
theorem Succeeds.acceptSome {kind : Kind} {next : Option Token → Production β} {result : β}
    (hfaces : cursor.Faces (slot :: rest) last) (hkind : slot.kind = kind)
    (hnext : ∀ token after, slot.Takes token → after.Faces rest last →
      Succeeds (next (some token)) (start.moveTo after) result stop) :
    Succeeds (liftM (accept? kind) >>= next) (start.moveTo cursor) result stop := by
  apply Succeeds.bind (.lift (accept?_gives_some (hfaces.kind_eq.trans hkind)))
  exact hnext _ _ hfaces.2.1 hfaces.next

/-- Going on where a slot is missing. -/
theorem Succeeds.acceptNone {kind : Kind} {next : Option Token → Production β} {result : β}
    (hkind : cursor.kind ≠ kind)
    (hnext : Succeeds (next none) (start.moveTo cursor) result stop) :
    Succeeds (liftM (accept? kind) >>= next) (start.moveTo cursor) result stop :=
  Succeeds.bind (.lift (accept?_gives_none hkind)) hnext

/-- The production reads the item from its slots if a comma or the end of the list
follows. -/
def ReadsEntry (entry : Production α) (slots : α → List Slot) (start : State) (item : α) :
    Prop :=
  (∃ slot ∈ (slots item).head?, slot.kind ≠ .comma ∧ slot.kind ≠ .rparen) ∧
    ∀ cursor last : Cursor, cursor.Faces (slots item) last →
      last.kind = .comma ∨ last.kind = .rparen →
      Succeeds entry (start.moveTo cursor) item (start.moveTo last)

theorem ReadsEntry.begins {entry : Production α} {slots : α → List Slot} {item : α}
    (hentry : ReadsEntry entry slots start item)
    (hfaces : cursor.Faces (slots item ++ rest) last) :
    cursor.kind ≠ .comma ∧ cursor.kind ≠ .rparen ∧ cursor.kind ≠ .eof := by
  obtain ⟨slot, hslot, hkinds⟩ := hentry.1
  obtain ⟨others, hslots⟩ := List.head?_eq_some_iff.1 hslot
  rw [hslots, List.cons_append] at hfaces
  rw [← hfaces.kind_eq] at hkinds
  exact ⟨hkinds.1, hkinds.2, hfaces.kind_ne_eof⟩

/-- The last pass that reads an entry. -/
theorem commaPass_last {entry : Production α} {slots : α → List Slot} {item : α}
    (noun : String) (hentry : ReadsEntry entry slots start item)
    (hfaces : cursor.Faces (slots item) last) (hlast : last.kind = .rparen) (found : List α) :
    Succeeds (commaPass noun entry found) (start.moveTo cursor) (.yield (item :: found))
      (start.moveTo last) := by
  have hbegins := hentry.begins (List.append_nil (slots item) ▸ hfaces)
  apply Succeeds.look rfl
  apply Succeeds.of_neg hbegins.2.1
  apply Succeeds.of_neg hbegins.2.2
  apply Succeeds.bind (hentry.2 cursor last hfaces (.inr hlast))
  apply Succeeds.look hlast
  exact .pure _ _

/-- Before another entry a pass reads the comma as well. -/
theorem commaPass_more {entry : Production α} {slots : α → List Slot} {item : α}
    (noun : String) (hentry : ReadsEntry entry slots start item)
    (hfaces : cursor.Faces (slots item ++ .separator .comma :: rest) last) (found : List α)
    (hrest : ∀ cursor : Cursor, cursor.Faces rest last → cursor.kind ≠ .rparen) :
    ∃ after : Cursor, after.Faces rest last ∧
      Succeeds (commaPass noun entry found) (start.moveTo cursor) (.yield (item :: found))
        (start.moveTo after) := by
  have hbegins := hentry.begins hfaces
  obtain ⟨middle, hitem, hcomma⟩ := Cursor.faces_append.1 hfaces
  refine ⟨middle.next, hcomma.next, ?_⟩
  apply Succeeds.look rfl
  apply Succeeds.of_neg hbegins.2.1
  apply Succeeds.of_neg hbegins.2.2
  apply Succeeds.bind (hentry.2 cursor middle hitem (.inl hcomma.kind_eq))
  apply Succeeds.look hcomma.kind_eq
  apply Succeeds.bind readsNext_advance
  apply Succeeds.look rfl
  apply Succeeds.of_neg (hrest _ hcomma.next)
  exact .pure _ _

theorem commaSlots_rounds {entry : Production α} {slots : α → List Slot} (noun : String)
    {items : List α} (hentries : ∀ item ∈ items, ReadsEntry entry slots start item)
    (hfaces : cursor.Faces (commaSlots slots items) last)
    (hlast : last.kind = .rparen) (found : List α) :
    Relation.ReflTransGen (RoundOrFails (commaPass noun entry)) (found, start.moveTo cursor)
      (items.reverse ++ found, start.moveTo last) := by
  induction items generalizing cursor found with
  | nil =>
      obtain rfl := Cursor.faces_nil.1 hfaces
      exact .refl
  | cons item others ih =>
      obtain ⟨hitem, hothers⟩ := List.forall_mem_cons.1 hentries
      cases others with
      | nil => exact .single (commaPass_last noun hitem hfaces hlast found)
      | cons other others =>
          rw [commaSlots] at hfaces
          have hnext : ∀ cursor : Cursor, cursor.Faces (commaSlots slots (other :: others)) last →
              cursor.kind ≠ .rparen := by
            intro cursor hcursor
            obtain ⟨tail, htail⟩ := exists_commaSlots_cons slots other others
            rw [htail] at hcursor
            exact ((hothers other List.mem_cons_self).begins hcursor).2.1
          obtain ⟨after, hafter, hpass⟩ := commaPass_more noun hitem hfaces found hnext
          have hround : RoundOrFails (commaPass noun entry) (found, start.moveTo cursor)
              (item :: found, start.moveTo after) := hpass
          simpa using Relation.ReflTransGen.head hround (ih hothers hafter (item :: found))

theorem restOfList_succeeds {entry : Production α} {slots : α → List Slot} {items : List α}
    {closing : Token} (noun : String) (opening : Token) (horderly : Orderly entry.run)
    (hentries : ∀ item ∈ items, ReadsEntry entry slots start item)
    (hclosing : closing.kind = .rparen)
    (hfaces : cursor.Faces (commaSlots slots items ++ [.token closing]) last) :
    Succeeds (restOfList noun opening entry) (start.moveTo cursor)
      ⟨opening, items, closing⟩ (start.moveTo last) := by
  obtain ⟨middle, hitems, hend⟩ := Cursor.faces_append.1 hfaces
  have hmiddle : middle.kind = .rparen := hend.kind_eq.trans hclosing
  have hrounds := commaSlots_rounds noun hentries hitems hmiddle []
  have hdone : Succeeds (commaPass noun entry (items.reverse ++ [])) (start.moveTo middle)
      (.done (items.reverse ++ [])) (start.moveTo middle) := by
    apply Succeeds.look hmiddle
    exact .pure _ _
  have hfirst : cursor.kind ≠ .comma := by
    cases items with
    | nil =>
        rw [← Cursor.faces_nil.1 hitems, hmiddle]
        decide
    | cons item others =>
        obtain ⟨tail, htail⟩ := exists_commaSlots_cons slots item others
        rw [htail] at hitems
        exact ((hentries item List.mem_cons_self).begins hitems).1
  have hlist : Succeeds (commaList noun entry) (start.moveTo cursor) items
      (start.moveTo middle) := by
    apply Succeeds.look rfl
    apply Succeeds.of_neg hfirst
    have hgathered := Succeeds.repeatProduction (commaPass_gains noun horderly) hrounds hdone
    have hreversed : Succeeds (do return (← repeatProduction (commaPass noun entry) []).reverse)
        (start.moveTo cursor) (items.reverse ++ []).reverse (start.moveTo middle) :=
      hgathered.map
    simpa using hreversed
  apply Succeeds.bind (Succeeds.onFailure hlist)
  exact Succeeds.readLast readsNext_advance hend

/-- Where `room` levels are left, canonical expressions are read from their slots. -/
def Nested.ReadsExprs (nested : Nested) (room : Nat) : Prop :=
  ∀ {least : Precedence} {expr : Expr} {start : State} {cursor last : Cursor},
    start.nesting + room ≤ maxNesting → expr.Canonical least → expr.nesting ≤ room →
    cursor.Faces expr.slots last → last.Ends least →
    Gives (nested.expr least) (start.moveTo cursor) expr (start.moveTo last)

section Exprs

variable {room : Nat} {expr inner left right : Expr} {least level : Precedence}

/-- Reading an expression comes first, then what faces the slots behind it. -/
theorem Succeeds.readExpr {next : Expr → Production β} {result : β}
    (hnested : nested.ReadsExprs room) (hroom : start.nesting + room ≤ maxNesting)
    (hcanonical : expr.Canonical least) (hnesting : expr.nesting ≤ room)
    (hfaces : cursor.Faces (expr.slots ++ slot :: rest) last)
    (hslot : slot.kind.precedence = .lowest)
    (hnext : ∀ after, after.Faces (slot :: rest) last →
      Succeeds (next expr) (start.moveTo after) result stop) :
    Succeeds (liftM (nested.expr least) >>= next) (start.moveTo cursor) result stop := by
  obtain ⟨middle, hexpr, hrest⟩ := Cursor.faces_append.1 hfaces
  have hends : middle.Ends least := .inl (by rw [hrest.kind_eq, hslot])
  exact Succeeds.bind (.lift (hnested hroom hcanonical hnesting hexpr hends)) (hnext _ hrest)

theorem parenthesized_succeeds (hnested : nested.ReadsExprs room)
    (hroom : start.nesting + room ≤ maxNesting) {opening closing : Token}
    (hinner : inner.Canonical .lowest) (hnesting : inner.nesting ≤ room)
    (hclosing : closing.kind = .rparen)
    (hfaces : cursor.Faces (.token opening :: inner.slots ++ [.token closing]) last) :
    Succeeds (parenthesized nested) (start.moveTo cursor) (.paren opening inner closing)
      (start.moveTo last) := by
  apply Succeeds.read readsNext_advance hfaces
  rintro _ cursor rfl hfaces
  have hbegins : cursor.kind ≠ .rparen := by
    intro hkind
    have hexpr := Expr.kind_of_faces hinner hfaces
    rw [hkind] at hexpr
    exact nomatch hexpr
  apply Succeeds.look rfl
  apply Succeeds.of_neg hbegins
  apply Succeeds.readExpr hnested hroom hinner hnesting hfaces (by rw [Slot.kind, hclosing]; rfl)
  intro middle hend
  exact Succeeds.readLast ((readsNext_expectAs _ _ (hend.kind_eq.trans hclosing)).covering _) hend

/-- An expression without operators behind it is read as an operand. -/
theorem operand_succeeds (hnested : nested.ReadsExprs room)
    (hroom : start.nesting + room ≤ maxNesting) (hcanonical : expr.Canonical level)
    (hplain : expr.isOperand) (hnesting : expr.inside ≤ room)
    (hfaces : cursor.Faces expr.slots last) (hends : expr.EndsAt last) :
    Succeeds (operand nested) (start.moveTo cursor) expr (start.moveTo last) := by
  cases expr with
  | ident name =>
      simp only [Expr.Canonical] at hcanonical
      simp only [Expr.slots] at hfaces
      apply Succeeds.look (hfaces.kind_eq.trans hcanonical)
      exact Succeeds.readLast readsNext_advance hfaces
  | literal sort value =>
      simp only [Expr.Canonical] at hcanonical
      simp only [Expr.slots] at hfaces
      apply Succeeds.look (hfaces.kind_eq.trans hcanonical)
      cases sort <;> exact Succeeds.readLast readsNext_advance hfaces
  | paren opening inner closing =>
      simp only [Expr.Canonical] at hcanonical
      simp only [Expr.slots] at hfaces
      apply Succeeds.look (hfaces.kind_eq.trans hcanonical.1)
      exact parenthesized_succeeds hnested hroom hcanonical.2.1 hnesting hcanonical.2.2 hfaces
  | unary op inner =>
      simp only [Expr.Canonical] at hcanonical
      simp only [Expr.slots] at hfaces
      have hread : ∀ after : Cursor, after.Faces inner.slots last →
          Succeeds (do return Expr.unary op (← nested.expr .suffix)) (start.moveTo after)
            (.unary op inner) (start.moveTo last) := by
        intro after hafter
        exact Succeeds.map (.lift (hnested hroom hcanonical.2 hnesting hafter hends))
      have hop : op.kind = .minus ∨ op.kind = .not := by
        simpa [Kind.isUnaryOp] using hcanonical.1
      rcases hop with hop | hop
      all_goals
        apply Succeeds.look (hfaces.kind_eq.trans hop)
        apply Succeeds.read readsNext_advance hfaces
        rintro _ after rfl hafter
        exact hread after hafter
  | binary _ _ _ | selector _ _ _ | index _ _ _ _ | call _ _ | bad _ =>
      simp [Expr.isOperand] at hplain

theorem selector_succeeds {dot name : Token} (base : Expr) (hdot : dot.kind = .dot)
    (hname : name.kind = .ident)
    (hfaces : cursor.Faces [.joined dot, .token name] last) :
    Succeeds (suffix nested base) (start.moveTo cursor) (.selector base dot name)
      (start.moveTo last) := by
  apply Succeeds.read readsNext_advance hfaces
  rintro _ after rfl hafter
  apply Succeeds.of_pos hdot
  exact Succeeds.readLast (readsNext_expectAs _ _ (hafter.kind_eq.trans hname)) hafter

theorem index_succeeds (hnested : nested.ReadsExprs room)
    (hroom : start.nesting + room ≤ maxNesting) {opening closing : Token} (base : Expr)
    (hopening : opening.kind = .lbracket) (hinner : inner.Canonical .lowest)
    (hnesting : inner.nesting ≤ room) (hclosing : closing.kind = .rbracket)
    (hfaces : cursor.Faces (.joined opening :: inner.slots ++ [.token closing]) last) :
    Succeeds (suffix nested base) (start.moveTo cursor) (.index base opening inner closing)
      (start.moveTo last) := by
  apply Succeeds.read readsNext_advance hfaces
  rintro _ after rfl hafter
  apply Succeeds.of_neg (by rw [hopening]; decide)
  apply Succeeds.of_pos hopening
  apply Succeeds.readExpr hnested hroom hinner hnesting hafter (by rw [Slot.kind, hclosing]; rfl)
  intro middle hend
  exact Succeeds.readLast (readsNext_expectAs _ _ (hend.kind_eq.trans hclosing)) hend

/-- An expression in a list is read up to a comma or the end of the list. -/
theorem readsEntry_expr (hnested : nested.ReadsExprs room)
    (hroom : start.nesting + room ≤ maxNesting) (hcanonical : expr.Canonical .lowest)
    (hnesting : expr.nesting ≤ room) :
    ReadsEntry (liftM (nested.expr .lowest)) Expr.slots start expr := by
  constructor
  · have hbegins := expr.beginsExpr_first hcanonical
    refine ⟨_, expr.head?_slots hcanonical, ?_, ?_⟩
    all_goals
      rw [Slot.kind]
      intro hkind
      rw [hkind] at hbegins
      exact nomatch hbegins
  · intro cursor last hfaces hlast
    have hends : last.Ends .lowest := by
      rcases hlast with hlast | hlast <;> exact .inl (by rw [hlast]; rfl)
    exact .lift (hnested hroom hcanonical hnesting hfaces hends)

theorem call_succeeds (horderly : nested.Orderly) (hnested : nested.ReadsExprs room)
    (hroom : start.nesting + room ≤ maxNesting) {opening closing : Token} {args : List Expr}
    (callee : Expr) (hopening : opening.kind = .lparen) (hargs : Expr.CanonicalAll args)
    (hnesting : Expr.nestingOfAll args ≤ room) (hclosing : closing.kind = .rparen)
    (hfaces : cursor.Faces (.joined opening :: commaSlots Expr.slots args ++ [.token closing])
      last) :
    Succeeds (suffix nested callee) (start.moveTo cursor)
      (.call callee ⟨opening, args, closing⟩) (start.moveTo last) := by
  apply Succeeds.read readsNext_advance hfaces
  rintro _ after rfl hafter
  apply Succeeds.of_neg (by rw [hopening]; decide)
  apply Succeeds.of_neg (by rw [hopening]; decide)
  rw [Expr.nestingOfAll_eq, greatest_le_iff] at hnesting
  have hentries : ∀ arg ∈ args, ReadsEntry (liftM (nested.expr .lowest)) Expr.slots start arg := by
    intro arg harg
    exact readsEntry_expr hnested hroom (Expr.canonicalAll_iff.1 hargs arg harg)
      (hnesting arg harg)
  exact Succeeds.map
    (restOfList_succeeds "argument" _ (.run_lift (horderly.expr _)) hentries hclosing hafter)

/-- A pass that reads a suffix. -/
theorem exprPass_suffix (least : Precedence) {base : Expr} (hkind : cursor.kind.isSuffix)
    (hline : cursor.opensLine = false)
    (hsuffix : Succeeds (suffix nested base) (start.moveTo cursor) expr (start.moveTo last)) :
    Round (exprPass nested least) (base, start.moveTo cursor) (expr, start.moveTo last) := by
  have hlevel := Kind.precedence_of_isSuffix hkind
  apply Gives.look rfl
  apply Gives.look rfl
  apply Gives.of_neg
  · have hleast := Precedence.not_lt (Precedence.le_suffix least)
    simp [hlevel, hline, hleast]
  apply Gives.of_pos hkind
  exact Gives.bind hsuffix (.pure _ _)

/-- A pass that reads an operator and what stands on its right. -/
theorem exprPass_binary (hnested : nested.ReadsExprs room)
    (hroom : start.nesting + room ≤ maxNesting) {op : Token} (hop : op.kind.isBinaryOp)
    (hleast : least ≤ op.kind.precedence)
    (hright : right.Canonical op.kind.precedence.tighter) (hnesting : right.nesting ≤ room)
    (hcomparison : ¬ (op.kind.isComparison ∧ left.isComparison))
    (hfaces : cursor.Faces (.joined op :: right.slots) last)
    (hends : last.Ends op.kind.precedence.tighter) :
    Round (exprPass nested least) (left, start.moveTo cursor)
      (.binary left op right, start.moveTo last) := by
  obtain rfl : cursor.current = op := hfaces.current_joined
  apply Gives.look rfl
  apply Gives.look rfl
  apply Gives.of_neg
  · have hlowest := Kind.precedence_ne_lowest_of_isBinaryOp hop
    have hline := hfaces.opensLine_joined
    simp [Cursor.kind, hlowest, Precedence.not_lt hleast, hline]
  apply Gives.of_neg
  · simp [Cursor.kind, Kind.not_isSuffix_of_isBinaryOp hop]
  have hoperand := hnested hroom hright hnesting hfaces.next hends
  have hbinary : Gives (binary nested left cursor.kind.precedence) (start.moveTo cursor)
      (.binary left cursor.current right) (start.moveTo last) := by
    apply Gives.bind rfl
    apply Gives.bind hoperand
    apply Gives.of_neg
    · simpa using hcomparison
    · exact .pure _ _
  exact Gives.bind hbinary (.pure _ _)

/-- An operand is read, and passes fold the rest of the expression onto it. -/
def Reaches (nested : Nested) (least : Precedence) (start : State) (cursor : Cursor)
    (expr : Expr) (last : Cursor) : Prop :=
  ∃ left middle,
    Succeeds (operand nested) (start.moveTo cursor) left (start.moveTo middle) ∧
      Relation.ReflTransGen (Round (exprPass nested least)) (left, start.moveTo middle)
        (expr, start.moveTo last)

theorem Reaches.of_operand
    (hoperand : Succeeds (operand nested) (start.moveTo cursor) expr (start.moveTo last)) :
    Reaches nested least start cursor expr last :=
  ⟨expr, last, hoperand, .refl⟩

theorem Reaches.tail {middle : Cursor} (hreaches : Reaches nested least start cursor inner middle)
    (hround : Round (exprPass nested least) (inner, start.moveTo middle)
      (expr, start.moveTo last)) : Reaches nested least start cursor expr last := by
  obtain ⟨left, place, hoperand, hrounds⟩ := hreaches
  exact ⟨left, place, hoperand, hrounds.tail hround⟩

/-- Passes lead along the left side of an expression to the whole of it. -/
theorem reaches_expr (horderly : nested.Orderly) (hnested : nested.ReadsExprs room)
    (hroom : start.nesting + room ≤ maxNesting) (expr : Expr) {level : Precedence}
    {last : Cursor} (hcanonical : expr.Canonical level) (hleast : least ≤ level)
    (hinside : expr.inside ≤ room) (hfaces : cursor.Faces expr.slots last)
    (hends : expr.EndsAt last) : Reaches nested least start cursor expr last := by
  match expr with
  | .ident _ | .literal .. | .paren .. | .unary .. =>
      exact .of_operand (operand_succeeds hnested hroom hcanonical rfl hinside hfaces hends)
  | .binary left op right =>
      simp only [Expr.Canonical] at hcanonical
      obtain ⟨hop, hlevel, hleft, hright, hcomparison⟩ := hcanonical
      simp only [Expr.inside, Nat.max_le] at hinside
      simp only [Expr.slots] at hfaces
      obtain ⟨middle, hbefore, hbehind⟩ := Cursor.faces_append.1 hfaces
      have hkind : middle.kind = op.kind := hbehind.kind_eq
      have hleast := Precedence.le_trans hleast hlevel
      -- The operator ends its left operand, in which nothing binds more loosely than it.
      have hleftEnds := Expr.endsAt_of_isBinaryOp (hkind ▸ hleft) (hkind ▸ hop)
      have hreaches := reaches_expr horderly hnested hroom left hleft hleast hinside.1
        hbefore hleftEnds
      exact hreaches.tail (exprPass_binary hnested hroom hop hleast hright hinside.2
        hcomparison hbehind hends)
  | .selector base dot name =>
      simp only [Expr.Canonical] at hcanonical
      obtain ⟨hhead, hbase, hdot, hname⟩ := hcanonical
      simp only [Expr.slots] at hfaces
      obtain ⟨middle, hbefore, hbehind⟩ := Cursor.faces_append.1 hfaces
      -- What a suffix may follow ends before any token, so the base asks nothing of it.
      have hreaches := reaches_expr horderly hnested hroom base hbase
        (Precedence.le_suffix least) hinside hbefore (Expr.endsAt_of_isHead hhead)
      apply hreaches.tail
      apply exprPass_suffix least (by rw [hbehind.kind_eq, Slot.kind, hdot]; rfl)
        hbehind.opensLine_joined
      exact selector_succeeds base hdot hname hbehind
  | .index base opening inner closing =>
      simp only [Expr.Canonical] at hcanonical
      obtain ⟨hhead, hbase, hopening, hinner, hclosing⟩ := hcanonical
      simp only [Expr.inside, Nat.max_le] at hinside
      simp only [Expr.slots, List.append_assoc, List.cons_append] at hfaces
      obtain ⟨middle, hbefore, hbehind⟩ := Cursor.faces_append.1 hfaces
      have hreaches := reaches_expr horderly hnested hroom base hbase
        (Precedence.le_suffix least) hinside.1 hbefore (Expr.endsAt_of_isHead hhead)
      apply hreaches.tail
      apply exprPass_suffix least (by rw [hbehind.kind_eq, Slot.kind, hopening]; rfl)
        hbehind.opensLine_joined
      exact index_succeeds hnested hroom base hopening hinner hinside.2 hclosing hbehind
  | .call callee ⟨opening, args, closing⟩ =>
      simp only [Expr.Canonical] at hcanonical
      obtain ⟨hhead, hcallee, hopening, hargs, hclosing⟩ := hcanonical
      simp only [Expr.inside, Nat.max_le] at hinside
      simp only [Expr.slots, Expr.slotsOfAll_eq, List.append_assoc, List.cons_append] at hfaces
      obtain ⟨middle, hbefore, hbehind⟩ := Cursor.faces_append.1 hfaces
      have hreaches := reaches_expr horderly hnested hroom callee hcallee
        (Precedence.le_suffix least) hinside.1 hbefore (Expr.endsAt_of_isHead hhead)
      apply hreaches.tail
      apply exprPass_suffix least (by rw [hbehind.kind_eq, Slot.kind, hopening]; rfl)
        hbehind.opensLine_joined
      exact call_succeeds horderly hnested hroom callee hopening hargs hinside.2 hclosing hbehind
  | .bad _ => simp [Expr.Canonical] at hcanonical

theorem exprPass_ends (hends : cursor.Ends least) (left : Expr) :
    Gives (exprPass nested least left) (start.moveTo cursor) (.done left)
      (start.moveTo cursor) := by
  apply Gives.look rfl
  apply Gives.look rfl
  apply Gives.of_pos
  · simp only [Bool.or_eq_true, decide_eq_true_eq, or_assoc]
    exact hends
  · exact .pure _ _

/-- A canonical expression is read from its slots if it ends behind them. -/
theorem exprInside_gives (horderly : nested.Orderly) (hnested : nested.ReadsExprs room)
    (hroom : start.nesting + room ≤ maxNesting) (hcanonical : expr.Canonical least)
    (hinside : expr.inside ≤ room) (hfaces : cursor.Faces expr.slots last)
    (hends : last.Ends least) :
    Gives (exprInside nested least) (start.moveTo cursor) expr (start.moveTo last) := by
  obtain ⟨left, middle, hoperand, hrounds⟩ := reaches_expr horderly hnested hroom expr
    hcanonical (Precedence.le_refl least) hinside hfaces (expr.endsAt_of_ends hcanonical hends)
  apply Gives.bind hoperand
  exact Gives.repeatStep (exprPass_gains horderly least) hrounds (exprPass_ends hends expr)

end Exprs

/-- Productions with enough levels inside them read what is nested no deeper. -/
theorem nested_readsExprs {levels room : Nat} (hlevels : room ≤ levels) :
    (Grammar.nested levels).ReadsExprs room := by
  induction levels generalizing room with
  | zero =>
      intro least expr start cursor last hroom hcanonical hnesting
      exact absurd (Nat.le_trans hnesting hlevels) (Nat.not_succ_le_zero _)
  | succ levels ih =>
      intro least expr start cursor last hroom hcanonical hnesting hfaces hends
      rw [Expr.nesting] at hnesting
      have hdeeper : start.deeper.nesting + (room - 1) ≤ maxNesting := by
        rw [State.nesting_deeper]
        omega
      have hexpr := exprInside_gives (nested_orderly levels) (ih (by omega)) hdeeper hcanonical
        (Nat.le_sub_one_of_lt hnesting) hfaces hends
      apply Gives.look rfl
      apply Gives.recoverWith
      exact Succeeds.descend (by omega) (.lift hexpr)

/-- Every canonical expression is read back from its tokens: the outcome is the expression
itself, the next token is the one behind it, and nothing is reported. -/
theorem nested_expr_run_of_canonical {levels : Nat} {least : Precedence} {expr : Expr}
    {start : State} {last : Cursor} (hcanonical : expr.Canonical least)
    (hfaces : start.cursor.Faces expr.slots last) (hends : last.Ends least)
    (hlevels : expr.nesting ≤ levels) (hroom : start.nesting + expr.nesting ≤ maxNesting) :
    ((Grammar.nested levels).expr least).run start = (expr, start.moveTo last) :=
  nested_readsExprs hlevels hroom hcanonical (Nat.le_refl _) hfaces hends

/-- A comparison before an operator that binds more loosely. -/
def comparisonTokens : List Token :=
  [⟨.ident, "x", 1, 1⟩, ⟨.minus, "-", 1, 3⟩, ⟨.ident, "y", 1, 5⟩, ⟨.dot, ".", 1, 6⟩,
    ⟨.ident, "z", 1, 7⟩, ⟨.lparen, "(", 1, 8⟩, ⟨.ident, "w", 1, 9⟩, ⟨.comma, ",", 1, 10⟩,
    ⟨.intLit, "1", 1, 12⟩, ⟨.rparen, ")", 1, 13⟩, ⟨.lt, "<", 1, 15⟩, ⟨.minus, "-", 1, 17⟩,
    ⟨.ident, "v", 1, 18⟩, ⟨.eq, "==", 1, 20⟩]

/-- The comparison `x - y.z(w, 1) < -v`. -/
def comparisonExpr : Expr :=
  .binary
    (.binary (.ident ⟨.ident, "x", 1, 1⟩) ⟨.minus, "-", 1, 3⟩
      (.call (.selector (.ident ⟨.ident, "y", 1, 5⟩) ⟨.dot, ".", 1, 6⟩ ⟨.ident, "z", 1, 7⟩)
        ⟨⟨.lparen, "(", 1, 8⟩,
          [.ident ⟨.ident, "w", 1, 9⟩, .literal .int ⟨.intLit, "1", 1, 12⟩],
          ⟨.rparen, ")", 1, 13⟩⟩))
    ⟨.lt, "<", 1, 15⟩ (.unary ⟨.minus, "-", 1, 17⟩ (.ident ⟨.ident, "v", 1, 18⟩))

theorem nested_expr_run_comparisonTokens :
    let start : State := { cursor := .ofTokens comparisonTokens }
    ((Grammar.nested 3).expr .compare).run start =
      (comparisonExpr, start.moveTo (Nat.repeat Cursor.next 13 start.cursor)) := by
  apply nested_expr_run_of_canonical
  · simp only [comparisonExpr, Expr.Canonical, Expr.CanonicalAll]
    decide
  · decide
  · exact .inr (.inl (by decide))
  · decide
  · decide

end Grammar

end OriSyntax
