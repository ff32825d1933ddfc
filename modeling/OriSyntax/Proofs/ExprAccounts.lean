import OriSyntax.Proofs.Accounting
import OriSyntax.Proofs.Progress

/-!
What the productions of types, lists, names, expressions and type declarations account
for.
-/

namespace OriSyntax.Grammar

variable {α : Type} {nested : Nested} {start : State} {before : List Piece}

/-- The pieces of what a loop has gathered, latest first. -/
def gatheredPieces (pieces : α → List Piece) (found : List α) : List Piece :=
  found.reverse.flatMap pieces

@[simp] theorem gatheredPieces_nil (pieces : α → List Piece) :
    gatheredPieces pieces [] = [] := rfl

@[simp] theorem gatheredPieces_cons (pieces : α → List Piece) (item : α) (found : List α) :
    gatheredPieces pieces (item :: found) = gatheredPieces pieces found ++ pieces item := by
  simp [gatheredPieces]

theorem failList_yields {pre : State → Prop} {succeeded : α → State → Prop}
    (message : String) (hpre : ∀ state, pre state → start.SameBody state) :
    Yields pre (failList message) succeeded (Failed start) :=
  .bind (.lift current_meets) fun _ =>
    failHere_yields _ fun state hstate => hpre state hstate.1

theorem commaPass_yields (noun : String) {entry : Production α} {pieces : α → List Piece}
    (hentry : AccountsOrFails anywhere entry pieces) (found : List α) :
    Yields (Settled start (before ++ gatheredPieces pieces found)) (commaPass noun entry found)
      (Turns (fun found => Settled start (before ++ gatheredPieces pieces found))
        fun found state => Settled start (before ++ gatheredPieces pieces found) state ∧
          state.cursor.kind = .rparen)
      (Failed start) := by
  apply Yields.bind (.lift currentKind_meets)
  intro kind
  split
  · next hkind =>
      apply Yields.pure
      intro state hstate
      rcases hstate with ⟨hstate, rfl⟩
      exact ⟨hstate, hkind⟩
  split
  · exact failExpected_yields _ _ fun state hstate => hstate.1.sameBody
  apply Yields.bind (hentry.yields_at fun _ _ => trivial)
  intro value
  rw [List.append_assoc, ← gatheredPieces_cons]
  apply Yields.bind (.lift currentKind_meets)
  intro kind
  split
  · next hkind =>
      refine .bind (advance_accounts_separator.lift.yields_at ?_) fun _ => ?_
      · intro state hstate
        rcases hstate with rfl
        rw [hkind]
        rfl
      rw [List.append_nil]
      apply Yields.bind (.lift currentKind_meets)
      intro kind
      split
      · exact failList_yields _ fun state hstate => hstate.1.sameBody
      · exact .pure fun _ hstate => hstate.1
  split
  · exact .pure fun _ hstate => hstate.1
  · exact failList_yields _ fun state hstate => hstate.1.sameBody

theorem commaList_yields (noun : String) {entry : Production α} {pieces : α → List Piece}
    (horderly : Orderly entry.run) (hentry : AccountsOrFails anywhere entry pieces) :
    Yields (Settled start before) (commaList noun entry)
      (fun items state => Settled start (before ++ items.flatMap pieces) state ∧
        state.cursor.kind = .rparen) (Failed start) := by
  apply Yields.bind (.lift currentKind_meets)
  intro kind
  split
  · exact failList_yields _ fun state hstate => hstate.1.sameBody
  · have hitems : Yields (Settled start (before ++ gatheredPieces pieces []))
        (repeatProduction (commaPass noun entry) []) _ (Failed start) :=
      .repeatProduction (commaPass_gains noun horderly) (commaPass_yields noun hentry) []
    rw [gatheredPieces_nil, List.append_nil] at hitems
    apply Yields.bind (hitems.strengthen fun _ hstate => hstate.1)
    intro found
    exact .pure fun _ hstate => hstate

theorem restOfList_yields (noun : String) (opening : Token) {entry : Production α}
    {pieces : α → List Piece} (horderly : Orderly entry.run)
    (hentry : AccountsOrFails anywhere entry pieces) :
    Yields (Settled start (before ++ [.token opening])) (restOfList noun opening entry)
      (fun list => Settled start (before ++ list.listPieces pieces)) (Failed start) := by
  apply Yields.bind (skipping_yields Skip.list_keepsLevel
    (commaList_yields noun horderly hentry))
  intro items
  refine .bind (advance_accounts.lift.yields_at ?_) fun closing => ?_
  · intro state hkind
    rw [hkind]
    rfl
  · apply Yields.pure
    intro state hstate
    simpa [Enclosed.listPieces] using hstate

theorem isStored_of_isValueType {kind : Kind} (hkind : kind.isValueType) :
    kind.isStored := by
  revert hkind
  cases kind <;> decide

theorem isStored_of_isParamType {kind : Kind} (hkind : kind.isParamType) :
    kind.isStored := by
  revert hkind
  cases kind <;> decide

theorem typeName_accounts {accepts : Kind → Bool} (what : String)
    (haccepts : ∀ {kind}, accepts kind → kind.isStored) :
    Accounts anywhere (typeName accepts what) TypeExpr.pieces := by
  apply Accounts.of_start (fun type => type.flat_pieces.closed)
  intro start _
  refine .bind currentKind_meets fun kind => ?_
  split
  · next hkind =>
      have hstart : Meets (fun state => state = start ∧ kind = state.cursor.kind) advance
          fun token => Accounted start ([] ++ [.token token]) := by
        apply (advance_accounts.keeps start []).strengthen
        intro state hstate
        rcases hstate with ⟨rfl, rfl⟩
        exact ⟨.refl _, haccepts hkind⟩
      exact .bind hstart fun token => .pure fun _ hstate => hstate
  · refine .bind current_meets fun got => ?_
    refine .bind ((reportHere_meets start _).strengthen fun _ hstate => hstate.1.1) fun bad => ?_
    apply Meets.of_each
    intro _ hreported
    obtain ⟨rfl, rfl⟩ := hreported
    exact .bind (stepOverUnless_meets rfl rfl start _) fun _ => .pure fun _ hstate => hstate

theorem expectName_accounts (what : String) :
    AccountsOrFails anywhere (expectName what) fun name => [.token name] :=
  expectAs_accounts _ what rfl

theorem paramName_accounts (named : Bool) :
    AccountsOrFails anywhere (paramName named) (piecesOf? fun name => [.token name]) := by
  intro start before
  unfold paramName
  split
  · exact .bind (expectName_accounts _ start before) fun name => .pure fun _ hstate => hstate
  · apply Yields.pure
    intro state hstate
    simpa [piecesOf?] using hstate.1

theorem param_accounts (named : Bool) :
    AccountsOrFails anywhere (param named) Param.pieces := by
  intro start before
  apply Yields.bind (paramName_accounts named start before)
  intro name
  apply Yields.bind (typeName_accounts _ isStored_of_isParamType).lift.yields
  intro type
  apply Yields.pure
  intro state hstate
  simpa [Param.pieces] using hstate

theorem paramList_accounts (named : Bool) :
    AccountsOrFails anywhere (paramList named) (Enclosed.listPieces Param.pieces) := by
  intro start before
  apply Yields.bind (expectAs_accounts _ _ rfl start before)
  intro opening
  refine covering_yields (restOfList_orderly _ opening (param_orderly named)) ?_
    (restOfList_yields "parameter" opening (param_orderly named) (param_accounts named))
  exact fun state hstate => hstate.accounted.token_le (.inl (by simp))

theorem atSignatureEnd_meets {pre : State → Prop} :
    Meets pre atSignatureEnd fun _ => pre :=
  fun _ hstate => hstate

theorem results_accounts :
    AccountsOrFails anywhere results (piecesOf? Results.pieces) := by
  intro start before
  apply Yields.bind (.lift atSignatureEnd_meets)
  intro atEnd
  split
  · apply Yields.pure
    intro state hstate
    simpa [piecesOf?] using hstate.1
  apply Yields.bind (.lift currentKind_meets)
  intro kind
  split
  · apply Yields.bind (.lift (kindAt_meets 2))
    intro second
    refine .bind (Yields.strengthen (paramList_accounts _).yields fun _ hstate => hstate.1.1.1)
      fun params => .pure fun _ hstate => hstate
  · refine .bind (Yields.strengthen (typeName_accounts _ isStored_of_isParamType).lift.yields
      fun _ hstate => hstate.1.1) fun type => .pure fun _ hstate => hstate

theorem qualifiedName_accounts (what : String) :
    AccountsOrFails anywhere (qualifiedName what) QualifiedName.pieces := by
  intro start before
  apply Yields.bind (expectName_accounts what start before)
  intro name
  refine .bind (accept?_accounts rfl).lift.yields fun dot => ?_
  cases dot with
  | some dot =>
      apply Yields.bind (expectName_accounts what).yields
      intro second
      apply Yields.pure
      intro state hstate
      simpa [QualifiedName.pieces, piecesOf?] using hstate
  | none =>
      apply Yields.pure
      intro state hstate
      simpa [QualifiedName.pieces, piecesOf?] using hstate

/-- The productions of a level account for what they read. -/
structure Nested.Accounts (nested : Nested) : Prop where
  orderly : nested.Orderly
  expr : ∀ least, Grammar.Accounts anywhere (nested.expr least) Expr.pieces
  stmt : Grammar.Accounts anywhere nested.stmt Stmt.pieces
  ifElse : AccountsOrFails (fun cursor => cursor.kind = .ifKw) nested.ifElse Stmt.pieces
  /-- A statement at an opening brace reads it, or gives it up. -/
  body : ∀ start : State, start.cursor.kind = .lbrace →
    (nested.stmt.run start).2.cursor = start.cursor → ¬ (nested.stmt.run start).2.Calm

theorem parenthesized_yields (hnested : nested.Accounts) (start : State)
    (hstart : start.cursor.kind = .lparen) :
    Yields (· = start) (parenthesized nested) (fun expr => Settled start expr.pieces)
      fun bad => Accounted start [.bad bad] := by
  apply Yields.bind (.lift (advance_meets_first start (by rw [hstart]; rfl)))
  intro opening
  refine .of_known fun hopening => .bind (.lift currentKind_meets) fun kind => ?_
  split
  · next hkind =>
      apply Yields.bind (.lift (expectedHere_meets _ _))
      intro diagnostic
      refine .bind (.lift (Meets.strengthen (advance_accounts.settles_at ?_)
        fun _ hstate => hstate.1)) fun closing => ?_
      · intro state hstate
        rcases hstate with rfl
        rw [hkind]
        rfl
      · exact fun state hstate => hstate.replaced rfl rfl diagnostic
  · apply Yields.bind (.lift (Meets.strengthen (hnested.expr .lowest).settles
      fun _ hstate => hstate.1))
    intro inner
    have hclosing : Yields (Settled start ([.token opening] ++ inner.pieces))
        (expect .rparen "')'") (fun closing => Settled start
          ([.token opening] ++ inner.pieces ++ [.token closing])) (Failed start) :=
      (expectAs_accounts _ _ rfl).yields
    rw [hopening] at hclosing ⊢
    apply Yields.bind (covering_yields_first hclosing)
    intro closing
    apply Yields.pure
    intro state hstate
    simpa [Expr.pieces] using hstate

theorem operand_yields (hnested : nested.Accounts) (start : State) :
    Yields (· = start) (operand nested) (fun expr => Settled start expr.pieces)
      fun bad => Accounted start [.bad bad] := by
  refine .bind (.lift currentKind_meets) fun kind => .of_each fun state hstate => ?_
  obtain ⟨rfl, hkind⟩ := hstate
  have hleaf (hstored : kind.isStored) := advance_meets_first state (hkind ▸ hstored)
  split
  case h_6 => exact parenthesized_yields hnested state hkind.symm
  case h_7 | h_8 =>
    refine .bind (.lift (hleaf rfl)) fun op => .of_known fun _ => ?_
    exact .bind (.lift (hnested.expr .suffix).settles) fun inner => .pure fun _ hstate => hstate
  case h_9 =>
    apply Yields.bind (.lift (expectedHere_meets _ _))
    intro diagnostic
    refine .bind (.lift ((reportHere_meets state diagnostic).strengthen fun _ hstate =>
      hstate.1)) fun bad => .of_each fun _ hreported => ?_
    obtain ⟨rfl, rfl⟩ := hreported
    apply Yields.bind (.lift (stepOverUnless_meets rfl rfl state diagnostic))
    intro _
    exact .throw fun _ hstate => hstate
  all_goals
    exact .bind (.lift (hleaf rfl)) fun token => .pure fun _ hstate => hstate.1

theorem isStored_of_precedence {kind : Kind} (hkind : kind.precedence ≠ .lowest) :
    kind.isStored := by
  revert hkind
  cases kind <;> decide

/-- A chained comparison gives up its left operand. -/
theorem Settled.chained {pieces rest : List Piece} {op last : Token} {stop : State}
    (hsettled : Settled start (pieces ++ [.token op] ++ rest) stop)
    (hlast : lastTokenOf rest = some last) :
    Accounted start [.bad ⟨op, last, (Diagnostic.chainedComparison op).message⟩]
      { stop with diagnostics := stop.diagnostics.push (.chainedComparison op) } := by
  have hend : lastTokenOf (pieces ++ [.token op] ++ rest) = some last := by simp [hlast]
  have hreport := Failed.report stop (.chainedComparison op) op (hsettled.accounted.last_le hend)
  refine (hreport.before hsettled.sameBody).accounted rfl (fun hordered => ?_) fun hstart => ?_
  · exact absurd rfl (hordered.unchained (.chainedComparison op) (by simp))
  · obtain ⟨middle, hleft, hright⟩ := (hsettled.accounted.covers.inOrder hstart).split
    refine ⟨hleft.le_lastTokenOf (by simp [Piece.last]), ?_, hright.lastTokenOf_le hlast⟩
    exact Position.le_trans (hleft.lastTokenOf_le (by simp [Piece.last]))
      (hright.le_lastTokenOf hlast)

theorem binary_meets (hnested : nested.Accounts) (left : Expr) {level : Precedence}
    {kind : Kind} (hkind : kind.isStored) :
    Meets (fun state => Settled start left.pieces state ∧ kind = state.cursor.kind)
      (binary nested left level) fun expr => Accounted start expr.pieces := by
  refine .bind (advance_accounts.settles_at ?_) fun op => ?_
  · intro state hstate
    rcases hstate with rfl
    exact hkind
  refine .bind (hnested.expr _).settles fun right => ?_
  split
  · exact fun state hstate => hstate.chained right.lastTokenOf_pieces
  · apply Meets.pure
    intro state hstate
    simpa [Expr.pieces] using hstate.accounted

theorem suffix_yields (hnested : nested.Accounts) (base : Expr) {kind : Kind}
    (hkind : kind.isStored) :
    Yields (fun state => Settled start base.pieces state ∧ kind = state.cursor.kind)
      (suffix nested base) (fun expr => Settled start expr.pieces) (Failed start) := by
  refine .bind (advance_accounts.lift.yields_at ?_) fun opening => ?_
  · intro state hstate
    rcases hstate with rfl
    exact hkind
  split
  · refine .bind (expectName_accounts _).yields fun name => .pure fun state hstate => ?_
    simpa [Expr.pieces] using hstate
  split
  · apply Yields.bind (hnested.expr _).lift.yields
    intro inner
    refine .bind (expectAs_accounts _ _ rfl).yields fun closing => .pure fun state hstate => ?_
    simpa [Expr.pieces] using hstate
  · refine .bind (restOfList_yields _ opening (hnested.orderly.expr _) (hnested.expr _).lift)
      fun args => .pure fun state hstate => ?_
    rw [Expr.pieces_call]
    exact hstate

/-- A broken suffix takes the expression before it with it. -/
theorem Failed.accounted_suffix {left : Expr} {middle stop : State} {bad : BadNode}
    (hfailed : Failed start bad stop) (hleft : Accounted start left.pieces middle)
    (hreaches : middle.Reaches stop)
    (hmoved : stop.cursor.remaining < middle.cursor.remaining) :
    Accounted start [.bad ⟨left.first,
      laterToken (laterToken bad.last stop.cursor.previous) left.first, bad.reason⟩] stop := by
  refine hfailed.accounted rfl (fun hordered => ?_) fun hstart => ?_
  · have hmiddle := hreaches.ordered hordered
    have hstart := hleft.reaches.ordered hmiddle
    refine hides_of_cover hordered.cursor ?_ fun hstay => ?_
    · exact hleft.covers.first_le hmiddle hstart.cursor left.firstTokenOf_pieces
    · obtain ⟨run, hrun⟩ := hleft.reaches.reads
      have hremaining := hrun.remaining
      rw [hstay] at hmoved
      omega
  · have hstop := hfailed.sameBody.reaches.ordered_iff.1 hstart
    have hspan := hleft.covers.within hstart bad.reason left.firstTokenOf_pieces
      left.lastTokenOf_pieces
    refine within_of_cover (hfailed.last hstop) hstop hspan.first ?_
    exact Position.le_trans (Position.le_trans hspan.span hspan.last) (hreaches.current_le hstop)

theorem exprPass_meets (hnested : nested.Accounts) (least : Precedence) (left : Expr) :
    Meets (Settled start left.pieces) (exprPass nested least left)
      (Turns (fun expr => Settled start expr.pieces) fun expr =>
        Settled start expr.pieces) := by
  refine .bind currentKind_meets fun kind => .bind opensLine_meets fun line => ?_
  split
  · exact .pure fun _ hstate => hstate.1.1
  next hmore =>
    have hkind : kind.isStored := by
      refine isStored_of_precedence fun hlowest => hmore ?_
      simp [hlowest]
    split
    · apply Meets.of_each
      intro middle hmiddle
      obtain ⟨⟨hleft, hplace⟩, -⟩ := hmiddle
      have hconsumes := suffix_consumes hnested.orderly left
      have hsuffix : Meets (· = middle) (suffix nested left).run fun outcome stop =>
          Ends (fun expr => Settled start expr.pieces) (Failed start) outcome stop ∧
            middle.Follows stop ∧ stop.cursor.remaining < middle.cursor.remaining := by
        intro state hstate
        rcases hstate with rfl
        refine ⟨suffix_yields hnested left hkind _ ⟨hleft, hplace⟩, hconsumes.orderly _, ?_⟩
        exact hconsumes.reads _ _ ⟨Nat.le_refl _, hplace ▸ Kind.ne_eof_of_isStored hkind⟩
      refine .bind hsuffix fun outcome => ?_
      cases outcome with
      | ok expr => exact .pure fun _ hstate => hstate.1
      | error bad =>
          refine .bind (cover_meets left.first bad) fun node => .pure ?_
          intro stop hstop
          rcases hstop with ⟨⟨hfailed, hfollows, hmoved⟩, rfl⟩
          exact ⟨hfailed.accounted_suffix hleft.accounted hfollows.reaches hmoved, closed_nil⟩
    · refine .bind (Meets.strengthen (binary_meets hnested left hkind) fun _ hstate =>
        hstate.1) fun expr => .pure fun _ hstate => ?_
      exact ⟨hstate, expr.flat_pieces.closed⟩

theorem exprInside_accounts (hnested : nested.Accounts) (least : Precedence) :
    Accounts anywhere (exprInside nested least) Expr.pieces := by
  apply Accounts.of_start (fun expr => expr.flat_pieces.closed)
  intro start _
  refine .bind (operand_yields hnested start) fun outcome => ?_
  cases outcome with
  | ok left =>
      exact Meets.weaken (.repeatStep (exprPass_gains hnested.orderly least)
        (exprPass_meets hnested least) left) fun _ _ hstate => hstate.accounted
  | error bad => exact .pure fun _ hstate => hstate

theorem exprListPass_meets (hnested : nested.Accounts) (found : List Expr) :
    Meets (Accounted start (before ++ gatheredPieces Expr.pieces found))
      (exprListPass nested found)
      (Turns (fun found => Accounted start (before ++ gatheredPieces Expr.pieces found))
        fun found => Accounted start (before ++ gatheredPieces Expr.pieces found)) := by
  refine .bind (hnested.expr .lowest).meets fun expr => ?_
  rw [List.append_assoc, ← gatheredPieces_cons]
  refine .bind (accept?_accounts_separator rfl).meets fun comma => ?_
  rw [List.append_nil]
  cases comma with
  | some comma => exact .pure fun _ hstate => hstate
  | none => exact .pure fun _ hstate => hstate

theorem exprList_accounts (hnested : nested.Accounts) :
    Accounts anywhere (exprList nested) fun exprs => exprs.flatMap Expr.pieces where
  closed exprs := (Flat.flatMap exprs Expr.flat_pieces).closed
  keeps start before := by
    have hexprs : Meets (Accounted start (before ++ gatheredPieces Expr.pieces []))
        (repeatStep (exprListPass nested) []) _ :=
      .repeatStep (exprListPass_gains hnested.orderly) (exprListPass_meets hnested) []
    rw [gatheredPieces_nil, List.append_nil] at hexprs
    exact .bind (hexprs.strengthen fun _ hstate => hstate.1) fun found =>
      .pure fun _ hstate => hstate

theorem expectOpening_yields (what : String) :
    Yields (Settled start before) (expect .lbrace what)
      (fun opening state => Accounted start (before ++ [.opens opening]) state ∧ Closed before)
      (Failed start) :=
  expectAs_yields _ _ what
    (fun _ hstate hkind => ⟨hstate.accounted.next ⟨rfl, hkind⟩, hstate.closed⟩)
    fun _ hstate _ => hstate.sameBody

/-- A body that is not closed reaches the end of the file. -/
theorem expectClosing_yields {pieces : List Piece} {known : State → Prop} (what : String)
    (hknown : ∀ state, known state → state.cursor.kind = .eof ∨ state.cursor.kind = .rbrace) :
    Yields (fun state => Accounted start pieces state ∧ known state)
      (expect .rbrace what) (fun closing => Accounted start (pieces ++ [.closes closing]))
      (Failed start) := by
  apply expectAs_yields _ _ what (fun _ hstate hkind => hstate.1.next ⟨rfl, hkind⟩)
  rintro state ⟨hstate, hplace⟩ hkind
  rcases hknown state hplace with heof | hclosing
  · exact .of_eof hstate.reaches heof
  · exact absurd hclosing hkind

theorem advanceClosing_meets {pieces : List Piece} :
    Meets (fun state => Accounted start pieces state ∧ state.cursor.kind = .rbrace) advance
      fun closing => Accounted start (pieces ++ [.closes closing]) :=
  fun _ hstate => hstate.1.next ⟨rfl, hstate.2⟩

/-- A body whose items close their braces closes its own. -/
theorem Accounted.settled_body {inner : List Piece} {opening closing : Token} {stop : State}
    (haccounted : Accounted start (before ++ .opens opening :: inner ++ [.closes closing]) stop)
    (hbefore : Closed before) (hinner : Closed inner) :
    Settled start (before ++ (.opens opening :: inner ++ [.closes closing])) stop := by
  refine ⟨?_, hbefore.append (hinner.body opening closing)⟩
  simpa using haccounted

/-- Behind a broken member the rest of the body is skipped with its closing brace. -/
theorem Failed.skipBlock {inner : List Piece} {opening : Token} {middle stop : State}
    {bad : BadNode} (hfailed : Failed middle bad stop)
    (haccounted : Accounted start (before ++ .opens opening :: inner) middle)
    (hbefore : Closed before) (hinner : Closed inner) :
    Failed start bad { stop with cursor := stop.cursor.skip .block } := by
  obtain ⟨rest, hrest⟩ := Cursor.exists_reads_skip .block stop.cursor
  have hskip : stop.Reaches { stop with cursor := stop.cursor.skip .block } :=
    ⟨⟨rest, hrest⟩, List.prefix_rfl⟩
  obtain ⟨run, hrun⟩ := haccounted.covers.exists_reads
  obtain ⟨broken, hbroken, hlevel⟩ := hfailed.sameBody.reads
  have hreaches := (haccounted.reaches.trans hfailed.sameBody.reaches).trans hskip
  refine ⟨⟨⟨run ++ broken ++ rest, (hrun.trans hbroken).trans hrest, ?_⟩, hreaches.reports⟩,
    (hfailed.tells.before haccounted.reaches).after hskip, fun hordered => ?_⟩
  rotate_left
  · exact Position.le_trans (hfailed.last (hskip.ordered_iff.2 hordered))
      (hskip.current_le hordered)
  intro hcalm hend
  have hstop := hskip.calm hcalm
  have hstopEnd := hrest.kind_ne_eof hend
  obtain ⟨run', hrun', hdepth⟩ := haccounted.covers.depthAfter_eq
    (hfailed.sameBody.reaches.calm hstop) (hbroken.kind_ne_eof hstopEnd)
  -- One brace is open behind the members, and behind the broken one as well.
  have hopen : Brace.depthAfter 0 (braces run) = some 1 := by
    rw [hrun.unique hrun', hdepth, bracesOf_append, Brace.depthAfter_append,
      Brace.Level.depthAfter_eq hbefore, bracesOf_cons]
    exact Brace.Level.depthAfter_eq hinner 1
  rw [Brace.Level, braces_append, braces_append, Brace.depthAfter_append,
    Brace.depthAfter_append, hopen]
  simp only [Option.bind_some, (hlevel hstop hstopEnd).depthAfter_eq]
  exact Skip.block_closes hrest hend

theorem memberEnd_accounts : AccountsOrFails anywhere memberEnd fun _ => [] := by
  intro start before
  refine .bind (.lift currentKind_meets) fun kind => .bind (.lift opensLine_meets) fun line => ?_
  split
  · apply Yields.pure
    intro state hstate
    simpa using hstate.1.1.1
  · exact failExpected_yields _ _ fun state hstate => hstate.1.1.1.sameBody

theorem memberPass_yields {member : Production α} {pieces : α → List Piece}
    (hmember : AccountsOrFails anywhere member pieces) (hflat : ∀ item, Flat (pieces item))
    (hbefore : Closed before) (opening : Token) (found : List α) :
    Yields (Accounted start (before ++ .opens opening :: gatheredPieces pieces found))
      (memberPass member found)
      (Turns
        (fun found => Accounted start (before ++ .opens opening :: gatheredPieces pieces found))
        fun found state =>
          Accounted start (before ++ .opens opening :: gatheredPieces pieces found) state ∧
            state.cursor.kind = .rbrace)
      (Failed start) := by
  apply Yields.bind (.lift currentKind_meets)
  intro kind
  split
  · next hkind =>
      apply Yields.pure
      intro state hstate
      rcases hstate with ⟨hstate, rfl⟩
      exact ⟨hstate, hkind⟩
  split
  · next hkind =>
      apply failExpected_yields _ _
      intro state hstate
      rcases hstate with ⟨hstate, rfl⟩
      exact .of_eof hstate.reaches hkind
  split
  · next hkind =>
      refine .bind (.lift (advance_accounts_separator.meets_at ?_)) fun _ => ?_
      · intro state hstate
        rcases hstate with rfl
        rw [hkind]
        rfl
      · rw [List.append_nil]
        exact .pure fun _ hstate => hstate
  · apply Yields.of_each
    intro middle hmiddle
    have hgathered : Closed (gatheredPieces pieces found) :=
      .flatMap fun item _ => (hflat item).closed
    have hitem : Yields (· = middle) (do
        let item ← member
        memberEnd
        return item) (fun item => Settled middle (pieces item)) (Failed middle) := by
      refine .bind ((hmember middle []).strengthen ?_) fun item => ?_
      · intro state hstate
        rcases hstate with rfl
        exact ⟨.refl _, trivial⟩
      refine .bind memberEnd_accounts.yields fun _ => .pure fun state hstate => ?_
      simpa using hstate
    refine .bind (.onFailure hitem fun bad => ?_) fun item => .pure fun state hstate => ?_
    · exact fun _ hfailed => hfailed.skipBlock hmiddle.1 hbefore hgathered
    · rw [Turns, gatheredPieces_cons, ← List.cons_append, ← List.append_assoc]
      exact hmiddle.1.trans hstate.accounted

theorem members_accounts {member : Production α} {pieces : α → List Piece}
    (hconsumes : ConsumesOrFails member) (hmember : AccountsOrFails anywhere member pieces)
    (hflat : ∀ item, Flat (pieces item)) :
    AccountsOrFails anywhere (members member) (Enclosed.bodyPieces pieces) := by
  intro start before
  apply Yields.bind ((expectOpening_yields _).strengthen fun _ hstate => hstate.1)
  intro opening
  apply Yields.of_known
  intro hbefore
  have hitems : Yields (Accounted start (before ++ .opens opening :: gatheredPieces pieces []))
      (repeatProduction (memberPass member) []) _ (Failed start) :=
    .repeatProduction (memberPass_gains hconsumes)
      (memberPass_yields hmember hflat hbefore opening) []
  refine .bind hitems fun found => .bind (.lift advanceClosing_meets) fun closing => ?_
  apply Yields.pure
  intro stop hstop
  exact hstop.settled_body hbefore (.flatMap fun item _ => (hflat item).closed)

theorem field_accounts (hnested : nested.Accounts) :
    AccountsOrFails anywhere (field nested) FieldDecl.pieces := by
  intro start before
  apply Yields.bind (expectName_accounts _ start before)
  intro name
  apply Yields.bind (typeName_accounts _ isStored_of_isValueType).lift.yields
  intro type
  refine .bind (accept?_accounts rfl).lift.yields fun eq => ?_
  cases eq with
  | some eq =>
      refine .bind (hnested.expr _).lift.yields fun value => .pure fun state hstate => ?_
      simpa [FieldDecl.pieces, Default.pieces, piecesOf?] using hstate
  | none =>
      apply Yields.pure
      intro state hstate
      simpa [FieldDecl.pieces, piecesOf?] using hstate

theorem interfaceMember_accounts :
    AccountsOrFails anywhere interfaceMember InterfaceMember.pieces := by
  intro start before
  refine .bind (.lift currentKind_meets) fun kind => .bind (.lift (kindAt_meets 1)) fun second => ?_
  split
  · next hkind =>
      have hname : ∀ state : State, kind = state.cursor.kind → state.cursor.kind.isStored := by
        intro state hstate
        rcases hstate with rfl
        simp only [Bool.and_eq_true, decide_eq_true_eq] at hkind
        rw [hkind.1]
        rfl
      apply Yields.bind (Yields.strengthen (advance_accounts.lift.yields_at hname)
        fun _ hstate => ⟨hstate.1.1.1, hstate.1.2⟩)
      intro name
      apply Yields.bind (paramList_accounts true).yields
      intro params
      refine .bind results_accounts.yields fun results => .pure fun state hstate => ?_
      simpa [InterfaceMember.pieces, MethodSpec.pieces] using hstate
  · refine .bind (Yields.strengthen (qualifiedName_accounts _).yields
      fun _ hstate => hstate.1.1.1) fun name => .pure fun _ hstate => hstate

theorem sumVariant_accounts : AccountsOrFails anywhere sumVariant SumVariant.pieces := by
  intro start before
  apply Yields.bind (expectName_accounts _ start before)
  intro name
  apply Yields.bind (.lift currentKind_meets)
  intro kind
  split
  · apply Yields.bind ((paramList_accounts true).yields_at fun _ _ => trivial)
    intro params
    apply Yields.pure
    intro state hstate
    simpa [SumVariant.pieces, piecesOf?] using hstate
  · apply Yields.pure
    intro state hstate
    simpa [SumVariant.pieces, piecesOf?] using hstate.1

theorem typeBody_yields {member : Production α} {pieces : α → List Piece} {kind : Kind}
    (typeKeyword name : Token) (hkind : kind.isStored) (hconsumes : ConsumesOrFails member)
    (hmember : AccountsOrFails anywhere member pieces) (hflat : ∀ item, Flat (pieces item)) :
    Yields (fun state => Settled start (before ++ [.token typeKeyword, .token name]) state ∧
        kind = state.cursor.kind)
      (typeBody typeKeyword name member)
      (fun decl state => Settled start (before ++ decl.pieces pieces) state) (Failed start) := by
  refine .bind (advance_accounts.lift.yields_at ?_) fun keyword => ?_
  · intro state hstate
    rcases hstate with rfl
    exact hkind
  apply Yields.bind (members_accounts hconsumes hmember hflat).yields
  intro body
  apply Yields.pure
  intro state hstate
  simpa [TypeDecl.pieces] using hstate

theorem nonemptyBody_yields {member : Production α} {pieces : α → List Piece} {kind : Kind}
    (what : String) (typeKeyword name : Token) (hkind : kind.isStored)
    (hconsumes : ConsumesOrFails member) (hmember : AccountsOrFails anywhere member pieces)
    (hflat : ∀ item, Flat (pieces item)) :
    Yields (fun state => Settled start (before ++ [.token typeKeyword, .token name]) state ∧
        kind = state.cursor.kind)
      (nonemptyBody what typeKeyword name member)
      (fun decl state => Settled start (before ++ decl.pieces pieces) state) (Failed start) := by
  apply Yields.bind (typeBody_yields typeKeyword name hkind hconsumes hmember hflat)
  intro decl
  split
  · refine fail_yields _ _ _ (fun state hstate => hstate.sameBody) fun state hstate => ?_
    exact hstate.accounted.last_le (by simp [TypeDecl.lastTokenOf_pieces, TypeDecl.last])
  · exact .pure fun _ hstate => hstate

theorem typeDecl_accounts (hnested : nested.Accounts) :
    AccountsOrFails (fun cursor => cursor.kind = .typeKw) (typeDecl nested) Decl.pieces := by
  apply AccountsOrFails.of_start
  intro start hstart
  apply Yields.bind (.lift (advance_meets_first start (by rw [hstart]; rfl)))
  intro typeKeyword
  refine .of_known fun hfirst => .bind (expectName_accounts _).yields fun name => ?_
  apply covering_yields_start hfirst
  change Yields (Settled start ([] ++ [.token typeKeyword, .token name])) _
    (fun decl => Settled start ([] ++ Decl.pieces decl)) _
  apply Yields.bind (.lift currentKind_meets)
  intro kind
  split
  · refine .bind (typeBody_yields typeKeyword name rfl
      (field_consumesOrFails hnested.orderly) (field_accounts hnested) FieldDecl.flat_pieces)
      fun decl => .pure fun _ hstate => hstate
  · refine .bind (typeBody_yields typeKeyword name rfl interfaceMember_consumesOrFails
      interfaceMember_accounts InterfaceMember.flat_pieces) fun decl => .pure fun _ hstate => hstate
  · refine .bind (nonemptyBody_yields _ typeKeyword name rfl (expectName_consumesOrFails _)
      (expectName_accounts _) fun _ => by simp) fun decl => .pure fun _ hstate => hstate
  · refine .bind (nonemptyBody_yields _ typeKeyword name rfl sumVariant_consumesOrFails
      sumVariant_accounts SumVariant.flat_pieces) fun decl => .pure fun _ hstate => hstate
  · exact failExpected_yields _ _ fun state hstate => hstate.1.sameBody

end OriSyntax.Grammar
