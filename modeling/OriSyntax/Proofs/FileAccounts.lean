import OriSyntax.Proofs.StmtAccounts

/-!
What the productions of a file account for.  At file scope braces need not be closed:
a token with which no item begins is given up by itself.  Each item that could be read
still closes its own.
-/

namespace OriSyntax.Grammar

variable {start : State} {before : List Piece}

theorem funcBody_accounts :
    AccountsOrFails anywhere funcBody (Enclosed.bodyPieces Stmt.pieces) := by
  refine .of_anywhere fun start before => .bind (.lift get_meets) fun outside => ?_
  refine Yields.strengthen (between_accounts ?_ ?_ (block_accounts outermost_accounts)
    start before) fun _ hstate => ⟨hstate.1, trivial⟩
  · exact fun _ => ⟨rfl, rfl⟩
  · exact fun _ => ⟨rfl, rfl⟩

/-- A failure is not forgotten while the rest of a construct is read. -/
theorem AccountsOrFails.attempt_failed {α : Type} {production : Production α}
    {pieces : α → List Piece} {bad : BadNode} {failed : BadNode → State → Prop}
    (hproduction : AccountsOrFails anywhere production pieces) :
    Yields (Failed start bad) (attempt production) (fun _ => Failed start bad) failed := by
  apply Yields.of_each
  intro state hstate
  refine (Yields.attempt ((hproduction state []).strengthen ?_)).weaken ?_ fun _ _ h => h
  · intro state hstate
    rcases hstate with rfl
    exact ⟨.refl _, trivial⟩
  · intro outcome stop hends
    cases outcome with
    | ok value => exact hstate.after (Settled.sameBody hends)
    | error other => exact hstate.after (Failed.sameBody hends)

/-- Another part of a construct is read, whether the parts before it failed or not. -/
theorem AccountsOrFails.attempt_after {α β : Type} {production : Production β}
    {pieces : β → List Piece} {earlier : α → List Piece} {failed : BadNode → State → Prop}
    (hproduction : AccountsOrFails anywhere production pieces) (outcome : Except BadNode α) :
    Yields (Ends (fun value => Settled start (earlier value)) (Failed start) outcome)
      (attempt production)
      (fun other => Ends (fun value => Ends
        (fun part => Settled start (earlier value ++ pieces part)) (Failed start) other)
          (Failed start) outcome) failed := by
  cases outcome with
  | ok value => exact .attempt hproduction.yields
  | error bad => exact hproduction.attempt_failed

/-- The first part of a function that failed tells why. -/
theorem settleParts_yields {keyword : Token} (hkeyword : keyword = start.cursor.current)
    (name : Token) (params : Except BadNode ParamList)
    (results : Except BadNode (Option Results)) (body : Except BadNode Block) :
    Yields
      (Ends (fun params => Ends (fun results => Ends (fun body => Settled start
          ([.token keyword] ++ [.token name] ++ params.listPieces Param.pieces ++
            piecesOf? Results.pieces results ++ body.bodyPieces Stmt.pieces))
          (Failed start) body) (Failed start) results) (Failed start) params)
      (do
        let params ← covering keyword (settle params)
        return (⟨keyword, name, params, ← settle results, ← settle body⟩ : FuncDecl))
      (fun decl => Settled start decl.pieces) (Failed start) := by
  apply Yields.bind (covering_yields_start hkeyword (.settle fun _ hstate => hstate))
  intro params
  apply Yields.bind (.settle fun _ hstate => hstate)
  intro results
  refine .bind (.settle fun _ hstate => hstate) fun body => .pure fun state hstate => ?_
  simpa [FuncDecl.pieces] using hstate

theorem funcDecl_accounts :
    AccountsOrFails (fun cursor => cursor.kind.isStored) funcDecl FuncDecl.pieces := by
  apply AccountsOrFails.of_start
  intro start hstart
  apply Yields.bind (.lift (advance_meets_first start hstart))
  intro keyword
  apply Yields.of_known
  intro hkeyword
  apply Yields.bind (expectName_accounts _).yields
  intro name
  apply Yields.bind (.attempt (paramList_accounts true).yields)
  intro params
  apply Yields.bind (results_accounts.attempt_after params)
  intro results
  refine .bind ?_ fun body => settleParts_yields hkeyword name params results body
  cases params with
  | ok params => exact funcBody_accounts.attempt_after results
  | error bad => exact funcBody_accounts.attempt_failed

theorem implementsDecl_accounts :
    AccountsOrFails (fun cursor => cursor.kind = .ident ∧ cursor.kindAt 1 = .implementsKw)
      implementsDecl ImplementsDecl.pieces := by
  apply AccountsOrFails.of_start
  intro start hstart
  have htype : Meets (· = start) advance fun typeName state =>
      Settled start [.token typeName] state ∧ state.cursor.kind = .implementsKw := by
    intro state hstate
    rcases hstate with rfl
    have hstored : state.cursor.kind.isStored := by
      rw [hstart.1]
      rfl
    refine ⟨(advance_meets_first state hstored state rfl).1, ?_⟩
    rw [← hstart.2]
    exact Cursor.kind_next (Kind.ne_eof_of_isStored hstored)
  apply Yields.bind (.lift htype)
  intro typeName
  refine .bind (advance_accounts.lift.yields_at ?_) fun keyword => ?_
  · intro state hkind
    rw [hkind]
    rfl
  refine .bind (qualifiedName_accounts _).yields fun interface => .pure fun state hstate => ?_
  simpa [ImplementsDecl.pieces] using hstate

theorem fileVariable_accounts :
    AccountsOrFails (fun cursor => cursor.kind.isStored) fileVariable Decl.pieces := by
  apply AccountsOrFails.of_start
  intro start hstart
  refine .bind ((valueDecl_accounts outermost_accounts _ start []).strengthen ?_) fun decl => ?_
  · intro state hstate
    rcases hstate with rfl
    exact ⟨.refl _, hstart⟩
  · exact fun state hstate => ⟨hstate.replaced rfl decl.lastTokenOf_pieces _, closed_nil⟩

/-- An item was given up, and the reason was told. -/
structure GivenUp (start : State) (bad : BadNode) (stop : State) : Prop where
  reaches : start.Reaches stop
  tells : start.Tells bad.reason stop
  last : stop.cursor.Ordered → bad.last.position ≤ stop.cursor.current.position

theorem GivenUp.after {middle stop : State} {bad : BadNode}
    (hgivenUp : GivenUp start bad middle) (hreaches : middle.Reaches stop) :
    GivenUp start bad stop where
  reaches := hgivenUp.reaches.trans hreaches
  tells := hgivenUp.tells.after hreaches
  last hordered := Position.le_trans (hgivenUp.last (hreaches.ordered_iff.2 hordered))
    (hreaches.current_le hordered)

theorem Failed.givenUp {stop : State} {bad : BadNode} (hfailed : Failed start bad stop) :
    GivenUp start bad stop :=
  ⟨hfailed.sameBody.reaches, hfailed.tells, hfailed.last⟩

/-- A step that moves only the cursor does not forget why an item was given up. -/
theorem GivenUp.kept {α : Type} {step : Step α} {bad : BadNode} (hstep : Orderly step) :
    Meets (GivenUp start bad) step fun _ => GivenUp start bad :=
  hstep.keeps fun _ _ hfollows hgivenUp => hgivenUp.after hfollows.reaches

theorem strayItem_yields {α : Type} {succeeded : α → State → Prop} (start : State) :
    Yields (· = start) strayItem succeeded (GivenUp start) := by
  apply Yields.bind (.lift current_meets)
  intro found
  refine .bind (.lift ((reportHere_meets start _).strengthen fun _ hstate => hstate.1))
    fun bad => .of_each fun state hreported => ?_
  obtain ⟨rfl, rfl⟩ := hreported
  refine .bind (.lift ((GivenUp.kept moveNext_orderly).strengthen ?_)) fun _ =>
    .throw fun _ hgivenUp => hgivenUp
  intro state hstate
  rcases hstate with rfl
  exact (Failed.reportHere start _).givenUp

/-- The items account for what was read between two states.  Each is closed in itself,
but a bad node that stands for a whole item may hide a brace without its partner. -/
structure Listed (start : State) (items : List Item) (stop : State) : Prop where
  covers : Covers stop.Ordered False start.cursor (items.flatMap Item.pieces) stop.cursor
  explained : Explained start (items.flatMap Item.pieces) stop
  whole : ∀ item ∈ items, (∃ bad, item.pieces = [.bad bad]) ∨
    ∃ first last : State, start.Reaches first ∧ last.Reaches stop ∧
      Covers stop.Ordered stop.Calm first.cursor item.pieces last.cursor

namespace Listed

variable {middle stop : State} {items others : List Item} {item : Item}

theorem reaches (hlisted : Listed start items stop) : start.Reaches stop := by
  obtain ⟨reported, hstop, -, -⟩ := hlisted.explained
  exact ⟨hlisted.covers.exists_reads, ⟨reported, hstop.symm⟩⟩

theorem trans (hfirst : Listed start items middle) (hsecond : Listed middle others stop) :
    Listed start (items ++ others) stop where
  covers := by
    rw [List.flatMap_append]
    exact (hfirst.covers.mono hsecond.reaches.ordered id).trans hsecond.covers
  explained := by
    rw [List.flatMap_append]
    exact hfirst.explained.trans hsecond.explained
  whole item hitem := by
    rcases List.mem_append.1 hitem with hitem | hitem
    · rcases hfirst.whole item hitem with hbad | ⟨first, last, hstart, hlast, hcovers⟩
      · exact .inl hbad
      · refine .inr ⟨first, last, hstart, hlast.trans hsecond.reaches, ?_⟩
        exact hcovers.mono hsecond.reaches.ordered hsecond.reaches.calm
    · rcases hsecond.whole item hitem with hbad | ⟨first, last, hstart, hlast, hcovers⟩
      · exact .inl hbad
      · exact .inr ⟨first, last, hfirst.reaches.trans hstart, hlast, hcovers⟩

/-- Nothing but separators was read. -/
theorem of_separators (haccounted : Accounted start [] stop) : Listed start [] stop where
  covers := haccounted.covers.mono id False.elim
  explained := haccounted.explained
  whole _ hitem := absurd hitem List.not_mem_nil

theorem of_accounted (haccounted : Accounted start item.pieces stop) :
    Listed start [item] stop where
  covers := by
    rw [List.flatMap_singleton]
    exact haccounted.covers.mono id False.elim
  explained := by
    rw [List.flatMap_singleton]
    exact haccounted.explained
  whole other hother := by
    obtain rfl := List.mem_singleton.1 hother
    exact .inr ⟨start, stop, .refl _, .refl _, haccounted.covers⟩

/-- An item that was given up, and all that was skipped behind it. -/
theorem of_bad {node : BadNode} (hitem : item.pieces = [.bad node])
    (hreaches : start.Reaches stop) (htells : start.Tells node.reason stop)
    (hhides : stop.Ordered → Hides start.cursor stop.cursor node)
    (hwithin : start.cursor.Ordered → Within start.cursor stop.cursor node) :
    Listed start [item] stop where
  covers := by
    obtain ⟨run, hrun⟩ := hreaches.reads
    rw [List.flatMap_singleton, hitem]
    exact .bad hrun hhides hwithin (fun hfalse => hfalse.elim) (.nil _)
  explained := by
    rw [List.flatMap_singleton, hitem]
    exact htells.explained
  whole other hother := by
    obtain rfl := List.mem_singleton.1 hother
    exact .inl ⟨node, hitem⟩

end Listed

/-- An item is read, or what could not be read of it is hidden in a bad node. -/
theorem recoverItem_meets {ofBad : BadNode → Item} {production : Production Item}
    (hofBad : ∀ bad, (ofBad bad).pieces = [.bad bad])
    (hproduction : Yields (· = start) production
      (fun item => Accounted start item.pieces) (GivenUp start)) :
    Meets (· = start)
      (recoverWith (.toSet .declStart) start.cursor.current ofBad production)
      fun item => Listed start [item] := by
  have hlisted : Yields (· = start) production (fun item => Listed start [item])
      (GivenUp start) :=
    hproduction.weaken (fun _ _ haccounted => .of_accounted haccounted)
      fun _ _ hgivenUp => hgivenUp
  apply Meets.recoverWith hlisted
  intro bad
  refine .bind (GivenUp.kept (skip_orderly _)) fun _ => ?_
  refine .bind (cover_meets _ bad) fun node => .pure ?_
  intro stop hstop
  rcases hstop with ⟨hgivenUp, rfl⟩
  have hreaches := hgivenUp.reaches
  refine .of_bad (hofBad _) hreaches hgivenUp.tells (fun hordered => ?_) fun hstart => ?_
  · refine hides_of_cover hordered.cursor (fun token htoken _ => ?_) fun _ => Position.le_refl _
    exact Cursor.current_le_of_mem_ahead (hreaches.ordered hordered).cursor htoken
  · have hstop := hreaches.ordered_iff.1 hstart
    exact within_of_cover (hgivenUp.last hstop) hstop (Position.le_refl _)
      (hreaches.current_le hstop)

/-- An item of a production that accounts for what it reads. -/
theorem AccountsOrFails.item_yields {α : Type} {here : Cursor → Prop}
    {production : Production α} {pieces : α → List Piece} {ofValue : α → Item}
    (hproduction : AccountsOrFails here production pieces)
    (hofValue : ∀ value, (ofValue value).pieces = pieces value) (hhere : here start.cursor) :
    Yields (· = start) (do return ofValue (← production))
      (fun item => Accounted start item.pieces) (GivenUp start) := by
  have hstart : Yields (· = start) production
      (fun value => Accounted start (ofValue value).pieces) (GivenUp start) := by
    refine (hproduction start []).mono ?_ (fun value _ hvalue => ?_)
      fun _ _ hfailed => hfailed.givenUp
    · intro state hstate
      rcases hstate with rfl
      exact ⟨.refl _, hhere⟩
    · rw [hofValue]
      exact hvalue.accounted
  exact .bind hstart fun value => .pure fun _ hvalue => hvalue

theorem item_meets (start : State) :
    Meets (· = start) item fun item => Listed start [item] := by
  have hbadDecl : ∀ bad, (Item.decl (.bad bad)).pieces = [.bad bad] := fun _ => rfl
  have hstray := recoverItem_meets hbadDecl (strayItem_yields start)
  have hstored {kind : Kind} (hkind : kind.isStored) (hfound : start.cursor.current.kind = kind) :
      start.cursor.kind.isStored := by
    rw [Cursor.kind, hfound]
    exact hkind
  refine .bind current_meets fun first => .of_each fun _ hstate => ?_
  obtain ⟨rfl, rfl⟩ := hstate
  dsimp only
  split
  case h_1 hkind =>
    apply recoverItem_meets (fun _ => rfl)
    exact (valueDecl_accounts outermost_accounts _).item_yields (fun _ => rfl) (hstored rfl hkind)
  case h_2 hkind =>
    exact recoverItem_meets hbadDecl
      (fileVariable_accounts.item_yields (fun _ => rfl) (hstored rfl hkind))
  case h_3 hkind =>
    exact recoverItem_meets hbadDecl
      (funcDecl_accounts.item_yields (fun _ => rfl) (hstored rfl hkind))
  case h_4 hkind =>
    apply recoverItem_meets hbadDecl
    exact (typeDecl_accounts outermost_accounts).item_yields Item.pieces_ofTypeDecl hkind
  case h_5 hkind =>
    refine .bind (kindAt_meets 1) fun following => ?_
    split
    · next hfollowing =>
        apply Meets.of_each
        intro _ hstate
        obtain ⟨rfl, rfl⟩ := hstate
        apply recoverItem_meets hbadDecl
        exact implementsDecl_accounts.item_yields (fun _ => rfl) ⟨hkind, hfollowing⟩
    · exact hstray.strengthen fun _ hstate => hstate.1
  case h_6 => exact hstray

/-- One pass over the items keeps them listed, and the last pass meets the end. -/
theorem itemPass_meets (found : List Item) :
    Meets (Listed start found.reverse) (itemPass outermost found)
      (Turns (fun found => Listed start found.reverse) fun found stop =>
        Listed start found.reverse stop ∧ stop.cursor.kind = .eof) := by
  refine .bind currentKind_meets fun kind => ?_
  split
  · next hkind =>
      apply Meets.pure
      intro state hstate
      rcases hstate with ⟨hlisted, rfl⟩
      exact ⟨hlisted, hkind⟩
  · split
    · next hkind =>
        have hadvance : Meets (fun state => Listed start found.reverse state ∧
            kind = state.cursor.kind) advance fun _ => Listed start found.reverse := by
          intro state hstate
          rcases hstate with ⟨hlisted, rfl⟩
          have hseparator := (Accounted.refl state).nextSeparator (by rw [hkind]; rfl)
          have hnext := hlisted.trans (.of_separators hseparator)
          rwa [List.append_nil] at hnext
        exact .bind hadvance fun _ => .pure fun _ hlisted => hlisted
    · apply Meets.of_each
      intro middle hmiddle
      refine .bind (item_meets middle) fun item => .pure fun stop hstop => ?_
      have htrans := hmiddle.1.trans hstop
      rwa [← List.reverse_cons] at htrans

theorem items_meets (start : State) :
    Meets (· = start) items fun items stop =>
      Listed start items stop ∧ stop.cursor.kind = .eof := by
  have hitems : Meets (Listed start []) (repeatStep itemPass []) fun found stop =>
      Listed start found.reverse stop ∧ stop.cursor.kind = .eof :=
    .repeatStep itemPass_gains itemPass_meets []
  refine .bind (hitems.strengthen ?_) fun found => .pure fun _ hstop => hstop
  intro state hstate
  rcases hstate with rfl
  exact .of_separators (.refl _)

/-- A package clause and the items behind it account for what was read.  In place of a
clause there may be a bad node. -/
inductive Filed (start : State) : File → State → Prop
  | clause {middle stop : State} {package name : Token} {items : List Item}
      (hkind : package.kind = .packageKw)
      (hclause : Accounted start [.token package, .token name] middle)
      (hitems : Listed middle items stop) : Filed start (.ofItems package name items) stop
  | noClause {stop : State} {bad : BadNode} {items : List Item}
      (hitems : Listed start (.decl (.bad bad) :: items) stop) :
      Filed start (.ofItems .absent .absent (.decl (.bad bad) :: items)) stop

theorem packageClause_yields (start : State) :
    Yields (· = start) packageClause
      (fun clause state => clause.1.kind = .packageKw ∧
        Accounted start [.token clause.1, .token clause.2] state)
      fun bad => Listed start [.decl (.bad bad)] := by
  have hlisted {bad : BadNode} {stop : State} (hbad : Accounted start [.bad bad] stop) :
      Listed start [.decl (.bad bad)] stop := .of_accounted hbad
  apply Yields.bind (.lift currentKind_meets)
  intro kind
  split
  · next hkind =>
      apply Yields.of_each
      intro state hstate
      obtain ⟨rfl, rfl⟩ := hstate
      have hstored : state.cursor.kind.isStored := by
        rw [hkind]
        rfl
      refine .bind (.lift (advance_meets_first state hstored)) fun keyword => .of_known ?_
      intro hcase
      rcases hcase with rfl
      have hname : Yields (Settled state [.token state.cursor.current])
          (expectName "package name")
          (fun name => Settled state [.token state.cursor.current, .token name])
          (Failed state) := (expectName_accounts _).yields
      refine .bind ((covering_yields_first hname).weaken (fun _ _ hvalue => hvalue)
        fun _ _ hbad => hlisted hbad) fun name => .pure fun stop hstop => ?_
      exact ⟨hkind, hstop.accounted⟩
  · apply Yields.bind (.lift (expectedHere_meets _ _))
    intro diagnostic
    apply Yields.of_each
    intro state hstate
    obtain ⟨⟨rfl, -⟩, -⟩ := hstate
    have hreport := Failed.reportHere state diagnostic
    intro state hstate
    rcases hstate with rfl
    refine hlisted (hreport.accounted rfl (fun hordered => ?_)
      (within_here hreport.sameBody.reaches))
    exact hides_here (hreport.sameBody.reaches.ordered hordered).cursor (.inl rfl)

theorem file_meets (start : State) :
    Meets (· = start) file fun file stop => Filed start file stop ∧ stop.cursor.kind = .eof := by
  refine .bind (packageClause_yields start) fun outcome => .of_each fun middle hmiddle => ?_
  cases outcome with
  | ok clause =>
      refine .bind (items_meets middle) fun items => .pure ?_
      intro stop hstop
      rcases hstop with ⟨hitems, hend⟩
      exact ⟨.clause hmiddle.1 hmiddle.2 hitems, hend⟩
  | error bad =>
      refine .bind (items_meets middle) fun items => .pure ?_
      intro stop hstop
      rcases hstop with ⟨hitems, hend⟩
      exact ⟨.noClause (hmiddle.trans hitems), hend⟩

namespace Filed

variable {file : File} {stop : State}

/-- The clause and the items, in the order of the text, account for all of the file. -/
theorem exists_items (hfiled : Filed start file stop) :
    ∃ items, file.items.Perm items ∧
      Covers stop.Ordered False start.cursor
        (file.clauseTokens.map .token ++ items.flatMap Item.pieces) stop.cursor ∧
      Explained start (file.clauseTokens.map .token ++ items.flatMap Item.pieces) stop := by
  cases hfiled with
  | @clause middle stop package name items hkind hclause hitems =>
      have hpieces : (File.ofItems package name items).clauseTokens.map Piece.token =
          [.token package, .token name] := by simp [File.clauseTokens, File.ofItems, hkind]
      refine ⟨items, File.items_ofItems_perm .., ?_, ?_⟩
      · rw [hpieces]
        have hcovers := hclause.covers.mono hitems.reaches.ordered False.elim
        exact hcovers.trans hitems.covers
      · rw [hpieces]
        exact hclause.explained.trans hitems.explained
  | noClause hitems => exact ⟨_, File.items_ofItems_perm .., hitems.covers, hitems.explained⟩

/-- An item is a bad node, or it was read from one place of the text to another. -/
theorem whole (hfiled : Filed start file stop) {item : Item} (hitem : item ∈ file.items) :
    (∃ bad, item.pieces = [.bad bad]) ∨
      ∃ first last : State, start.Reaches first ∧ last.Reaches stop ∧
        Covers stop.Ordered stop.Calm first.cursor item.pieces last.cursor := by
  cases hfiled with
  | clause hkind hclause hitems =>
      rcases hitems.whole item ((File.items_ofItems_perm ..).mem_iff.1 hitem) with
        hbad | ⟨first, last, hfirst, hcovers⟩
      · exact .inl hbad
      · exact .inr ⟨first, last, hclause.reaches.trans hfirst, hcovers⟩
  | noClause hitems => exact hitems.whole item ((File.items_ofItems_perm ..).mem_iff.1 hitem)

/-- Without bad nodes there is a package clause. -/
theorem clauseTokens_eq (hfiled : Filed start file stop)
    (hbad : ∀ item ∈ file.items, item.badNodes = []) :
    file.clauseTokens = [file.package, file.name] := by
  cases hfiled with
  | clause hkind _ _ => simp [File.clauseTokens, File.ofItems, hkind]
  | noClause _ =>
      have hfirst := hbad _ ((File.items_ofItems_perm ..).mem_iff.2 List.mem_cons_self)
      exact absurd hfirst (List.cons_ne_nil _ _)

end Filed

end OriSyntax.Grammar
