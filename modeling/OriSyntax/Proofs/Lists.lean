import OriSyntax.Proofs.Progress

/-!
Lists of items in delimiters, whatever the items are.  What is true of every entry is true
of all that is gathered, and a list that could be read ends with the delimiter that closes
it: the loop over its entries leaves at no other token.
-/

namespace OriSyntax.Grammar

variable {α β : Type} {holds : α → Prop} {entry : Production α} {found : List α}

theorem failList_makes {makes : β → Prop} (message : String) :
    MakesOrFails makes (failList message) :=
  .after fun _ => .failHere _

theorem commaPass_makes (noun : String) (hentry : MakesOrFails holds entry)
    (hfound : ∀ item ∈ found, holds item) :
    MakesOrFails (Gathered fun items => ∀ item ∈ items, holds item)
      (commaPass noun entry found) := by
  refine .after fun _ => .ite (.pure hfound) (.ite (.after fun _ => .failHere _) ?_)
  apply MakesOrFails.bind hentry
  intro item hitem
  have hitems := List.forall_mem_cons.2 ⟨hitem, hfound⟩
  refine .after fun _ => .ite ?_ (.ite (.pure hitems) (failList_makes _))
  exact .after fun _ => .after fun _ => .ite (failList_makes _) (.pure hitems)

theorem restOfList_makes (noun : String) (opening : Token)
    (hentry : MakesOrFails holds entry) :
    MakesOrFails (fun list => ∀ item ∈ list.items, holds item)
      (restOfList noun opening entry) := by
  have hlist : MakesOrFails (fun items => ∀ item ∈ items, holds item)
      (commaList noun entry) := by
    refine .after fun _ => .ite (failList_makes _) ?_
    refine .bind (.repeatProduction (fun _ => commaPass_makes noun hentry)
      fun _ hnil => nomatch hnil) fun items hitems => .pure ?_
    exact fun item hitem => hitems item (List.mem_reverse.1 hitem)
  exact .bind (hlist.onFailure _) fun items hitems => .after fun _ => .pure hitems

theorem memberPass_makes (hentry : MakesOrFails holds entry)
    (hfound : ∀ item ∈ found, holds item) :
    MakesOrFails (Gathered fun items => ∀ item ∈ items, holds item)
      (memberPass entry found) := by
  refine .after fun _ => .ite (.pure hfound) (.ite (.after fun _ => .failHere _) (.ite ?_ ?_))
  · exact .after fun _ => .pure hfound
  · have hmember : MakesOrFails holds (do
        let item ← entry
        memberEnd
        return item) :=
      .bind hentry fun item hitem => .after fun _ => .pure hitem
    exact .bind (hmember.onFailure _) fun item hitem =>
      .pure (List.forall_mem_cons.2 ⟨hitem, hfound⟩)

theorem members_makes (hentry : MakesOrFails holds entry) :
    MakesOrFails (fun body => ∀ item ∈ body.items, holds item) (members entry) := by
  refine .after fun _ => .bind (.repeatProduction (fun _ => memberPass_makes hentry)
    fun _ hnil => nomatch hnil) fun items hitems => .after fun _ => .pure ?_
  exact fun item hitem => hitems item (List.mem_reverse.1 hitem)

/-- The last pass over a comma list stands at the closing parenthesis. -/
theorem commaPass_ends (noun : String) (entry : Production α) (found : List α) :
    Yields (fun _ => True) (commaPass noun entry found)
      (Turns (fun _ _ => True) fun _ => Facing .rparen) fun _ _ => True := by
  apply Yields.bind (.lift currentKind_meets)
  intro kind
  split
  · next hkind =>
      apply Yields.pure
      intro state hstate
      exact hstate.2.symm.trans hkind
  split
  · exact .bind (.lift .top) fun _ => .bind (.lift .top) fun _ => .throw fun _ _ => trivial
  · have hfails (message : String) : Yields (fun _ => True)
        (failList message : Production (ForInStep (List α)))
        (Turns (fun _ _ => True) fun _ => Facing .rparen) fun _ _ => True :=
      .bind (.lift .top) fun _ => .bind (.lift .top) fun _ => .throw fun _ _ => trivial
    refine .bind (.strengthen MakesOrFails.any fun _ _ => trivial) fun item => ?_
    refine .bind (.lift .top) fun kind => ?_
    split
    · refine .bind (.lift .top) fun _ => .bind (.lift .top) fun _ => ?_
      split
      · exact hfails _
      · exact .pure fun _ _ => trivial
    split
    · exact .pure fun _ _ => trivial
    · exact hfails _

/-- A comma list that could be read ends before the closing parenthesis. -/
theorem commaList_ends (noun : String) (hentry : Orderly entry.run) :
    Yields (fun _ => True) (commaList noun entry) (fun _ => Facing .rparen) fun _ _ => True := by
  have hitems : Yields (fun _ => True) (repeatProduction (commaPass noun entry) [])
      (fun _ => Facing .rparen) fun _ _ => True :=
    .repeatProduction (commaPass_gains noun hentry) (commaPass_ends noun entry) []
  apply Yields.bind (.lift .top)
  intro kind
  split
  · exact .bind (.lift .top) fun _ => .bind (.lift .top) fun _ => .throw fun _ _ => trivial
  · exact .bind hitems fun _ => .pure fun _ hstate => hstate

theorem restOfList_closes (noun : String) (opening : Token) (hentry : Orderly entry.run) :
    MakesOrFails (fun list => list.opening = opening ∧ list.closing.kind = .rparen)
      (restOfList noun opening entry) := by
  refine Yields.bind (.onFailure (commaList_ends noun hentry) fun _ => .top) fun items => ?_
  exact MakesOrFailsAt.bind (.lift (advance_makes fun _ hstate => hstate)) fun closing hclosing =>
    .pure ⟨rfl, hclosing⟩

/-- The last pass over the members of a type stands at the closing brace. -/
theorem memberPass_ends (member : Production α) (found : List α) :
    Yields (fun _ => True) (memberPass member found)
      (Turns (fun _ _ => True) fun _ => Facing .rbrace) fun _ _ => True := by
  apply Yields.bind (.lift currentKind_meets)
  intro kind
  split
  · next hkind =>
      apply Yields.pure
      intro state hstate
      exact hstate.2.symm.trans hkind
  split
  · exact .bind (.lift .top) fun _ => .bind (.lift .top) fun _ => .throw fun _ _ => trivial
  split
  · exact .bind (.lift .top) fun _ => .pure fun _ _ => trivial
  · exact .bind (.strengthen MakesOrFails.any fun _ _ => trivial) fun _ => .pure fun _ _ => trivial

/-- The members of a type that could be read end before the closing brace. -/
theorem memberList_ends (hmember : ConsumesOrFails entry) :
    Yields (fun _ => True) (repeatProduction (memberPass entry) []) (fun _ => Facing .rbrace)
      fun _ _ => True :=
  .repeatProduction (memberPass_gains hmember) (memberPass_ends entry) []

theorem members_closes (hmember : ConsumesOrFails entry) :
    MakesOrFails (fun body => body.opening.kind = .lbrace ∧ body.closing.kind = .rbrace)
      (members entry) := by
  refine .bind (expectAs_makes _ _ _) fun opening hopening =>
    Yields.bind (memberList_ends hmember) fun items => ?_
  exact MakesOrFailsAt.bind (.lift (advance_makes fun _ hstate => hstate)) fun closing hclosing =>
    .pure ⟨hopening, hclosing⟩

end OriSyntax.Grammar
