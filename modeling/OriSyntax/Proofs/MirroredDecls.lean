import OriSyntax.Proofs.MirroredExprs

/-!
Declarations of types and values in two coupled runs.  A body in braces that could be read
ends before its closing brace, so its members are compared where the first run must not come
to its end.
-/

namespace OriSyntax.Grammar

variable {α : Type} {c : Coupling} {tight : Bool} {known : Prop} {here : State → Prop}
  {pre : State → State → Prop} {nested : Nested}

open MirrorsFrom

theorem memberEnd_mirrors (hconfined : known → c.Confined tight) :
    MirrorsOrFailsAt c tight known here memberEnd memberEnd fun _ _ => True := by
  refine .run_step (.kind_confined hconfined fun kind => ?_)
  refine .run_step (.bind (opensLine_mirrors hconfined) fun line line' => ?_)
  exact .run_ite (fun hknown => by rw [hknown.2]) (fun _ => .run_pure fun _ => trivial)
    fun _ => failExpected_mirrors _ _

section Members

variable {member : Production α} {rel : α → α → Prop}
  (hmember : MirrorsOrFails c true True member member rel)
include hmember

theorem memberPass_mirrors (found found' : List α) :
    MirrorsOrFails c true (known ∧ List.Forall₂ rel found found') (memberPass member found)
      (memberPass member found') (Turn (List.Forall₂ rel)) := by
  refine .run_step (.kind_confined (fun _ => .inr rfl) fun kind => ?_)
  refine .run_ite (fun _ => .rfl) (fun _ => .run_pure fun hknown => .done hknown.2) fun _ => ?_
  refine .run_ite (fun _ => .rfl) (fun _ => failExpected_mirrors _ _) fun hkind => ?_
  refine .run_ite (fun _ => .rfl) (fun _ => ?_) fun _ => ?_
  · exact .run_bind (.run_lift (advance_mirrors (inside_of_facing hkind))) fun _ _ =>
      .run_pure fun hknown => .yield hknown.1.2
  · have hitem : MirrorsOrFailsAt c true (known ∧ List.Forall₂ rel found found') (Facing kind)
        (do
          let item ← member
          memberEnd
          return item)
        (do
          let item ← member
          memberEnd
          return item) rel :=
      .run_bind hmember.anyhow fun _ _ => .run_bind (memberEnd_mirrors fun _ => .inr rfl)
        fun _ _ => .run_pure fun hknown => hknown.1.2
    exact .run_bind (skipping_mirrors _ hitem) fun _ _ =>
      .run_pure fun hknown => .yield (.cons hknown.2 hknown.1.2)

variable (hconsumes : ConsumesOrFails member) (haloud : FailsAloud member)
include hconsumes haloud

theorem members_mirrors :
    MirrorsOrFailsAt c tight known here (members member) (members member)
      (Enclosed.Alike c.like rel) := by
  refine .run_bind (expectAs_mirrors _ _ rfl) fun opening opening' => ?_
  refine .run_bind_inside
    (repeatProduction_mirrors (memberPass_gains hconsumes) (memberPass_mirrors hmember)
      fun _ => .nil)
    (.repeatProduction (memberPass_gains hconsumes) (memberPass_failsAloud haloud) [])
    ((memberList_ends hconsumes).strengthen fun _ _ => trivial)
    (fun _ => inside_of_facing (by decide)) fun items items' => ?_
  refine .run_bind (.run_lift (advance_mirrors_facing (by decide))) fun closing closing' =>
    .run_pure ?_
  rintro ⟨⟨⟨hknown, hopening⟩, hitems⟩, hclosing⟩
  exact .intro hopening.tied (List.rel_reverse hitems) hclosing.tied

variable {typeKeyword typeKeyword' name name' : Token}
  (htypeKeyword : known → c.word typeKeyword typeKeyword') (hname : known → c.word name name')
include htypeKeyword hname

theorem typeBody_mirrors :
    MirrorsOrFailsAt c tight known Inside (typeBody typeKeyword name member)
      (typeBody typeKeyword' name' member) (TypeDecl.Alike c.like rel) := by
  refine .run_bind (.run_lift (advance_mirrors fun _ hstate => hstate)) fun keyword keyword' => ?_
  refine .run_bind (members_mirrors hmember hconsumes haloud) fun body body' => .run_pure ?_
  rintro ⟨⟨hknown, hkeyword⟩, hbody⟩
  exact .intro (htypeKeyword hknown).tied (hname hknown).tied hkeyword.tied hbody

theorem nonemptyBody_mirrors (what : String) :
    MirrorsOrFailsAt c tight known Inside (nonemptyBody what typeKeyword name member)
      (nonemptyBody what typeKeyword' name' member) (TypeDecl.Alike c.like rel) := by
  refine .run_bind (typeBody_mirrors hmember hconsumes haloud htypeKeyword hname)
    fun decl decl' => ?_
  have hbody (hknown : known ∧ TypeDecl.Alike c.like rel decl decl') :
      Enclosed.Alike c.like rel decl.body decl'.body := by
    cases hknown.2 with
    | intro htypeKeyword hname hkeyword hbody => exact hbody
  refine .run_ite (fun hknown => ?_) (fun _ => fail_mirrors fun hknown htogether => ?_)
    fun _ => .run_pure fun hknown => hknown.2
  · have hlength := (hbody hknown).items.length_eq
    rw [List.isEmpty_iff_length_eq_zero, List.isEmpty_iff_length_eq_zero, hlength]
  · have hclosing := (hbody hknown).closing
    refine ⟨⟨rfl, rfl, ?_, hclosing, rfl⟩, (htypeKeyword hknown.1).tied, hclosing⟩
    simp [Diagnostic.emptyType, (hname hknown.1).tied.value]

end Members

theorem interfaceMember_mirrors (hconfined : known → c.Confined tight) :
    MirrorsOrFailsAt c tight known here interfaceMember interfaceMember
      (InterfaceMember.Alike c.like) := by
  refine .run_step (.kind_or_reports (fun kind => ?_) ?_)
  · refine .run_step (.look (·.cursor.kindAt 1) (·.cursor.kindAt 1)
      (fun second second' => kind = .ident → (second = .lparen ↔ second' = .lparen)) ?_ ?_)
    · rintro hknown state state' ⟨hrelates, hfacing⟩ rfl
      refine (hrelates.kindAt 1 (.inr ?_)).eq_iff rfl
      exact (inside_of_facing (by decide) state hfacing).remaining_pos
    · intro second second'
      refine .run_ite (fun hknown => ?_) (fun hcondition => ?_) fun _ => ?_
      · simp only [Bool.and_eq_true, decide_eq_true_eq]
        exact and_congr_right hknown.2
      · simp only [Bool.and_eq_true, decide_eq_true_eq] at hcondition
        obtain rfl := hcondition.1
        refine .run_bind (.run_lift (advance_mirrors fun state hstate => ?_)) fun name name' => ?_
        · exact inside_of_facing (by decide) state hstate.1
        refine .run_bind (paramList_mirrors true) fun params params' => ?_
        refine .run_bind (results_mirrors fun hknown => hconfined hknown.1.1.1) fun _ _ =>
          .run_pure fun hknown => .method hknown.1.1.2.tied hknown.1.2 hknown.2
      · exact .run_bind (qualifiedName_mirrors _) fun name name' =>
          .run_pure fun hknown => .embed hknown.2
  · refine .run_look fun _ => .run_ite (fun hcondition => by simp at hcondition) fun _ => ?_
    have hname : Reports (Facing .eof) (expectName "interface name").run :=
      expectAs_reports _ _ fun state hstate => by simp [show state.cursor.kind = .eof from hstate]
    refine .run_bind (.run_bind (hname.strengthen fun _ hstate => hstate.1) fun _ => ?_)
      fun _ => .run_pure _
    refine .run_bind (.run_lift (accept?_orderly _)) fun dot => ?_
    cases dot with
    | some dot => exact .run_bind (expectAs_orderly _ _ _) fun _ => .run_pure _
    | none => exact .run_pure _

theorem sumVariant_mirrors :
    MirrorsOrFailsAt c tight known here sumVariant sumVariant (SumVariant.Alike c.like) := by
  refine .run_bind (expectName_mirrors _) fun name name' => .run_ifKind rfl ?_ ?_
  · exact .run_bind (paramList_mirrors true) fun params params' =>
      .run_pure fun hknown => .intro hknown.1.2.tied (.some hknown.2)
  · exact .run_pure fun hknown => .intro hknown.2.tied .none

section Declarations

variable (hnested : nested.Mirrors c)
include hnested

theorem field_mirrors :
    MirrorsOrFailsAt c tight known here (field nested) (field nested)
      (FieldDecl.Alike c.like) := by
  refine .run_bind (expectName_mirrors _) fun name name' => ?_
  refine .run_bind (.run_lift (typeName_mirrors rfl _)) fun type type' => ?_
  refine .run_step (accept?_bind rfl (fun eq eq' => ?_) ?_)
  · refine .run_bind (run_expr_mirrors hnested _) fun value value' => .run_pure ?_
    rintro ⟨⟨⟨⟨hknown, hname⟩, htype⟩, heq⟩, hvalue⟩
    exact .intro hname.tied htype (.some (.intro heq.tied hvalue))
  · exact .run_pure fun hknown => .intro hknown.1.2.tied hknown.2 .none

/-- A type declaration, read from its keyword on. -/
theorem typeDecl_mirrors
    (hpre : ∀ state state', pre state state' → c.Near state state' ∧ Inside state) :
    MirrorsFrom c tight known pre (typeDecl nested).run (typeDecl nested).run
      (Outcome c (Decl.Alike c.like)) := by
  refine .run_bind (.run_lift (advance_mirrorsFrom hpre)) fun typeKeyword typeKeyword' => ?_
  refine .run_bind (expectName_mirrors _) fun name name' => ?_
  refine covering_mirrors (.run_step (.kind_or_reports (fun kind => ?_) ?_))
    fun hknown => hknown.1.2
  · have hinside (hkind : kind ≠ .eof) := inside_of_facing hkind
    split
    · refine .run_bind (.strengthen (typeBody_mirrors (field_mirrors hnested)
        (field_consumesOrFails hnested.orderly) (field_accounts hnested.accounts).failsAloud
        (fun hknown => hknown.1.2) fun hknown => hknown.2) (hinside (by decide))) fun _ _ => ?_
      exact .run_pure fun hknown => .struct hknown.2
    · refine .run_bind (.strengthen (typeBody_mirrors
        (interfaceMember_mirrors fun _ => .inr rfl) interfaceMember_consumesOrFails
        interfaceMember_accounts.failsAloud (fun hknown => hknown.1.2) fun hknown => hknown.2)
        (hinside (by decide))) fun _ _ => ?_
      exact .run_pure fun hknown => .interface hknown.2
    · have hvariant : MirrorsOrFails c true True (expectName "enum variant")
          (expectName "enum variant") c.like.token :=
        (expectName_mirrors _).weaken fun _ _ _ houtcome =>
          houtcome.mono fun _ _ hword => hword.tied
      refine .run_bind (.strengthen (nonemptyBody_mirrors hvariant (expectName_consumesOrFails _)
        (expectAs_failsAloud _ _ (.inl rfl)) (fun hknown => hknown.1.2) (fun hknown => hknown.2) _)
        (hinside (by decide))) fun _ _ => ?_
      exact .run_pure fun hknown => .enum hknown.2
    · refine .run_bind (.strengthen (nonemptyBody_mirrors sumVariant_mirrors
        sumVariant_consumesOrFails sumVariant_accounts.failsAloud (fun hknown => hknown.1.2)
        (fun hknown => hknown.2) _) (hinside (by decide))) fun _ _ => ?_
      exact .run_pure fun hknown => .sum hknown.2
    · exact failExpected_mirrors _ _
  · exact .failExpected _ _

/-- A declaration of a value, read from its keyword on. -/
theorem valueDecl_mirrors (what : String)
    (hpre : ∀ state state', pre state state' → c.Near state state' ∧ Inside state) :
    MirrorsFrom c tight known pre (valueDecl nested what).run (valueDecl nested what).run
      (Outcome c (ValueDecl.Alike c.like)) := by
  refine .run_bind (.run_lift (advance_mirrorsFrom hpre)) fun keyword keyword' => ?_
  refine .run_bind (expectName_mirrors _) fun name name' => ?_
  refine .run_bind (unlessAt_mirrors rfl (.run_lift (typeName_mirrors rfl _))) fun type type' => ?_
  refine .run_bind (expectAs_mirrors _ _ rfl) fun eq eq' => ?_
  refine .run_bind (run_expr_mirrors hnested _) fun value value' => .run_pure ?_
  rintro ⟨⟨⟨⟨⟨hknown, hkeyword⟩, hname⟩, htype⟩, heq⟩, hvalue⟩
  exact .intro hkeyword.tied hname.tied htype heq.tied hvalue

end Declarations

end OriSyntax.Grammar
