import OriSyntax.Proofs.Lists
import OriSyntax.Proofs.Shapes

/-!
Shapes of types, expressions and declarations, whatever the tokens are.  A production is
called at a token of a known kind, reads tokens of the kinds that it asks for, and hands on
a bad node when it finds others; so a node is either bad or as its form wants it.
-/

namespace OriSyntax.Grammar

variable {α : Type} {nested : Nested}

/-- What the productions of a level make has its shape.  A further branch of a condition is
read only at its keyword. -/
structure Nested.Shapes (nested : Nested) : Prop where
  expr : ∀ least, Makes Expr.Shaped (nested.expr least)
  stmt : Makes (fun stmt => stmt.inBody ∧ stmt.Shaped) nested.stmt
  ifElse : MakesOrFailsAt (Facing .ifKw) (fun stmt => stmt.isElse ∧ stmt.Shaped) nested.ifElse

theorem expect_makes (kind : Kind) (what : String) :
    MakesOrFails (·.kind = kind) (expect kind what) :=
  expectAs_makes _ kind what

theorem expectName_makes (what : String) : MakesOrFails (·.kind = .ident) (expectName what) :=
  expectAs_makes _ .ident what

/-- A token is read where its kind is known. -/
theorem advance_makes_kind (kind : Kind) : MakesAt (Facing kind) (·.kind = kind) advance :=
  advance_makes fun _ hkind => hkind

theorem advance_makes_seen {here : State → Prop} (kind : Kind) :
    MakesAt (fun state => here state ∧ kind = state.cursor.kind) (·.kind = kind) advance :=
  advance_makes fun _ hstate => hstate.2.symm

theorem accept?_makes (kind : Kind) :
    Makes (fun found => ∀ token ∈ found, token.kind = kind) (accept? kind) := by
  apply MakesAt.look
  intro seen
  apply MakesAt.ite
  · intro hseen
    apply MakesAt.bind (advance_makes_seen seen)
    intro token htoken
    apply Makes.pure
    intro other hother
    rw [← Option.mem_some_iff.1 hother, htoken, hseen]
  · exact fun _ => .of_makes (.pure fun _ hnone => nomatch hnone)

theorem typeName_makes (accepts : Kind → Bool) (what : String) :
    Makes (TypeExpr.Shaped accepts) (typeName accepts what) := by
  apply MakesAt.look
  intro seen
  apply MakesAt.ite
  · intro haccepts
    apply MakesAt.bind (advance_makes_seen seen)
    intro token htoken
    rw [← htoken] at haccepts
    exact .pure haccepts
  · exact fun _ => .of_makes (.after fun _ => .after fun _ => .after fun _ => .pure trivial)

theorem paramName_makes (named : Bool) :
    MakesOrFails (fun name => name.isSome = named ∧ ∀ token ∈ name, token.kind = .ident)
      (paramName named) := by
  cases named with
  | true =>
      apply MakesOrFails.bind (expectName_makes _)
      intro name hname
      exact .pure ⟨rfl, fun token htoken => Option.mem_some_iff.1 htoken ▸ hname⟩
  | false => exact .pure ⟨rfl, fun _ hnone => nomatch hnone⟩

theorem param_makes (named : Bool) : MakesOrFails (Param.Shaped named) (param named) := by
  apply MakesOrFails.bind (paramName_makes named)
  intro name hname
  apply MakesOrFails.bind (.lift (typeName_makes _ _))
  intro type htype
  exact .pure ⟨hname.1, hname.2, htype⟩

/-- A list in parentheses behind its opening one. -/
theorem restOfList_shapes {holds : α → Prop} {entry : Production α} (noun : String)
    (opening : Token) (hentry : MakesOrFails holds entry) (horderly : Orderly entry.run) :
    MakesOrFails (fun list => (∀ item ∈ list.items, holds item) ∧ list.opening = opening ∧
      list.closing.kind = .rparen) (restOfList noun opening entry) :=
  (restOfList_makes noun opening hentry).and (restOfList_closes noun opening horderly)

theorem paramList_makes (named : Bool) :
    MakesOrFails (ParamList.Shaped named) (paramList named) := by
  apply MakesOrFails.bind (expect_makes _ _)
  intro opening hopening
  have hrest := restOfList_shapes "parameter" opening (param_makes named) (param_orderly named)
  apply MakesOrFails.onFailure
  apply hrest.weaken
  intro params hparams
  obtain ⟨hitems, hfirst, hclosing⟩ := hparams
  exact ⟨hfirst ▸ hopening, hitems, hclosing⟩

theorem results_makes : MakesOrFails (fun found => ∀ results ∈ found, results.Shaped) results := by
  have hsome {found : Results} (hfound : found.Shaped) : ∀ results ∈ some found, results.Shaped :=
    fun _ hresults => Option.mem_some_iff.1 hresults ▸ hfound
  apply MakesOrFails.after
  intro ends
  apply MakesOrFails.ite
  · exact .pure fun _ hnone => nomatch hnone
  apply MakesOrFails.after
  intro kind
  apply MakesOrFails.ite
  · apply MakesOrFails.after
    intro second
    apply MakesOrFails.bind (paramList_makes _)
    intro params hparams
    exact .pure (hsome ⟨_, hparams⟩)
  · apply MakesOrFails.bind (.lift (typeName_makes _ _))
    intro type htype
    exact .pure (hsome htype)

theorem qualifiedName_makes (what : String) :
    MakesOrFails QualifiedName.WellFormed (qualifiedName what) := by
  apply MakesOrFails.bind (expectName_makes what)
  intro first hfirst
  apply MakesOrFails.bind (.lift (accept?_makes .dot))
  intro dot hdot
  cases dot with
  | some dot =>
      apply MakesOrFails.bind (expectName_makes what)
      intro name hname
      apply MakesOrFails.pure
      refine ⟨fun qualifier hqualifier => ?_, hname⟩
      obtain rfl := Option.mem_some_iff.1 hqualifier
      exact ⟨hfirst, hdot dot rfl⟩
  | none => exact .pure ⟨(fun _ hnone => nomatch hnone), hfirst⟩

section Expressions

variable (hnested : nested.Shapes)
include hnested

theorem parenthesized_shapes :
    MakesOrFailsAt (Facing .lparen) Expr.Shaped (parenthesized nested) := by
  apply MakesOrFailsAt.bind (.lift (advance_makes_kind .lparen))
  intro opening hopening
  apply MakesOrFails.after
  intro kind
  apply MakesOrFails.ite
  · exact .after fun _ => .after fun _ => .fail _ _ _
  · apply MakesOrFails.bind (.lift (hnested.expr _))
    intro inner hinner
    apply MakesOrFails.bind ((expect_makes _ _).onFailure _)
    intro closing hclosing
    apply MakesOrFails.pure
    rw [Expr.Shaped]
    exact ⟨hopening, hinner, hclosing⟩

theorem operand_shapes : MakesOrFails Expr.Shaped (operand nested) := by
  -- Apart from parentheses and signs an operand is one token, whose kind was seen.
  have hsingle (kind : Kind) (make : Token → Expr)
      (hmake : ∀ token, token.kind = kind → (make token).Shaped) :
      MakesOrFailsAt (fun state => True ∧ kind = state.cursor.kind) Expr.Shaped
        (do return make (← advance)) := by
    apply MakesOrFailsAt.bind (.lift (advance_makes_seen kind))
    intro token htoken
    exact .pure (hmake token htoken)
  have hliteral (sort : LiteralSort) (token : Token) (hkind : token.kind = sort.kind) :
      (Expr.literal sort token).Shaped := by
    rw [Expr.Shaped]
    exact hkind
  have hunary (kind : Kind) (hkind : kind.isUnaryOp) :
      MakesOrFailsAt (fun state => True ∧ kind = state.cursor.kind) Expr.Shaped (do
        let op ← advance
        return .unary op (← nested.expr .suffix)) := by
    apply MakesOrFailsAt.bind (.lift (advance_makes_seen kind))
    intro op hop
    apply MakesOrFails.bind (.lift (hnested.expr _))
    intro inner hinner
    apply MakesOrFails.pure
    rw [Expr.Shaped, hop]
    exact ⟨hkind, hinner⟩
  apply MakesOrFailsAt.look
  intro kind
  split
  · exact hsingle .ident .ident fun _ hkind => by simpa [Expr.Shaped] using hkind
  · exact hsingle .intLit (.literal .int) (hliteral .int)
  · exact hsingle .floatLit (.literal .float) (hliteral .float)
  · exact hsingle .boolLit (.literal .bool) (hliteral .bool)
  · exact hsingle .stringLit (.literal .string) (hliteral .string)
  · exact (parenthesized_shapes hnested).strengthen fun _ hstate => hstate.2.symm
  · exact hunary .minus rfl
  · exact hunary .not rfl
  · exact .of_makes (.after fun _ => .after fun _ => .after fun _ => .throw _)

variable {left : Expr} (hleft : left.Shaped)
include hleft

theorem binary_shapes (level : Precedence) :
    MakesAt (fun state => state.cursor.kind.isBinaryOp) Expr.Shaped
      (binary nested left level) := by
  have hadvance : MakesAt (fun state => state.cursor.kind.isBinaryOp) (·.kind.isBinaryOp)
      advance := advance_makes fun _ hkind => hkind
  apply MakesAt.bind hadvance
  intro op hop
  apply Makes.bind (hnested.expr _)
  intro right hright
  apply Makes.ite
  · exact .after fun _ => .pure (Expr.shaped_bad _)
  · apply Makes.pure
    rw [Expr.Shaped]
    exact ⟨hleft, hop, hright⟩

theorem suffix_shapes (horderly : nested.Orderly) :
    MakesOrFailsAt (fun state => state.cursor.kind.isSuffix) Expr.Shaped (suffix nested left) := by
  have hadvance : MakesAt (fun state => state.cursor.kind.isSuffix) (·.kind.isSuffix)
      advance := advance_makes fun _ hkind => hkind
  apply MakesOrFailsAt.bind (.lift hadvance)
  intro opening hopening
  split
  · next hdot =>
      apply MakesOrFails.bind (expectName_makes _)
      intro name hname
      apply MakesOrFails.pure
      rw [Expr.Shaped]
      exact ⟨hleft, hdot, hname⟩
  split
  · next hbracket =>
      apply MakesOrFails.bind (.lift (hnested.expr _))
      intro inner hinner
      apply MakesOrFails.bind (expect_makes _ _)
      intro closing hclosing
      apply MakesOrFails.pure
      rw [Expr.Shaped]
      exact ⟨hleft, hbracket, hinner, hclosing⟩
  · next hdot hbracket =>
      apply MakesOrFails.bind
        (restOfList_shapes _ opening (.lift (hnested.expr _)) (horderly.expr _))
      intro args hargs
      obtain ⟨first, items, closing⟩ := args
      obtain ⟨hitems, rfl, hclosing⟩ := hargs
      apply MakesOrFails.pure
      rw [Expr.Shaped, Expr.shapedAll_iff]
      exact ⟨hleft, Kind.eq_lparen_of_isSuffix hopening hdot hbracket, hitems, hclosing⟩

theorem exprPass_shapes (horderly : nested.Orderly) (least : Precedence) :
    Makes (Gathered Expr.Shaped) (exprPass nested least left) := by
  apply MakesAt.look
  intro kind
  apply MakesAt.look
  intro line
  apply MakesAt.ite
  · exact fun _ => .of_makes (.pure hleft)
  intro hmore
  have hseen {accepts : Kind → Bool} (hkind : accepts kind) (state : State)
      (hstate : (True ∧ kind = state.cursor.kind) ∧ line = state.cursor.opensLine) :
      accepts state.cursor.kind := by
    rw [← hstate.1.2]
    exact hkind
  apply MakesAt.ite
  · intro hsuffix
    apply MakesAt.bind_run ((suffix_shapes hnested hleft horderly).strengthen (hseen hsuffix))
    · exact fun expr hexpr => .pure hexpr
    · exact fun bad => .after fun _ => .pure (by simp [Gathered])
  · intro hsuffix
    have hbinary : kind.isBinaryOp := by
      simp only [Bool.or_eq_true, not_or, decide_eq_true_eq] at hmore
      rw [Kind.isBinaryOp, Bool.and_eq_true]
      exact ⟨decide_eq_true hmore.1.1, by simpa using hsuffix⟩
    apply MakesAt.bind ((binary_shapes hnested hleft kind.precedence).strengthen (hseen hbinary))
    exact fun expr hexpr => .pure hexpr

omit hleft in
theorem exprInside_shapes (horderly : nested.Orderly) (least : Precedence) :
    Makes Expr.Shaped (exprInside nested least) := by
  apply Makes.bind_run (operand_shapes hnested)
  · intro left hleft
    exact .repeatStep (fun _ hleft => exprPass_shapes hnested hleft horderly least) hleft
  · exact fun bad => .pure (Expr.shaped_bad bad)

omit hleft in
/-- A list without delimiters has an expression, since its first pass reads one. -/
theorem exprList_shapes (horderly : nested.Orderly) :
    Makes (fun exprs => exprs ≠ [] ∧ Expr.ShapedAll exprs) (exprList nested) := by
  have hpass (found : List Expr) : Meets (fun _ => ∀ expr ∈ found, expr.Shaped)
      (exprListPass nested found) (Turns (fun found _ => ∀ expr ∈ found, expr.Shaped)
        fun found _ => found ≠ [] ∧ ∀ expr ∈ found, expr.Shaped) := by
    intro start hfound
    have hmakes : Makes (fun step => Turns (fun found _ => ∀ expr ∈ found, expr.Shaped)
        (fun found _ => found ≠ [] ∧ ∀ expr ∈ found, expr.Shaped) step start)
        (exprListPass nested found) := by
      apply Makes.bind (hnested.expr _)
      intro expr hexpr
      have hexprs := List.forall_mem_cons.2 ⟨hexpr, hfound⟩
      apply Makes.after
      intro comma
      cases comma with
      | some comma => exact .pure hexprs
      | none => exact .pure ⟨List.cons_ne_nil _ _, hexprs⟩
    have hturn := hmakes start trivial
    generalize (exprListPass nested found).run start = result at hturn ⊢
    obtain ⟨step, stop⟩ := result
    cases step <;> exact hturn
  refine Meets.bind ((Meets.repeatStep (exprListPass_gains horderly) hpass []).strengthen ?_) ?_
  · exact fun _ _ _ hnil => nomatch hnil
  · intro found
    refine Meets.pure fun _ hfound => ⟨fun hnil => hfound.1 (List.reverse_eq_nil_iff.1 hnil), ?_⟩
    exact Expr.shapedAll_iff.2 fun expr hexpr => hfound.2 expr (List.mem_reverse.1 hexpr)

end Expressions

section Declarations

/-- The keyword and the body of a type, in front of the keyword. -/
theorem typeBody_shapes {holds : α → Prop} {member : Production α} {typeKeyword name : Token}
    (htype : typeKeyword.kind = .typeKw) (hname : name.kind = .ident) (kind : Kind)
    (hmember : MakesOrFails holds member) (hreads : ConsumesOrFails member) :
    MakesOrFailsAt (fun state => True ∧ kind = state.cursor.kind)
      (TypeDecl.WellFormed kind holds) (typeBody typeKeyword name member) := by
  apply MakesOrFailsAt.bind (.lift (advance_makes_seen kind))
  intro keyword hkeyword
  apply MakesOrFails.bind ((members_makes hmember).and (members_closes hreads))
  intro body hbody
  obtain ⟨hitems, hopening, hclosing⟩ := hbody
  exact .pure ⟨htype, hname, hkeyword, hopening, hitems, hclosing⟩

theorem nonemptyBody_shapes {holds : α → Prop} {member : Production α}
    {typeKeyword name : Token} (what : String) (htype : typeKeyword.kind = .typeKw)
    (hname : name.kind = .ident) (kind : Kind) (hmember : MakesOrFails holds member)
    (hreads : ConsumesOrFails member) :
    MakesOrFailsAt (fun state => True ∧ kind = state.cursor.kind)
      (fun decl => TypeDecl.WellFormed kind holds decl ∧ decl.body.items ≠ [])
      (nonemptyBody what typeKeyword name member) := by
  apply MakesOrFailsAt.bind (typeBody_shapes htype hname kind hmember hreads)
  intro decl hdecl
  split
  · exact .fail _ _ _
  · next hitems => exact .pure ⟨hdecl, fun hnil => hitems (List.isEmpty_iff.2 hnil)⟩

theorem interfaceMember_makes : MakesOrFails InterfaceMember.Shaped interfaceMember := by
  apply MakesOrFailsAt.look
  intro kind
  apply MakesOrFailsAt.look
  intro second
  apply MakesOrFailsAt.ite
  · intro hmethod
    have hkind : kind = .ident := by simp_all
    have hadvance : MakesAt (fun state => (True ∧ kind = state.cursor.kind) ∧
        second = state.cursor.kindAt 1) (·.kind = kind) advance :=
      advance_makes fun _ hstate => hstate.1.2.symm
    apply MakesOrFailsAt.bind (.lift hadvance)
    intro name hname
    apply MakesOrFails.bind (paramList_makes _)
    intro params hparams
    apply MakesOrFails.bind results_makes
    intro results hresults
    exact .pure ⟨hname.trans hkind, hparams, hresults⟩
  · intro _
    apply MakesOrFailsAt.of_makes
    apply MakesOrFails.bind (qualifiedName_makes _)
    intro name hname
    exact .pure hname

theorem sumVariant_makes : MakesOrFails SumVariant.Shaped sumVariant := by
  apply MakesOrFails.bind (expectName_makes _)
  intro name hname
  apply MakesOrFails.after
  intro kind
  apply MakesOrFails.ite
  · apply MakesOrFails.bind (paramList_makes _)
    intro params hparams
    exact .pure ⟨hname, fun _ hmem => Option.mem_some_iff.1 hmem ▸ hparams⟩
  · exact .pure ⟨hname, by simp⟩

variable (hnested : nested.Shapes)
include hnested

theorem field_shapes : MakesOrFails FieldDecl.Shaped (field nested) := by
  apply MakesOrFails.bind (expectName_makes _)
  intro name hname
  apply MakesOrFails.bind (.lift (typeName_makes _ _))
  intro type htype
  apply MakesOrFails.bind (.lift (accept?_makes .assign))
  intro eq heq
  cases eq with
  | some eq =>
      apply MakesOrFails.bind (.lift (hnested.expr _))
      intro value hvalue
      have hdefault : ∀ default ∈ some (Default.mk eq value),
          default.eq.kind = .assign ∧ default.value.Shaped := by
        intro default hmem
        obtain rfl := Option.mem_some_iff.1 hmem
        exact ⟨heq eq rfl, hvalue⟩
      exact .pure ⟨hname, htype, hdefault⟩
  | none => exact .pure ⟨hname, htype, by simp⟩

theorem typeDecl_shapes (horderly : nested.Orderly) :
    MakesOrFailsAt (Facing .typeKw) Decl.ShapedType (typeDecl nested) := by
  apply MakesOrFailsAt.bind (.lift (advance_makes_kind .typeKw))
  intro keyword hkeyword
  apply MakesOrFails.bind (expectName_makes _)
  intro name hname
  apply MakesOrFails.onFailure
  apply MakesOrFailsAt.look
  intro kind
  split
  · apply MakesOrFailsAt.bind (typeBody_shapes hkeyword hname .structKw
      (field_shapes hnested) (field_consumesOrFails horderly))
    exact fun decl hdecl => .pure hdecl
  · apply MakesOrFailsAt.bind (typeBody_shapes hkeyword hname .interfaceKw
      interfaceMember_makes interfaceMember_consumesOrFails)
    exact fun decl hdecl => .pure hdecl
  · apply MakesOrFailsAt.bind (nonemptyBody_shapes _ hkeyword hname .enumKw
      (expectName_makes _) (expectName_consumesOrFails _))
    exact fun decl hdecl => .pure hdecl
  · apply MakesOrFailsAt.bind (nonemptyBody_shapes _ hkeyword hname .sumKw
      sumVariant_makes sumVariant_consumesOrFails)
    exact fun decl hdecl => .pure hdecl
  · exact .of_makes (.after fun _ => .failHere _)

theorem valueDecl_shapes (keyword : Kind) (what : String) :
    MakesOrFailsAt (Facing keyword) (ValueDecl.Shaped keyword) (valueDecl nested what) := by
  apply MakesOrFailsAt.bind (.lift (advance_makes_kind keyword))
  intro keyword hkeyword
  apply MakesOrFails.bind (expectName_makes what)
  intro name hname
  have htype : MakesOrFails (TypeExpr.Shaped Kind.isValueType)
      (typeName Kind.isValueType "type") := .lift (typeName_makes _ _)
  apply MakesOrFails.bind (htype.unlessAt .assign)
  intro type htype
  apply MakesOrFails.bind (expect_makes _ _)
  intro eq heq
  apply MakesOrFails.bind (.lift (hnested.expr _))
  intro value hvalue
  exact .pure ⟨hkeyword, hname, htype, heq, hvalue⟩

end Declarations

end OriSyntax.Grammar
