import OriSyntax.Proofs.ExprComplete

/-!
Well-formed declarations are read back from their written form: types, parameter lists,
results, and the members of types.  Each production is followed along its slots up to the
token behind them, of which only the kind matters.
-/

namespace OriSyntax

/-- A kind of which a predicate holds is none of which it fails. -/
theorem Kind.ne_of_holds {holds : Kind → Bool} {kind other : Kind} (hkind : holds kind)
    (hother : holds other = false) : kind ≠ other := by
  rintro rfl
  rw [hkind] at hother
  exact nomatch hother

theorem Kind.not_mem_of_holds {holds : Kind → Bool} {kind : Kind} {kinds : List Kind}
    (hkind : holds kind) (hkinds : ∀ other ∈ kinds, holds other = false) : kind ∉ kinds :=
  fun hmem => Kind.ne_of_holds hkind (hkinds kind hmem) rfl

/-- The kind just behind some slots is that of the next token there. -/
theorem Cursor.Faces.kindAt_length {start last : Cursor} {slots : List Slot}
    (hfaces : start.Faces slots last) : start.kindAt slots.length = last.kind := by
  induction slots generalizing start with
  | nil =>
      obtain rfl := Cursor.faces_nil.1 hfaces
      cases hahead : last.ahead with
      | nil => simp [Cursor.kindAt, hahead, Cursor.kind_of_ahead_eq_nil]
      | cons token rest =>
          simp [Cursor.kindAt, hahead, Cursor.kind_of_ahead_eq_cons hahead]
  | cons slot rest ih =>
      have hnext := ih hfaces.next
      simpa [Cursor.kindAt, Cursor.ahead_eq_cons hfaces.kind_ne_eof] using hnext

namespace Grammar

variable {α β : Type} {nested : Nested} {start stop : State} {slot : Slot}
  {rest : List Slot} {cursor last : Cursor}

theorem typeName_gives {accepts : Kind → Bool} {type : TypeExpr} (what : String)
    (htype : type.Accepted accepts) (hfaces : cursor.Faces type.slots last) :
    Gives (typeName accepts what) (start.moveTo cursor) type (start.moveTo last) := by
  cases type with
  | named name =>
      obtain rfl := hfaces.current_token
      obtain rfl := Cursor.faces_nil.1 hfaces.next
      have haccepts : accepts cursor.kind := htype
      apply Gives.look rfl
      apply Gives.of_pos haccepts
      rfl
  | bad node => exact absurd htype id

/-- The written form of a type begins with a kind that is accepted. -/
theorem accepts_of_faces {accepts : Kind → Bool} {type : TypeExpr}
    (htype : type.Accepted accepts) (hfaces : cursor.Faces type.slots last) :
    accepts cursor.kind := by
  cases type with
  | named name =>
      rw [Cursor.Faces.kind_eq hfaces]
      exact htype
  | bad node => exact absurd htype id

theorem param_succeeds {named : Bool} {param : Param} (hparam : param.WellFormed named)
    (hfaces : cursor.Faces param.slots last) :
    Succeeds (Grammar.param named) (start.moveTo cursor) param (start.moveTo last) := by
  obtain ⟨name?, type⟩ := param
  obtain ⟨hnamed, hname, htype⟩ := hparam
  cases name? with
  | none =>
      obtain rfl : named = false := hnamed.symm
      apply Succeeds.bind (.pure none _)
      exact Succeeds.map (.lift (typeName_gives _ htype hfaces))
  | some name =>
      obtain rfl : named = true := hnamed.symm
      have hkind : cursor.kind = .ident := hfaces.kind_eq.trans (hname name rfl)
      obtain rfl : cursor.current = name := hfaces.current_token
      have hread : Succeeds (paramName true) (start.moveTo cursor) (some cursor.current)
          (start.moveTo cursor.next) :=
        Succeeds.map (readsNext_expectAs _ _ hkind)
      apply Succeeds.bind hread
      exact Succeeds.map (.lift (typeName_gives _ htype hfaces.next))

theorem readsEntry_param {named : Bool} {param : Param} (hparam : param.WellFormed named) :
    ReadsEntry (Grammar.param named) Param.slots start param := by
  constructor
  · obtain ⟨name?, type⟩ := param
    cases name? with
    | some name =>
        have hname : name.kind = .ident := hparam.name name rfl
        exact ⟨_, rfl, by rw [Slot.kind, hname]; decide, by rw [Slot.kind, hname]; decide⟩
    | none =>
        cases type with
        | named name =>
            exact ⟨_, rfl, Kind.ne_of_holds hparam.type rfl, Kind.ne_of_holds hparam.type rfl⟩
        | bad node => exact absurd hparam.type id
  · intro cursor last hfaces _
    exact param_succeeds hparam hfaces

theorem paramList_succeeds {named : Bool} {params : ParamList}
    (hparams : params.WellFormed named)
    (hfaces : cursor.Faces (params.listSlots Param.slots) last) :
    Succeeds (paramList named) (start.moveTo cursor) params (start.moveTo last) := by
  obtain ⟨opening, items, closing⟩ := params
  obtain ⟨hopening, hitems, hclosing⟩ := hparams
  have hkind : cursor.kind = .lparen := hfaces.kind_eq.trans hopening
  apply Succeeds.read (readsNext_expectAs _ _ hkind) hfaces
  rintro _ after rfl hafter
  apply Succeeds.onFailure
  exact restOfList_succeeds "parameter" _ (param_orderly named)
    (fun item hitem => readsEntry_param (hitems item hitem)) hclosing hafter

/-- The kind two places past the parenthesis of a list tells whether it has names. -/
theorem kindAt_two_of_faces {named : Bool} {opening closing : Token} {param : Param}
    {others : List Param} (hparam : param.WellFormed named) (hclosing : closing.kind = .rparen)
    (hfaces : cursor.Faces
      (.token opening :: commaSlots Param.slots (param :: others) ++ [.token closing]) last) :
    (cursor.kindAt 2 ≠ .comma && cursor.kindAt 2 ≠ .rparen) = named := by
  obtain ⟨name?, type⟩ := param
  obtain ⟨hnamed, hname, htype⟩ := hparam
  cases type with
  | bad node => exact absurd htype id
  | named type =>
      cases name? with
      | some name =>
          obtain ⟨tail, htail⟩ := exists_commaSlots_cons Param.slots ⟨some name, .named type⟩ others
          rw [htail] at hfaces
          have hkind : cursor.kindAt 2 = (Slot.token type).kind := hfaces.kindAt_eq 2 rfl
          have hcomma : cursor.kindAt 2 ≠ .comma := hkind ▸ Kind.ne_of_holds htype rfl
          have hrparen : cursor.kindAt 2 ≠ .rparen := hkind ▸ Kind.ne_of_holds htype rfl
          simpa [hcomma, hrparen] using hnamed
      | none =>
          obtain rfl : named = false := hnamed.symm
          cases others with
          | nil =>
              have hkind : cursor.kindAt 2 = (Slot.token closing).kind := hfaces.kindAt_eq 2 rfl
              simp [hkind, Slot.kind, hclosing]
          | cons other others =>
              have hkind : cursor.kindAt 2 = (Slot.separator .comma).kind := hfaces.kindAt_eq 2 rfl
              simp [hkind, Slot.kind]

/-- Results in parentheses are read with names or without, as they are written. -/
theorem resultList_succeeds {params : ParamList} {named : Bool}
    (hparams : params.WellFormed named)
    (hfaces : cursor.Faces (params.listSlots Param.slots) last) :
    Succeeds (paramList (cursor.kindAt 2 ≠ .comma && cursor.kindAt 2 ≠ .rparen))
      (start.moveTo cursor) params (start.moveTo last) := by
  apply paramList_succeeds _ hfaces
  obtain ⟨opening, items, closing⟩ := params
  obtain ⟨hopening, hitems, hclosing⟩ := hparams
  cases items with
  | nil => exact ⟨hopening, by simp, hclosing⟩
  | cons item others =>
      rw [kindAt_two_of_faces (hitems item List.mem_cons_self) hclosing hfaces]
      exact ⟨hopening, hitems, hclosing⟩

theorem results_none (hlast : cursor.kind = .lbrace ∨ cursor.kind = .semicolon) :
    Succeeds Grammar.results (start.moveTo cursor) none (start.moveTo cursor) := by
  have hend : Gives atSignatureEnd (start.moveTo cursor) true (start.moveTo cursor) := by
    rcases hlast with hlast | hlast
    all_goals
      apply Gives.look hlast
      apply Gives.look rfl
      exact .pure _ _
  exact Succeeds.bind (.lift hend) (.pure _ _)

theorem results_some {found : Results} (hfound : found.WellFormed)
    (hfaces : cursor.Faces found.slots last) (hline : cursor.opensLine = false) :
    Succeeds Grammar.results (start.moveTo cursor) (some found) (start.moveTo last) := by
  have hgoes : ∀ kind, cursor.kind = kind → kind ∉ [.lbrace, .rbrace, .semicolon, .eof] →
      Gives atSignatureEnd (start.moveTo cursor) false (start.moveTo cursor) := by
    intro kind hkind hother
    apply Gives.look hkind
    apply Gives.look hline
    simp only [hother, decide_false, Bool.or_false]
    exact .pure _ _
  cases found with
  | single type =>
      simp only [Results.slots] at hfaces
      have hkind : cursor.kind.isParamType := accepts_of_faces hfound hfaces
      have hother : cursor.kind ∉ [.lbrace, .rbrace, .semicolon, .eof] :=
        Kind.not_mem_of_holds hkind (by decide)
      apply Succeeds.bind (.lift (hgoes _ rfl hother))
      apply Succeeds.look rfl
      apply Succeeds.of_neg (Kind.ne_of_holds hkind rfl)
      exact Succeeds.map (.lift (typeName_gives _ hfound hfaces))
  | list params =>
      obtain ⟨named, hparams⟩ := hfound
      have hkind : cursor.kind = .lparen := hfaces.kind_eq.trans hparams.opening
      apply Succeeds.bind (.lift (hgoes _ hkind (by decide)))
      apply Succeeds.look hkind
      apply Succeeds.of_pos rfl
      apply Succeeds.look rfl
      exact Succeeds.map (resultList_succeeds hparams hfaces)

/-- The results of a signature are read up to a body or the end of a member. -/
theorem results_succeeds {results : Option Results}
    (hresults : ∀ found ∈ results, found.WellFormed)
    (hfaces : cursor.Faces (Slot.join (slotsOf? Results.slots results)) last)
    (hlast : last.kind = .lbrace ∨ last.kind = .semicolon) :
    Succeeds Grammar.results (start.moveTo cursor) results (start.moveTo last) := by
  cases results with
  | none =>
      obtain rfl := Cursor.faces_nil.1 hfaces
      exact results_none hlast
  | some found =>
      have hfound := hresults found rfl
      obtain ⟨first, tail, hslots⟩ : ∃ first tail, found.slots = .token first :: tail := by
        cases found with
        | single type =>
            cases type with
            | named name => exact ⟨_, _, rfl⟩
            | bad node => exact absurd hfound id
        | list params => exact ⟨_, _, rfl⟩
      rw [slotsOf?, hslots] at hfaces
      obtain ⟨hslotsFaces, hline⟩ := hfaces.of_join
      exact results_some hfound (hslots ▸ hslotsFaces) hline

theorem qualifiedName_succeeds {name : QualifiedName} (what : String)
    (hname : name.WellFormed) (hfaces : cursor.Faces name.slots last)
    (hlast : last.kind = .semicolon) :
    Succeeds (qualifiedName what) (start.moveTo cursor) name (start.moveTo last) := by
  obtain ⟨qualifier?, name⟩ := name
  obtain ⟨hqualifier, hkind⟩ := hname
  cases qualifier? with
  | none =>
      have hname : cursor.kind = .ident := hfaces.kind_eq.trans hkind
      apply Succeeds.read (readsNext_expectAs _ _ hname) hfaces
      rintro _ after rfl hafter
      obtain rfl := Cursor.faces_nil.1 hafter
      have hdot : last.kind ≠ .dot := by
        rw [hlast]
        decide
      exact Succeeds.acceptNone hdot (.pure _ _)
  | some qualifier =>
      obtain ⟨hpackage, hdot⟩ := hqualifier qualifier rfl
      have hfirst : cursor.kind = .ident := hfaces.kind_eq.trans hpackage
      apply Succeeds.read (readsNext_expectAs _ _ hfirst) hfaces
      rintro _ after rfl hafter
      apply Succeeds.acceptSome hafter hdot
      rintro _ after rfl hafter
      exact Succeeds.readLast (readsNext_expectAs _ _ (hafter.kind_eq.trans hkind)) hafter

/-- Passes over items with semicolons behind them gather all of the items. -/
theorem closedSlots_rounds {step : List α × State → List α × State → Prop}
    {slots : α → List Slot} {items : List α}
    (hitem : ∀ item others found cursor after, item :: others <:+ items →
      cursor.Faces (slots item ++ [.separator .semicolon]) after →
      after.Faces (closedSlots slots others) last →
      Relation.ReflTransGen step (found, start.moveTo cursor)
        (item :: found, start.moveTo after))
    (hfaces : cursor.Faces (closedSlots slots items) last) (found : List α) :
    Relation.ReflTransGen step (found, start.moveTo cursor)
      (items.reverse ++ found, start.moveTo last) := by
  induction items generalizing cursor found with
  | nil =>
      obtain rfl := Cursor.faces_nil.1 hfaces
      exact .refl
  | cons item others ih =>
      rw [closedSlots, List.flatMap_cons] at hfaces
      obtain ⟨after, hbefore, hbehind⟩ := Cursor.faces_append.1 hfaces
      have hfirst := hitem item others found cursor after List.suffix_rfl hbefore hbehind
      have hothers := ih (fun next rest found cursor after hsuffix =>
        hitem next rest found cursor after (hsuffix.trans (List.suffix_cons item others)))
        hbehind (item :: found)
      simpa using hfirst.trans hothers

/-- The production reads the member, which begins with a name, from its slots if a
semicolon follows. -/
def ReadsMember (member : Production α) (slots : α → List Slot) (start : State) (item : α) :
    Prop :=
  (∃ slot ∈ (slots item).head?, slot.kind = .ident) ∧
    ∀ cursor last : Cursor, cursor.Faces (slots item) last → last.kind = .semicolon →
      Succeeds member (start.moveTo cursor) item (start.moveTo last)

theorem memberPass_semicolon (member : Production α) (hkind : cursor.kind = .semicolon)
    (found : List α) :
    RoundOrFails (memberPass member) (found, start.moveTo cursor)
      (found, start.moveTo cursor.next) := by
  apply Succeeds.look hkind
  exact Succeeds.bind readsNext_advance (.pure _ _)

theorem memberPass_member {member : Production α} {slots : α → List Slot} {item : α}
    (hmember : ReadsMember member slots start item)
    (hfaces : cursor.Faces (slots item) last) (hlast : last.kind = .semicolon)
    (found : List α) :
    RoundOrFails (memberPass member) (found, start.moveTo cursor)
      (item :: found, start.moveTo last) := by
  obtain ⟨slot, hslot, hident⟩ := hmember.1
  have hkind : cursor.kind = .ident := (hfaces.kind_head hslot).trans hident
  apply Succeeds.look hkind
  have hend : Succeeds memberEnd (start.moveTo last) () (start.moveTo last) := by
    apply Succeeds.look hlast
    apply Succeeds.look rfl
    exact .pure _ _
  have hread : Succeeds (do
      let item ← member
      memberEnd
      return item) (start.moveTo cursor) item (start.moveTo last) :=
    Succeeds.bind (hmember.2 cursor last hfaces hlast) (Succeeds.bind hend (.pure _ _))
  exact Succeeds.bind hread.onFailure (.pure _ _)

theorem memberPass_rounds {member : Production α} {slots : α → List Slot} {items : List α}
    (hmembers : ∀ item ∈ items, ReadsMember member slots start item)
    (hfaces : cursor.Faces (closedSlots slots items) last) (found : List α) :
    Relation.ReflTransGen (RoundOrFails (memberPass member)) (found, start.moveTo cursor)
      (items.reverse ++ found, start.moveTo last) := by
  apply closedSlots_rounds _ hfaces
  intro item others found cursor after hsuffix hbefore _
  obtain ⟨place, hitem, hsemicolon⟩ := Cursor.faces_append.1 hbefore
  obtain rfl := Cursor.faces_nil.1 hsemicolon.next
  have hmember := hmembers item (hsuffix.subset List.mem_cons_self)
  have hround := memberPass_member hmember hitem hsemicolon.kind_eq found
  exact .tail (.single hround) (memberPass_semicolon member hsemicolon.kind_eq _)

theorem members_succeeds {member : Production α} {slots : α → List Slot}
    {body : Enclosed α} (hconsumes : ConsumesOrFails member)
    (hmembers : ∀ item ∈ body.items, ReadsMember member slots start item)
    (hopening : body.opening.kind = .lbrace) (hclosing : body.closing.kind = .rbrace)
    (hfaces : cursor.Faces (body.bodySlots slots) last) :
    Succeeds (members member) (start.moveTo cursor) body (start.moveTo last) := by
  obtain ⟨opening, items, closing⟩ := body
  apply Succeeds.read (readsNext_expectAs _ _ (hfaces.kind_eq.trans hopening)) hfaces
  rintro _ after rfl hafter
  obtain ⟨middle, hitems, hend⟩ := Cursor.faces_append.1 hafter
  have hrounds := memberPass_rounds hmembers hitems []
  have hdone : Succeeds (memberPass member (items.reverse ++ [])) (start.moveTo middle)
      (.done (items.reverse ++ [])) (start.moveTo middle) := by
    apply Succeeds.look (hend.kind_eq.trans hclosing)
    exact .pure _ _
  have hread := Succeeds.repeatProduction (memberPass_gains hconsumes) hrounds hdone
  rw [List.append_nil] at hread
  apply Succeeds.bind hread
  rw [List.reverse_reverse]
  exact Succeeds.readLast readsNext_advance hend

/-- A field is read up to the semicolon behind it. -/
theorem readsMember_field {room : Nat} (hnested : nested.ReadsExprs room)
    (hroom : start.nesting + room ≤ maxNesting) {field : FieldDecl} (hfield : field.WellFormed)
    (hnesting : Expr.nesting? (field.default.map Default.value) ≤ room) :
    ReadsMember (Grammar.field nested) FieldDecl.slots start field := by
  obtain ⟨name, type, default⟩ := field
  obtain ⟨hname, htype, hdefault⟩ := hfield
  refine ⟨⟨_, rfl, hname⟩, ?_⟩
  intro cursor last hfaces hlast
  apply Succeeds.read (readsNext_expectAs _ _ (hfaces.kind_eq.trans hname)) hfaces
  rintro _ after rfl hafter
  obtain ⟨middle, hbefore, hbehind⟩ := Cursor.faces_append.1 hafter
  apply Succeeds.bind (.lift (typeName_gives _ htype hbefore))
  cases default with
  | none =>
      obtain rfl := Cursor.faces_nil.1 hbehind
      have hassign : last.kind ≠ .assign := by
        rw [hlast]
        decide
      exact Succeeds.acceptNone hassign (.pure _ _)
  | some default =>
      obtain ⟨heq, hvalue⟩ := hdefault default rfl
      apply Succeeds.acceptSome hbehind heq
      rintro _ after rfl hafter
      have hends : last.Ends .lowest := .inl (by rw [hlast]; rfl)
      exact Succeeds.map (.lift (hnested hroom hvalue hnesting hafter hends))

theorem method_succeeds {spec : MethodSpec} (hspec : (InterfaceMember.method spec).WellFormed)
    (hfaces : cursor.Faces (InterfaceMember.method spec).slots last)
    (hlast : last.kind = .semicolon) :
    Succeeds interfaceMember (start.moveTo cursor) (.method spec) (start.moveTo last) := by
  obtain ⟨name, params, results⟩ := spec
  obtain ⟨hname, hparams, hresults⟩ := hspec
  have hsecond : cursor.kindAt 1 = (Slot.token params.opening).kind := hfaces.kindAt_eq 1 rfl
  apply Succeeds.look (hfaces.kind_eq.trans hname)
  apply Succeeds.look (hsecond.trans hparams.opening)
  apply Succeeds.of_pos rfl
  apply Succeeds.read readsNext_advance hfaces
  rintro _ after rfl hafter
  obtain ⟨middle, hbefore, hbehind⟩ := Cursor.faces_append.1 hafter
  apply Succeeds.bind (paramList_succeeds hparams hbefore)
  exact Succeeds.map (results_succeeds hresults hbehind (.inr hlast))

theorem embed_succeeds {name : QualifiedName} (hname : name.WellFormed)
    (hfaces : cursor.Faces name.slots last) (hlast : last.kind = .semicolon) :
    Succeeds interfaceMember (start.moveTo cursor) (.embed name) (start.moveTo last) := by
  have hsecond : cursor.kindAt 1 ≠ .lparen := by
    obtain ⟨qualifier?, name⟩ := name
    cases qualifier? with
    | none =>
        have hkind : cursor.kindAt 1 = last.kind := hfaces.kindAt_length
        rw [hkind, hlast]
        decide
    | some qualifier =>
        have hkind : cursor.kindAt 1 = (Slot.token qualifier.dot).kind := hfaces.kindAt_eq 1 rfl
        rw [hkind, Slot.kind, (hname.qualifier qualifier rfl).2]
        decide
  apply Succeeds.look rfl
  apply Succeeds.look rfl
  apply Succeeds.of_neg
  · simp only [Bool.and_eq_true, decide_eq_true_eq, not_and]
    exact fun _ => hsecond
  exact Succeeds.map (qualifiedName_succeeds _ hname hfaces hlast)

theorem readsMember_interface {member : InterfaceMember} (hmember : member.WellFormed) :
    ReadsMember interfaceMember InterfaceMember.slots start member := by
  cases member with
  | method spec =>
      exact ⟨⟨_, rfl, hmember.1⟩, fun cursor last => method_succeeds hmember⟩
  | embed name =>
      refine ⟨?_, fun cursor last => embed_succeeds hmember⟩
      obtain ⟨qualifier?, name⟩ := name
      cases qualifier? with
      | none => exact ⟨_, rfl, hmember.name⟩
      | some qualifier => exact ⟨_, rfl, (hmember.qualifier qualifier rfl).1⟩

theorem readsMember_variant (what : String) {variant : Token} (hvariant : variant.kind = .ident) :
    ReadsMember (expectName what) (fun variant => [.token variant]) start variant := by
  refine ⟨⟨_, rfl, hvariant⟩, ?_⟩
  intro cursor last hfaces _
  obtain rfl := hfaces.current_token
  obtain rfl := Cursor.faces_nil.1 hfaces.next
  exact readsNext_expectAs _ _ hvariant

theorem readsMember_sumVariant {variant : SumVariant} (hvariant : variant.WellFormed) :
    ReadsMember sumVariant SumVariant.slots start variant := by
  obtain ⟨name, params?⟩ := variant
  obtain ⟨hname, hparams⟩ := hvariant
  refine ⟨⟨_, rfl, hname⟩, ?_⟩
  intro cursor last hfaces hlast
  apply Succeeds.read (readsNext_expectAs _ _ (hfaces.kind_eq.trans hname)) hfaces
  rintro _ after rfl hafter
  cases params? with
  | none =>
      obtain rfl := Cursor.faces_nil.1 hafter
      apply Succeeds.look hlast
      exact .pure _ _
  | some params =>
      have hlist := hparams params rfl
      apply Succeeds.look (hafter.kind_eq.trans hlist.opening)
      apply Succeeds.of_pos rfl
      exact Succeeds.map (paramList_succeeds hlist hafter)

theorem typeBody_succeeds {member : Production α} {slots : α → List Slot} {decl : TypeDecl α}
    {keyword : Kind} {wellFormed : α → Prop} (hconsumes : ConsumesOrFails member)
    (hdecl : decl.WellFormed keyword wellFormed)
    (hmembers : ∀ item ∈ decl.body.items, ReadsMember member slots start item)
    (hfaces : cursor.Faces (.token decl.keyword :: decl.body.bodySlots slots) last) :
    Succeeds (typeBody decl.typeKeyword decl.name member) (start.moveTo cursor) decl
      (start.moveTo last) := by
  apply Succeeds.read readsNext_advance hfaces
  rintro _ after rfl hafter
  exact Succeeds.map
    (members_succeeds hconsumes hmembers hdecl.opening hdecl.closing hafter)

theorem nonemptyBody_succeeds {member : Production α} {decl : TypeDecl α} (what : String)
    (hnonempty : decl.body.items ≠ [])
    (hbody : Succeeds (typeBody decl.typeKeyword decl.name member) (start.moveTo cursor) decl
      (start.moveTo last)) :
    Succeeds (nonemptyBody what decl.typeKeyword decl.name member) (start.moveTo cursor) decl
      (start.moveTo last) := by
  apply Succeeds.bind hbody
  apply Succeeds.of_neg (by simpa using hnonempty)
  exact .pure _ _

/-- Reading `type` and the name, then what the keyword behind them tells. -/
theorem typeDecl_of_body {decl : TypeDecl α} {keyword : Kind} {wellFormed : α → Prop}
    {slots : α → List Slot} {made : Decl} {body : Token → Token → Production Decl}
    (hdecl : decl.WellFormed keyword wellFormed) (hfaces : cursor.Faces (decl.slots slots) last)
    (hbody : ∀ after : Cursor,
      after.Faces (.token decl.keyword :: decl.body.bodySlots slots) last →
      Succeeds (body decl.typeKeyword decl.name) (start.moveTo after) made (start.moveTo last)) :
    Succeeds (do
      let typeKeyword ← advance
      let name ← expectName "type name"
      covering typeKeyword (body typeKeyword name)) (start.moveTo cursor) made
        (start.moveTo last) := by
  apply Succeeds.read readsNext_advance hfaces
  rintro _ after rfl hafter
  apply Succeeds.read (readsNext_expectAs _ _ (hafter.kind_eq.trans hdecl.name)) hafter
  rintro _ after rfl hafter
  exact Succeeds.onFailure (hbody after hafter)

theorem typeDecl_succeeds {room : Nat} (horderly : nested.Orderly)
    (hnested : nested.ReadsExprs room) (hroom : start.nesting + room ≤ maxNesting)
    {decl : Decl} (hdecl : decl.WellFormedType) (hnesting : decl.inside ≤ room)
    (hfaces : cursor.Faces decl.slots last) :
    Succeeds (typeDecl nested) (start.moveTo cursor) decl (start.moveTo last) := by
  cases decl with
  | struct decl =>
      apply typeDecl_of_body hdecl hfaces
      intro after hafter
      apply Succeeds.look (hafter.kind_eq.trans hdecl.keyword)
      have hdefaults := greatest_le_iff.1 hnesting
      apply Succeeds.map (typeBody_succeeds (field_consumesOrFails horderly) hdecl _ hafter)
      intro field hfield
      exact readsMember_field hnested hroom (hdecl.items field hfield) (hdefaults field hfield)
  | interface decl =>
      apply typeDecl_of_body hdecl hfaces
      intro after hafter
      apply Succeeds.look (hafter.kind_eq.trans hdecl.keyword)
      apply Succeeds.map (typeBody_succeeds interfaceMember_consumesOrFails hdecl _ hafter)
      exact fun member hmember => readsMember_interface (hdecl.items member hmember)
  | enum decl =>
      obtain ⟨hdecl, hnonempty⟩ := hdecl
      apply typeDecl_of_body hdecl hfaces
      intro after hafter
      apply Succeeds.look (hafter.kind_eq.trans hdecl.keyword)
      apply Succeeds.map (nonemptyBody_succeeds _ hnonempty _)
      apply typeBody_succeeds (expectName_consumesOrFails _) hdecl _ hafter
      exact fun variant hvariant => readsMember_variant _ (hdecl.items variant hvariant)
  | sum decl =>
      obtain ⟨hdecl, hnonempty⟩ := hdecl
      apply typeDecl_of_body hdecl hfaces
      intro after hafter
      apply Succeeds.look (hafter.kind_eq.trans hdecl.keyword)
      apply Succeeds.map (nonemptyBody_succeeds _ hnonempty _)
      apply typeBody_succeeds sumVariant_consumesOrFails hdecl _ hafter
      exact fun variant hvariant => readsMember_sumVariant (hdecl.items variant hvariant)
  | func _ | implements _ | bad _ => exact absurd hdecl id

theorem unlessAt_none {kind : Kind} (production : Production α) (hkind : cursor.kind = kind) :
    Succeeds (unlessAt kind production) (start.moveTo cursor) none (start.moveTo cursor) := by
  apply Succeeds.look hkind
  apply Succeeds.of_pos rfl
  exact .pure _ _

theorem unlessAt_some {kind : Kind} {production : Production α} {value : α}
    (hkind : cursor.kind ≠ kind)
    (hproduction : Succeeds production (start.moveTo cursor) value (start.moveTo last)) :
    Succeeds (unlessAt kind production) (start.moveTo cursor) (some value)
      (start.moveTo last) := by
  apply Succeeds.look rfl
  apply Succeeds.of_neg hkind
  exact hproduction.map

/-- A constant or a variable is read up to a token that ends its value. -/
theorem valueDecl_succeeds {room : Nat} (hnested : nested.ReadsExprs room)
    (hroom : start.nesting + room ≤ maxNesting) {decl : ValueDecl} {keyword : Kind}
    (what : String) (hdecl : decl.WellFormed keyword) (hnesting : decl.value.nesting ≤ room)
    (hfaces : cursor.Faces decl.slots last) (hends : last.Ends .lowest) :
    Succeeds (valueDecl nested what) (start.moveTo cursor) decl (start.moveTo last) := by
  obtain ⟨keyword, name, type?, eq, value⟩ := decl
  obtain ⟨-, hname, htype, heq, hvalue⟩ := hdecl
  apply Succeeds.read readsNext_advance hfaces
  rintro _ after rfl hafter
  apply Succeeds.read (readsNext_expectAs _ _ (hafter.kind_eq.trans hname)) hafter
  rintro _ after rfl hafter
  obtain ⟨middle, hbefore, hbehind⟩ := Cursor.faces_append.1 hafter
  have htyped : Succeeds (unlessAt .assign (liftM (typeName Kind.isValueType "type")))
      (start.moveTo after) type? (start.moveTo middle) := by
    cases type? with
    | none =>
        obtain rfl := Cursor.faces_nil.1 hbefore
        exact unlessAt_none _ (hbehind.kind_eq.trans heq)
    | some type =>
        have haccepted := htype type rfl
        have hassign : after.kind ≠ .assign :=
          Kind.ne_of_holds (accepts_of_faces haccepted hbefore) rfl
        exact unlessAt_some hassign (.lift (typeName_gives _ haccepted hbefore))
  apply Succeeds.bind htyped
  apply Succeeds.read (readsNext_expectAs _ _ (hbehind.kind_eq.trans heq)) hbehind
  rintro _ after rfl hafter
  exact Succeeds.map (.lift (hnested hroom hvalue hnesting hafter hends))

end Grammar

end OriSyntax
