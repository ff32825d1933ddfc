import OriSyntax.Proofs.Slots
import OriSyntax.Proofs.WellFormed

/-!
The kinds that occur in the written form of a well-formed tree.  Nothing in it is a
comment or the end of the file, and no brace, semicolon or `range` is part of an
expression, so what a header holds can be told from the kinds before its brace.
-/

namespace OriSyntax

/-- All slots are of kinds of which `holds` is true. -/
def OfKinds (holds : Kind → Bool) (slots : List Slot) : Prop :=
  ∀ slot ∈ slots, holds slot.kind

namespace OfKinds

variable {α : Type} {holds other : Kind → Bool} {slot : Slot} {first second rest : List Slot}

@[simp] theorem nil : OfKinds holds [] := nofun

@[simp] theorem cons :
    OfKinds holds (slot :: rest) ↔ holds slot.kind ∧ OfKinds holds rest :=
  List.forall_mem_cons

@[simp] theorem append :
    OfKinds holds (first ++ second) ↔ OfKinds holds first ∧ OfKinds holds second :=
  List.forall_mem_append

protected theorem join (hslots : OfKinds holds rest) : OfKinds holds (Slot.join rest) := by
  cases rest with
  | nil => exact nil
  | cons slot rest => cases slot <;> simpa [Slot.join, Slot.kind] using hslots

theorem mono (hslots : OfKinds holds rest) (himp : ∀ kind, holds kind → other kind) :
    OfKinds other rest :=
  fun slot hslot => himp _ (hslots slot hslot)

theorem slotsOf? {slots : α → List Slot} {value : Option α}
    (hvalue : ∀ found ∈ value, OfKinds holds (slots found)) :
    OfKinds holds (OriSyntax.slotsOf? slots value) := by
  cases value with
  | none => exact nil
  | some found => exact hvalue found rfl

theorem commaSlots {slots : α → List Slot} {items : List α} (hcomma : holds .comma)
    (hitems : ∀ item ∈ items, OfKinds holds (slots item)) :
    OfKinds holds (OriSyntax.commaSlots slots items) := by
  induction items with
  | nil => exact nil
  | cons item rest ih =>
      obtain ⟨hitem, hrest⟩ := List.forall_mem_cons.1 hitems
      cases rest with
      | nil => exact hitem
      | cons next rest => exact append.2 ⟨hitem, cons.2 ⟨hcomma, ih hrest⟩⟩

theorem closedSlots {slots : α → List Slot} {items : List α} (hsemicolon : holds .semicolon)
    (hitems : ∀ item ∈ items, OfKinds holds (slots item)) :
    OfKinds holds (OriSyntax.closedSlots slots items) := by
  induction items with
  | nil => exact nil
  | cons item rest ih =>
      obtain ⟨hitem, hrest⟩ := List.forall_mem_cons.1 hitems
      rw [closedSlots_cons]
      exact append.2 ⟨hitem, cons.2 ⟨hsemicolon, ih hrest⟩⟩

end OfKinds

namespace Kind

/-- Kinds that occur in expressions. -/
def inExpr (kind : Kind) : Bool :=
  kind.beginsExpr || kind.isBinaryOp ||
    kind ∈ [.rparen, .comma, .dot, .lbracket, .rbracket]

variable {kind : Kind}

theorem inExpr_of_isBinaryOp (hkind : kind.isBinaryOp) : kind.inExpr := by
  simp [inExpr, hkind]

theorem inExpr_of_isUnaryOp (hkind : kind.isUnaryOp) : kind.inExpr := by
  simp [inExpr, beginsExpr_of_isUnaryOp hkind]

end Kind

mutual

theorem Expr.ofKinds_slots {least : Precedence} (expr : Expr)
    (hcanonical : expr.Canonical least) : OfKinds Kind.inExpr expr.slots := by
  match expr with
  | .ident _ =>
      simp only [Expr.Canonical] at hcanonical
      simp only [Expr.slots, OfKinds.cons, Slot.kind, hcanonical, OfKinds.nil, and_true]
      rfl
  | .literal sort _ =>
      simp only [Expr.Canonical] at hcanonical
      simp only [Expr.slots, OfKinds.cons, Slot.kind, hcanonical, OfKinds.nil, and_true]
      cases sort <;> rfl
  | .paren _ inner _ =>
      simp only [Expr.Canonical] at hcanonical
      obtain ⟨hopening, hinner, hclosing⟩ := hcanonical
      have hslots := inner.ofKinds_slots hinner
      simp only [Expr.slots, List.cons_append, OfKinds.cons, OfKinds.append, Slot.kind, hopening,
        hclosing, OfKinds.nil, and_true]
      exact ⟨rfl, hslots, rfl⟩
  | .unary _ operand =>
      simp only [Expr.Canonical] at hcanonical
      have hslots := operand.ofKinds_slots hcanonical.2
      simp only [Expr.slots, OfKinds.cons, Slot.kind]
      exact ⟨Kind.inExpr_of_isUnaryOp hcanonical.1, hslots⟩
  | .binary left _ right =>
      simp only [Expr.Canonical] at hcanonical
      obtain ⟨hop, -, hleft, hright, -⟩ := hcanonical
      have hbefore := left.ofKinds_slots hleft
      have hbehind := right.ofKinds_slots hright
      simp only [Expr.slots, OfKinds.cons, OfKinds.append, Slot.kind]
      exact ⟨hbefore, Kind.inExpr_of_isBinaryOp hop, hbehind⟩
  | .selector base _ _ =>
      simp only [Expr.Canonical] at hcanonical
      obtain ⟨-, hbase, hdot, hname⟩ := hcanonical
      have hslots := base.ofKinds_slots hbase
      simp only [Expr.slots, OfKinds.cons, OfKinds.append, Slot.kind, hdot, hname, OfKinds.nil,
        and_true]
      exact ⟨hslots, rfl, rfl⟩
  | .index base _ inner _ =>
      simp only [Expr.Canonical] at hcanonical
      obtain ⟨-, hbase, hopening, hinner, hclosing⟩ := hcanonical
      have hbefore := base.ofKinds_slots hbase
      have hbehind := inner.ofKinds_slots hinner
      simp only [Expr.slots, OfKinds.cons, OfKinds.append, Slot.kind, hopening, hclosing,
        OfKinds.nil, and_true]
      exact ⟨⟨hbefore, rfl, hbehind⟩, rfl⟩
  | .call callee ⟨_, args, _⟩ =>
      simp only [Expr.Canonical] at hcanonical
      obtain ⟨-, hcallee, hopening, hargs, hclosing⟩ := hcanonical
      have hbefore := callee.ofKinds_slots hcallee
      have hbehind := Expr.ofKinds_slotsOfAll args hargs
      simp only [Expr.slots, OfKinds.cons, OfKinds.append, Slot.kind, hopening, hclosing,
        OfKinds.nil, and_true]
      exact ⟨⟨hbefore, rfl, hbehind⟩, rfl⟩
  | .bad _ => simp [Expr.Canonical] at hcanonical

theorem Expr.ofKinds_slotsOfAll (exprs : List Expr) (hcanonical : Expr.CanonicalAll exprs) :
    OfKinds Kind.inExpr (Expr.slotsOfAll exprs) := by
  match exprs with
  | [] => exact .nil
  | [expr] =>
      simp only [Expr.CanonicalAll] at hcanonical
      exact expr.ofKinds_slots hcanonical.1
  | expr :: other :: rest =>
      simp only [Expr.CanonicalAll] at hcanonical
      have hbefore := expr.ofKinds_slots hcanonical.1
      have hbehind := Expr.ofKinds_slotsOfAll (other :: rest) hcanonical.2
      simp only [Expr.slotsOfAll, OfKinds.cons, OfKinds.append, Slot.kind]
      exact ⟨hbefore, rfl, hbehind⟩

end

namespace Kind

/-- Kinds that occur in statements without keywords. -/
def inSimple (kind : Kind) : Bool := kind.inExpr || kind.isAssignOp || kind.isIncDec

/-- Kinds that occur in headers with a separator or a word of one kind. -/
def inHeader (mark kind : Kind) : Bool := kind.inSimple || kind = mark

variable {kind : Kind}

theorem inSimple_of_inExpr (hkind : kind.inExpr) : kind.inSimple := by
  simp [inSimple, hkind]

theorem inHeader_of_inSimple (mark : Kind) (hkind : kind.inSimple) : inHeader mark kind := by
  simp [inHeader, hkind]

end Kind

theorem Expr.inSimple_slots {least : Precedence} {expr : Expr}
    (hcanonical : expr.Canonical least) : OfKinds Kind.inSimple expr.slots :=
  (expr.ofKinds_slots hcanonical).mono fun _ => Kind.inSimple_of_inExpr

theorem Stmt.inSimple_slots {inLoop : Bool} {stmt : Stmt} (hsimple : stmt.isSimple)
    (hstmt : stmt.WellFormed inLoop) : OfKinds Kind.inSimple stmt.slots := by
  cases stmt with
  | assign left op right =>
      simp only [Stmt.WellFormed] at hstmt
      obtain ⟨-, hleft, hop, hright⟩ := hstmt
      simp only [Stmt.slots, OfKinds.append, OfKinds.cons]
      exact ⟨Expr.inSimple_slots hleft, by simp [Slot.kind, Kind.inSimple, hop],
        Expr.inSimple_slots hright⟩
  | incDec target op =>
      simp only [Stmt.WellFormed] at hstmt
      obtain ⟨-, htarget, hop⟩ := hstmt
      simp only [Stmt.slots, OfKinds.append, OfKinds.cons]
      exact ⟨Expr.inSimple_slots htarget, by simp [Slot.kind, Kind.inSimple, hop], .nil⟩
  | effect value =>
      simp only [Stmt.WellFormed] at hstmt
      exact Expr.inSimple_slots hstmt.2
  | _ => simp [Stmt.isSimple] at hsimple

theorem Stmt.inSimple_slots? {inLoop : Bool} {allowed : Stmt → Bool} {part : Option Stmt}
    (hpart : Stmt.WellFormedPart inLoop allowed part)
    (hallowed : ∀ stmt, allowed stmt → stmt.isSimple) :
    OfKinds Kind.inSimple (Stmt.slots? part) := by
  cases part with
  | none => exact .nil
  | some stmt =>
      simp only [Stmt.WellFormedPart] at hpart
      exact Stmt.inSimple_slots (hallowed stmt hpart.1) hpart.2

theorem Expr.inSimple_slotsOf? {part : Option Expr}
    (hpart : ∀ expr ∈ part, expr.Canonical .lowest) :
    OfKinds Kind.inSimple (slotsOf? Expr.slots part) :=
  .slotsOf? fun expr hexpr => Expr.inSimple_slots (hpart expr hexpr)

/-- What stands before the keyword of a loop over items. -/
theorem RangeTargets.inSimple_slots {key value : Option Expr} {op : Option Token}
    (htargets : RangeTargets key value op) :
    OfKinds Kind.inSimple (slotsOf? Expr.slots key ++
      slotsOf? (fun value => .separator .comma :: value.slots) value ++
      slotsOf? (fun op => [.token op]) op) := by
  rcases htargets with ⟨rfl, rfl, rfl⟩ | ⟨⟨target, rfl, htarget⟩, hvalue, sign, rfl, hsign⟩
  · exact .nil
  · have hsecond : OfKinds Kind.inSimple
        (slotsOf? (fun value => .separator .comma :: value.slots) value) :=
      .slotsOf? fun found hfound =>
        OfKinds.cons.2 ⟨rfl, Expr.inSimple_slots (hvalue found hfound)⟩
    have hop : (Slot.token sign).kind.inSimple := by
      rcases hsign with hsign | hsign <;> rw [Slot.kind, hsign] <;> rfl
    simp only [OfKinds.append]
    exact ⟨⟨Expr.inSimple_slots htarget, hsecond⟩, OfKinds.cons.2 ⟨hop, .nil⟩⟩

/-- A header holds the kinds of the slots before its brace. -/
theorem Cursor.Faces.headerContains_iff {cursor last : Cursor} {header rest : List Slot}
    {opening : Slot} {kind : Kind} (hfaces : cursor.Faces (header ++ opening :: rest) last)
    (hheader : ∀ slot ∈ header, slot.kind ≠ .lbrace) (hopening : opening.kind = .lbrace) :
    cursor.headerContains kind ↔ ∃ slot ∈ header, slot.kind = kind := by
  induction header generalizing cursor with
  | nil =>
      have hahead := Cursor.ahead_eq_cons hfaces.kind_ne_eof
      have hkind : cursor.current.kind = .lbrace := hfaces.kind_eq.trans hopening
      simp [Cursor.headerContains, hahead, hkind]
  | cons slot header ih =>
      obtain ⟨hslot, hothers⟩ := List.forall_mem_cons.1 hheader
      have hahead := Cursor.ahead_eq_cons hfaces.kind_ne_eof
      have hkind : cursor.current.kind = slot.kind := hfaces.kind_eq
      have hstep : cursor.headerContains kind =
          (decide (slot.kind = kind) || cursor.next.headerContains kind) := by
        simp [Cursor.headerContains, hahead, hkind, hslot]
      rw [hstep, Bool.or_eq_true, decide_eq_true_eq, ih hfaces.next hothers]
      simp

section Headers

variable {holds : Kind → Bool} {cursor last : Cursor} {header rest : List Slot}
  {slot opening : Slot} {kind : Kind}

theorem OfKinds.kind_ne (hkinds : OfKinds holds header) (hkind : holds kind = false)
    (hslot : slot ∈ header) : slot.kind ≠ kind := by
  rintro rfl
  rw [hkinds slot hslot] at hkind
  exact nomatch hkind

theorem Cursor.Faces.kind_ne (hfaces : cursor.Faces (header ++ rest) last)
    (hkinds : OfKinds holds header) (hkind : holds kind = false) (hheader : header ≠ []) :
    cursor.kind ≠ kind := by
  obtain ⟨slot, others, rfl⟩ := List.exists_cons_of_ne_nil hheader
  rw [hfaces.kind_eq]
  exact hkinds.kind_ne hkind List.mem_cons_self

/-- A header does not hold a kind that none of its slots may have. -/
theorem Cursor.Faces.not_headerContains (hfaces : cursor.Faces (header ++ opening :: rest) last)
    (hopening : opening.kind = .lbrace) (hkinds : OfKinds holds header)
    (hbrace : holds .lbrace = false) (hkind : holds kind = false) :
    ¬ cursor.headerContains kind := by
  rw [hfaces.headerContains_iff (fun slot => hkinds.kind_ne hbrace) hopening]
  rintro ⟨slot, hslot, hsame⟩
  exact hkinds.kind_ne hkind hslot hsame

/-- A header holds the kind of each of its slots. -/
theorem Cursor.Faces.headerContains_of_mem (hfaces : cursor.Faces (header ++ opening :: rest) last)
    (hopening : opening.kind = .lbrace) (hkinds : OfKinds holds header)
    (hbrace : holds .lbrace = false) (hslot : slot ∈ header) :
    cursor.headerContains slot.kind :=
  (hfaces.headerContains_iff (fun _ => hkinds.kind_ne hbrace) hopening).2 ⟨slot, hslot, rfl⟩

end Headers

/-- Kinds of tokens that are written in a grammar: neither comments nor the end of the
file. -/
def Kind.isWritten (kind : Kind) : Bool := kind ≠ .comment && kind ≠ .eof

namespace Kind

variable {kind : Kind}

theorem isWritten_of_inSimple (hkind : kind.inSimple) : kind.isWritten := by
  revert hkind
  cases kind <;> decide

theorem isWritten_of_isParamType (hkind : kind.isParamType) : kind.isWritten := by
  revert hkind
  cases kind <;> decide

theorem isParamType_of_isValueType (hkind : kind.isValueType) : kind.isParamType := by
  simp [isParamType, hkind]

end Kind

/-- Slots in which tokens are written. -/
abbrev Written : List Slot → Prop := OfKinds Kind.isWritten

theorem Expr.written_slots {least : Precedence} {expr : Expr}
    (hcanonical : expr.Canonical least) : Written expr.slots :=
  (Expr.inSimple_slots hcanonical).mono fun _ => Kind.isWritten_of_inSimple

theorem Expr.written_commaSlots {exprs : List Expr} (hcanonical : Expr.CanonicalAll exprs) :
    Written (commaSlots Expr.slots exprs) :=
  .commaSlots rfl fun expr hexpr =>
    Expr.written_slots (Expr.canonicalAll_iff.1 hcanonical expr hexpr)

/-- A token of a known kind that is written. -/
theorem Slot.written_token {stored : Token} {kind : Kind} (hstored : stored.kind = kind)
    (hkind : kind.isWritten) : (Slot.token stored).kind.isWritten := by
  rw [Slot.kind, hstored, hkind]

theorem TypeExpr.written_slots {accepts : Kind → Bool} {type : TypeExpr}
    (htype : type.Accepted accepts) (haccepts : ∀ kind, accepts kind → kind.isParamType) :
    Written type.slots := by
  cases type with
  | named name =>
      exact OfKinds.cons.2 ⟨Kind.isWritten_of_isParamType (haccepts _ htype), .nil⟩
  | bad node => exact absurd htype id

theorem ValueDecl.written_slots {keyword : Kind} {decl : ValueDecl}
    (hdecl : decl.WellFormed keyword) (hkeyword : keyword.isWritten) : Written decl.slots := by
  have htype : Written (slotsOf? TypeExpr.slots decl.type) := by
    apply OfKinds.slotsOf?
    intro type hmem
    exact type.written_slots (hdecl.type type hmem) fun _ => Kind.isParamType_of_isValueType
  have hvalue := Expr.written_slots hdecl.value
  simp only [ValueDecl.slots, List.cons_append, OfKinds.cons, OfKinds.append]
  exact ⟨Slot.written_token hdecl.keyword hkeyword, Slot.written_token hdecl.name rfl, htype,
    Slot.written_token hdecl.eq rfl, hvalue⟩

theorem Param.written_slots {named : Bool} {param : Param} (hparam : param.WellFormed named) :
    Written param.slots := by
  have htype := TypeExpr.written_slots hparam.type fun _ => id
  apply OfKinds.append.2
  refine ⟨OfKinds.slotsOf? fun name hname => ?_, htype⟩
  exact OfKinds.cons.2 ⟨Slot.written_token (hparam.name name hname) rfl, .nil⟩

theorem ParamList.written_slots {named : Bool} {params : ParamList}
    (hparams : params.WellFormed named) : Written (params.listSlots Param.slots) := by
  have hitems : Written (commaSlots Param.slots params.items) :=
    .commaSlots rfl fun param hparam => Param.written_slots (hparams.items param hparam)
  simp only [Enclosed.listSlots, List.cons_append, OfKinds.cons, OfKinds.append]
  exact ⟨Slot.written_token hparams.opening rfl, hitems,
    Slot.written_token hparams.closing rfl, .nil⟩

theorem written_signatureSlots {params : ParamList} {results : Option Results}
    (hparams : params.WellFormed true) (hresults : ∀ found ∈ results, found.WellFormed) :
    Written (signatureSlots params results) := by
  apply OfKinds.append.2
  refine ⟨ParamList.written_slots hparams, OfKinds.join (OfKinds.slotsOf? fun found hfound => ?_)⟩
  have hwellFormed := hresults found hfound
  cases found with
  | single type => exact TypeExpr.written_slots hwellFormed fun _ => id
  | list params =>
      obtain ⟨named, hlist⟩ := hwellFormed
      exact ParamList.written_slots hlist

theorem QualifiedName.written_slots {name : QualifiedName} (hname : name.WellFormed) :
    Written name.slots := by
  apply OfKinds.append.2
  constructor
  · apply OfKinds.slotsOf?
    intro qualifier hqualifier
    obtain ⟨hpackage, hdot⟩ := hname.qualifier qualifier hqualifier
    simp only [OfKinds.cons]
    exact ⟨Slot.written_token hpackage rfl, Slot.written_token hdot rfl, .nil⟩
  · exact OfKinds.cons.2 ⟨Slot.written_token hname.name rfl, .nil⟩

theorem FieldDecl.written_slots {field : FieldDecl} (hfield : field.WellFormed) :
    Written field.slots := by
  have htype := field.type.written_slots hfield.type fun _ => Kind.isParamType_of_isValueType
  simp only [FieldDecl.slots, List.cons_append, OfKinds.cons, OfKinds.append]
  refine ⟨Slot.written_token hfield.name rfl, htype, OfKinds.slotsOf? fun default hdefault => ?_⟩
  obtain ⟨heq, hvalue⟩ := hfield.default default hdefault
  exact OfKinds.cons.2 ⟨Slot.written_token heq rfl, Expr.written_slots hvalue⟩

theorem InterfaceMember.written_slots {member : InterfaceMember}
    (hmember : member.WellFormed) : Written member.slots := by
  cases member with
  | method spec =>
      obtain ⟨hname, hparams, hresults⟩ := hmember
      exact OfKinds.cons.2 ⟨Slot.written_token hname rfl, written_signatureSlots hparams hresults⟩
  | embed name => exact name.written_slots hmember

theorem SumVariant.written_slots {variant : SumVariant} (hvariant : variant.WellFormed) :
    Written variant.slots := by
  apply OfKinds.cons.2
  refine ⟨Slot.written_token hvariant.name rfl, OfKinds.slotsOf? fun params hparams => ?_⟩
  exact ParamList.written_slots (hvariant.params params hparams)

theorem TypeDecl.written_slots {α : Type} {keyword : Kind} {member : α → Prop}
    {slots : α → List Slot} {decl : TypeDecl α} (hdecl : decl.WellFormed keyword member)
    (hkeyword : keyword.isWritten) (hmember : ∀ item, member item → Written (slots item)) :
    Written (decl.slots slots) := by
  have hitems : Written (closedSlots slots decl.body.items) :=
    .closedSlots rfl fun item hitem => hmember item (hdecl.items item hitem)
  simp only [TypeDecl.slots, Enclosed.bodySlots, List.cons_append, OfKinds.cons, OfKinds.append]
  exact ⟨Slot.written_token hdecl.typeKeyword rfl, Slot.written_token hdecl.name rfl,
    Slot.written_token hdecl.keyword hkeyword, Slot.written_token hdecl.opening rfl, hitems,
    Slot.written_token hdecl.closing rfl, .nil⟩

theorem ImplementsDecl.written_slots {decl : ImplementsDecl} (hdecl : decl.WellFormed) :
    Written decl.slots := by
  simp only [ImplementsDecl.slots, OfKinds.cons]
  exact ⟨Slot.written_token hdecl.typeName rfl, Slot.written_token hdecl.keyword rfl,
    QualifiedName.written_slots hdecl.interface⟩

theorem StructDecl.written_slots {decl : StructDecl} (hdecl : StructDecl.WellFormed decl) :
    Written (TypeDecl.slots FieldDecl.slots decl) :=
  TypeDecl.written_slots hdecl rfl fun _ => FieldDecl.written_slots

theorem InterfaceDecl.written_slots {decl : InterfaceDecl}
    (hdecl : InterfaceDecl.WellFormed decl) :
    Written (TypeDecl.slots InterfaceMember.slots decl) :=
  TypeDecl.written_slots hdecl rfl fun _ => InterfaceMember.written_slots

theorem EnumDecl.written_slots {decl : EnumDecl} (hdecl : EnumDecl.WellFormed decl) :
    Written (TypeDecl.slots (fun variant => [.token variant]) decl) :=
  TypeDecl.written_slots hdecl.1 rfl fun _ hvariant =>
    OfKinds.cons.2 ⟨Slot.written_token hvariant rfl, .nil⟩

theorem SumDecl.written_slots {decl : SumDecl} (hdecl : SumDecl.WellFormed decl) :
    Written (TypeDecl.slots SumVariant.slots decl) :=
  TypeDecl.written_slots hdecl.1 rfl fun _ => SumVariant.written_slots

theorem Decl.written_slots {decl : Decl} (hdecl : decl.WellFormedType) : Written decl.slots := by
  cases decl with
  | struct decl => exact StructDecl.written_slots hdecl
  | interface decl => exact InterfaceDecl.written_slots hdecl
  | enum decl => exact EnumDecl.written_slots hdecl
  | sum decl => exact SumDecl.written_slots hdecl
  | func _ | implements _ | bad _ => exact absurd hdecl id

theorem written_slotsOf?_expr {expr : Option Expr}
    (hexpr : ∀ found ∈ expr, found.Canonical .lowest) : Written (slotsOf? Expr.slots expr) :=
  .slotsOf? fun found hfound => Expr.written_slots (hexpr found hfound)

mutual

theorem Stmt.written_slots {inLoop : Bool} (stmt : Stmt) (hstmt : stmt.WellFormed inLoop) :
    Written stmt.slots := by
  match stmt with
  | .block body =>
      simp only [Stmt.WellFormed] at hstmt
      exact Stmt.written_slotsOfBlock body hstmt
  | .const value | .var value =>
      simp only [Stmt.WellFormed] at hstmt
      exact ValueDecl.written_slots hstmt rfl
  | .assign .. | .incDec .. | .effect _ =>
      exact (Stmt.inSimple_slots rfl hstmt).mono fun _ => Kind.isWritten_of_inSimple
  | .returns keyword values =>
      simp only [Stmt.WellFormed] at hstmt
      simp only [Stmt.slots, OfKinds.cons]
      exact ⟨Slot.written_token hstmt.1 rfl, .join (Expr.written_commaSlots hstmt.2)⟩
  | .ifElse keyword condition body otherwise =>
      simp only [Stmt.WellFormed] at hstmt
      obtain ⟨hkeyword, hcondition, hbody, hotherwise⟩ := hstmt
      have hblock := Stmt.written_slotsOfBlock body hbody
      have helse : Written (Stmt.slotsOfElse otherwise) := by
        match otherwise with
        | none => exact .nil
        | some stmt =>
            simp only [Stmt.WellFormedPart] at hotherwise
            exact OfKinds.cons.2 ⟨rfl, stmt.written_slots hotherwise.2⟩
      simp only [Stmt.slots, List.cons_append, OfKinds.append, OfKinds.cons]
      exact ⟨Slot.written_token hkeyword rfl, ⟨Expr.written_slots hcondition, hblock⟩, helse⟩
  | .forLoop keyword first condition after body =>
      simp only [Stmt.WellFormed] at hstmt
      obtain ⟨hkeyword, hfirst, hcondition, hafter, hbody⟩ := hstmt
      have hblock := Stmt.written_slotsOfBlock body hbody
      have hinit := Stmt.written_slots? first hfirst
      have hlast := Stmt.written_slots? after hafter
      have htest := written_slotsOf?_expr hcondition
      simp only [Stmt.slots, List.cons_append, OfKinds.append, OfKinds.cons]
      refine ⟨Slot.written_token hkeyword rfl, ?_, hblock⟩
      split
      · exact htest
      · simp only [OfKinds.append, OfKinds.cons, and_assoc]
        exact ⟨hinit, rfl, htest, rfl, hlast⟩
  | .rangeLoop keyword key value op rangeKeyword subject body =>
      simp only [Stmt.WellFormed] at hstmt
      obtain ⟨hkeyword, htargets, hrange, hsubject, hbody⟩ := hstmt
      have hblock := Stmt.written_slotsOfBlock body hbody
      have hbefore := htargets.inSimple_slots.mono fun _ => Kind.isWritten_of_inSimple
      simp only [OfKinds.append] at hbefore
      simp only [Stmt.slots, List.cons_append, OfKinds.append, OfKinds.cons]
      exact ⟨Slot.written_token hkeyword rfl,
        ⟨hbefore, Slot.written_token hrange rfl, Expr.written_slots hsubject⟩, hblock⟩
  | .switch keyword first tag ⟨opening, cases, closing⟩ =>
      simp only [Stmt.WellFormed] at hstmt
      obtain ⟨hkeyword, hfirst, htag, hopening, hcases, -, hclosing⟩ := hstmt
      have hclauses := Stmt.written_slotsOfClauses cases hcases
      have hinit : Written (Stmt.slotsOfInit first) := by
        match first with
        | none => exact .nil
        | some stmt =>
            simp only [Stmt.WellFormedPart] at hfirst
            exact OfKinds.append.2 ⟨stmt.written_slots hfirst.2, OfKinds.cons.2 ⟨rfl, .nil⟩⟩
      simp only [Stmt.slots, List.cons_append, OfKinds.append, OfKinds.cons, and_assoc]
      exact ⟨Slot.written_token hkeyword rfl, hinit, written_slotsOf?_expr htag,
        Slot.written_token hopening rfl, hclauses, Slot.written_token hclosing rfl, .nil⟩
  | .breakLoop keyword | .continueLoop keyword =>
      simp only [Stmt.WellFormed] at hstmt
      exact OfKinds.cons.2 ⟨Slot.written_token hstmt.2 rfl, .nil⟩
  | .fallThrough keyword =>
      simp only [Stmt.WellFormed] at hstmt
      exact OfKinds.cons.2 ⟨Slot.written_token hstmt rfl, .nil⟩
  | .decl inner =>
      simp only [Stmt.WellFormed] at hstmt
      exact Decl.written_slots hstmt
  | .clause .. | .bad _ => simp [Stmt.WellFormed] at hstmt

theorem Stmt.written_slotsOfBlock {inLoop : Bool} (body : Enclosed Stmt)
    (hbody : Stmt.WellFormedBlock inLoop body) : Written (Stmt.slotsOfBlock body) := by
  match body with
  | ⟨opening, stmts, closing⟩ =>
      simp only [Stmt.WellFormedBlock] at hbody
      obtain ⟨hopening, hstmts, hclosing⟩ := hbody
      have hitems := Stmt.written_slotsOfAll stmts hstmts
      simp only [Stmt.slotsOfBlock, List.cons_append, OfKinds.append, OfKinds.cons]
      exact ⟨Slot.written_token hopening rfl, hitems, Slot.written_token hclosing rfl, .nil⟩

theorem Stmt.written_slotsOfAll {inLoop : Bool} (stmts : List Stmt)
    (hstmts : Stmt.WellFormedAll inLoop stmts) : Written (Stmt.slotsOfAll stmts) := by
  match stmts with
  | [] => exact .nil
  | stmt :: rest =>
      simp only [Stmt.WellFormedAll] at hstmts
      obtain ⟨hstmt, -, hrest⟩ := hstmts
      have hbefore := stmt.written_slots hstmt
      have hbehind := Stmt.written_slotsOfAll rest hrest
      simp only [Stmt.slotsOfAll, OfKinds.append, OfKinds.cons]
      exact ⟨hbefore, rfl, hbehind⟩

theorem Stmt.written_slotsOfClauses {inLoop : Bool} (clauses : List Stmt)
    (hclauses : Stmt.WellFormedClauses inLoop clauses) :
    Written (Stmt.slotsOfClauses clauses) := by
  match clauses with
  | [] => exact .nil
  | stmt :: rest =>
      cases stmt with
      | clause keyword values colon body =>
          simp only [Stmt.WellFormedClauses] at hclauses
          obtain ⟨hkeyword, hvalues, hcolon, hbody, hrest⟩ := hclauses
          have hstmts := Stmt.written_slotsOfAll body hbody
          have hbehind := Stmt.written_slotsOfClauses rest hrest
          have hfirst : (Slot.token keyword).kind.isWritten := by
            rcases hkeyword with hcase | hdefault
            · exact Slot.written_token hcase.1 rfl
            · exact Slot.written_token hdefault.1 rfl
          simp only [Stmt.slotsOfClauses, Stmt.slots, List.cons_append, OfKinds.append,
            OfKinds.cons]
          exact ⟨hfirst, ⟨Expr.written_commaSlots hvalues, Slot.written_token hcolon rfl, hstmts⟩,
            hbehind⟩
      | _ => simp [Stmt.WellFormedClauses] at hclauses

theorem Stmt.written_slots? {inLoop : Bool} {allowed : Stmt → Bool} (part : Option Stmt)
    (hpart : Stmt.WellFormedPart inLoop allowed part) : Written (Stmt.slots? part) := by
  match part with
  | none => exact .nil
  | some stmt =>
      simp only [Stmt.WellFormedPart] at hpart
      exact stmt.written_slots hpart.2

end

theorem FuncDecl.written_slots {decl : FuncDecl} (hdecl : decl.WellFormed) :
    Written decl.slots := by
  obtain ⟨keyword, name, params, results, body⟩ := decl
  obtain ⟨hkeyword, hname, hparams, hresults, hbody⟩ := hdecl
  simp only [FuncDecl.slots, List.cons_append, OfKinds.append, OfKinds.cons]
  exact ⟨Slot.written_token hkeyword rfl, Slot.written_token hname rfl,
    written_signatureSlots hparams hresults, Stmt.written_slotsOfBlock body hbody⟩

theorem File.written_slots {file : File} (hfile : file.WellFormed) : Written file.slots := by
  have hconsts : Written (closedSlots Stmt.slots file.consts) := by
    apply OfKinds.closedSlots rfl
    intro stmt hstmt
    obtain ⟨decl, rfl, hdecl⟩ := hfile.consts stmt hstmt
    exact ValueDecl.written_slots hdecl rfl
  have hdecls : Written (closedSlots Decl.slots file.decls) := by
    apply OfKinds.closedSlots rfl
    intro decl hdecl
    obtain ⟨function, rfl, hfunction⟩ := hfile.decls decl hdecl
    exact FuncDecl.written_slots hfunction
  simp only [File.slots, OfKinds.append, OfKinds.cons]
  refine ⟨Slot.written_token hfile.package rfl, Slot.written_token hfile.name rfl,
    ⟨⟨⟨⟨⟨⟨hconsts, hdecls⟩, ?_⟩, ?_⟩, ?_⟩, ?_⟩, ?_⟩⟩
  · exact .closedSlots rfl fun decl hdecl => StructDecl.written_slots (hfile.structs decl hdecl)
  · exact .closedSlots rfl fun decl hdecl =>
      InterfaceDecl.written_slots (hfile.interfaces decl hdecl)
  · exact .closedSlots rfl fun decl hdecl => EnumDecl.written_slots (hfile.enums decl hdecl)
  · exact .closedSlots rfl fun decl hdecl => SumDecl.written_slots (hfile.sums decl hdecl)
  · exact .closedSlots rfl fun decl hdecl =>
      ImplementsDecl.written_slots (hfile.implements decl hdecl)

end OriSyntax
