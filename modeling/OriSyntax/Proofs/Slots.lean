import OriSyntax.Proofs.Reading
import OriSyntax.Tree.Extent

/-!
The written form of a tree: the tokens it stores in the order in which they are read, and
between them the separators that it does not store.  An operator and what may be left out
behind the end of a line have to stand on the line of the token before them.
-/

namespace OriSyntax

/-- A place in the written form of a tree. -/
inductive Slot where
  /-- A token that the tree stores. -/
  | token (stored : Token)
  /-- A token that the tree stores and that opens no line. -/
  | joined (stored : Token)
  /-- Any token of a kind that trees do not store. -/
  | separator (kind : Kind)

namespace Slot

/-- The kind of the tokens that may stand in a slot. -/
def kind : Slot → Kind
  | token stored | joined stored => stored.kind
  | separator kind => kind

/-- Whether a token in the slot may open no line. -/
def isJoined : Slot → Bool
  | joined _ => true
  | token _ | separator _ => false

/-- The token may stand in the slot, whatever its line. -/
def Takes : Slot → Token → Prop
  | token stored, found | joined stored, found => found = stored
  | separator kind, found => found.kind = kind

instance (slot : Slot) (found : Token) : Decidable (slot.Takes found) :=
  match slot with
  | token stored | joined stored => inferInstanceAs (Decidable (found = stored))
  | separator kind => inferInstanceAs (Decidable (found.kind = kind))

theorem Takes.kind_eq {slot : Slot} {found : Token} (htakes : slot.Takes found) :
    found.kind = slot.kind := by
  cases slot with
  | token stored | joined stored => exact congrArg Token.kind htakes
  | separator kind => exact htakes

/-- The slots of a construct that may not begin on a new line. -/
def join : List Slot → List Slot
  | .token stored :: rest => .joined stored :: rest
  | slots => slots

end Slot

/-- The slots of what may be missing. -/
def slotsOf? {α : Type} (slots : α → List Slot) : Option α → List Slot
  | none => []
  | some value => slots value

/-- The slots of items with a comma between each two of them. -/
def commaSlots {α : Type} (slots : α → List Slot) : List α → List Slot
  | [] => []
  | [item] => slots item
  | item :: other :: rest =>
      slots item ++ .separator .comma :: commaSlots slots (other :: rest)

theorem exists_commaSlots_cons {α : Type} (slots : α → List Slot) (item : α)
    (rest : List α) : ∃ tail, commaSlots slots (item :: rest) = slots item ++ tail := by
  cases rest with
  | nil => exact ⟨[], (List.append_nil _).symm⟩
  | cons other rest => exact ⟨_, rfl⟩

/-- The slots of items with a semicolon behind each of them. -/
def closedSlots {α : Type} (slots : α → List Slot) (items : List α) : List Slot :=
  items.flatMap fun item => slots item ++ [.separator .semicolon]

@[simp] theorem closedSlots_nil {α : Type} (slots : α → List Slot) :
    closedSlots slots [] = [] := rfl

@[simp] theorem closedSlots_cons {α : Type} (slots : α → List Slot) (item : α)
    (rest : List α) : closedSlots slots (item :: rest) =
      slots item ++ .separator .semicolon :: closedSlots slots rest := by
  simp [closedSlots]

/-- The slots of a list in parentheses. -/
def Enclosed.listSlots {α : Type} (slots : α → List Slot) (enclosed : Enclosed α) :
    List Slot :=
  .token enclosed.opening :: commaSlots slots enclosed.items ++ [.token enclosed.closing]

/-- The slots of members in braces. -/
def Enclosed.bodySlots {α : Type} (slots : α → List Slot) (enclosed : Enclosed α) :
    List Slot :=
  .token enclosed.opening :: closedSlots slots enclosed.items ++ [.token enclosed.closing]

/-- The slots of a type. -/
def TypeExpr.slots : TypeExpr → List Slot
  | named name => [.token name]
  | bad _ => []

mutual

/-- The slots of an expression.  What could not be read has no written form. -/
def Expr.slots : Expr → List Slot
  | .ident name => [.token name]
  | .literal _ value => [.token value]
  | .paren opening inner closing => .token opening :: inner.slots ++ [.token closing]
  | .unary op operand => .token op :: operand.slots
  | .binary left op right => left.slots ++ .joined op :: right.slots
  | .selector base dot name => base.slots ++ [.joined dot, .token name]
  | .index base opening inner closing =>
      base.slots ++ .joined opening :: inner.slots ++ [.token closing]
  | .call callee ⟨opening, args, closing⟩ =>
      callee.slots ++ .joined opening :: Expr.slotsOfAll args ++ [.token closing]
  | .bad _ => []

/-- The slots of expressions with commas between them. -/
def Expr.slotsOfAll : List Expr → List Slot
  | [] => []
  | [expr] => expr.slots
  | expr :: other :: rest =>
      expr.slots ++ .separator .comma :: Expr.slotsOfAll (other :: rest)

end

@[simp] theorem Expr.slotsOfAll_eq (exprs : List Expr) :
    Expr.slotsOfAll exprs = commaSlots Expr.slots exprs := by
  induction exprs with
  | nil => rfl
  | cons expr rest ih =>
      cases rest with
      | nil => rfl
      | cons other rest => rw [Expr.slotsOfAll, ih, commaSlots]

/-- The slots of a value declaration. -/
def ValueDecl.slots (decl : ValueDecl) : List Slot :=
  .token decl.keyword :: .token decl.name :: slotsOf? TypeExpr.slots decl.type ++
    .token decl.eq :: decl.value.slots

/-- The slots of a parameter. -/
def Param.slots (param : Param) : List Slot :=
  slotsOf? (fun name => [.token name]) param.name ++ param.type.slots

/-- The slots of results. -/
def Results.slots : Results → List Slot
  | single type => type.slots
  | list params => params.listSlots Param.slots

/-- The slots of a signature behind its name. -/
def signatureSlots (params : ParamList) (results : Option Results) : List Slot :=
  params.listSlots Param.slots ++ Slot.join (slotsOf? Results.slots results)

/-- The slots of a qualified name. -/
def QualifiedName.slots (name : QualifiedName) : List Slot :=
  slotsOf? (fun qualifier => [.token qualifier.package, .token qualifier.dot])
    name.qualifier ++ [.token name.name]

/-- The slots of a default value. -/
def Default.slots (default : Default) : List Slot :=
  .token default.eq :: default.value.slots

/-- The slots of a field. -/
def FieldDecl.slots (field : FieldDecl) : List Slot :=
  .token field.name :: field.type.slots ++ slotsOf? Default.slots field.default

/-- The slots of a member of an interface. -/
def InterfaceMember.slots : InterfaceMember → List Slot
  | method spec => .token spec.name :: signatureSlots spec.params spec.results
  | embed name => name.slots

/-- The slots of a variant. -/
def SumVariant.slots (variant : SumVariant) : List Slot :=
  .token variant.name :: slotsOf? (Enclosed.listSlots Param.slots) variant.params

/-- The slots of a type declaration. -/
def TypeDecl.slots {α : Type} (slots : α → List Slot) (decl : TypeDecl α) : List Slot :=
  .token decl.typeKeyword :: .token decl.name :: .token decl.keyword ::
    decl.body.bodySlots slots

/-- The slots of an `implements` declaration. -/
def ImplementsDecl.slots (decl : ImplementsDecl) : List Slot :=
  .token decl.typeName :: .token decl.keyword :: decl.interface.slots

mutual

/-- The slots of a statement.  A loop has semicolons in its header if it has a first or a
last clause, and a switch if it has a first statement. -/
def Stmt.slots : Stmt → List Slot
  | .block body => Stmt.slotsOfBlock body
  | .const decl | .var decl => decl.slots
  | .assign left op right => left.slots ++ .token op :: right.slots
  | .incDec target op => target.slots ++ [.token op]
  | .effect value => value.slots
  | .returns keyword values => .token keyword :: Slot.join (commaSlots Expr.slots values)
  | .ifElse keyword condition body otherwise =>
      .token keyword :: condition.slots ++ Stmt.slotsOfBlock body ++
        Stmt.slotsOfElse otherwise
  | .forLoop keyword first condition after body =>
      .token keyword ::
        (if first.isNone && after.isNone then slotsOf? Expr.slots condition
          else Stmt.slots? first ++ .separator .semicolon ::
            slotsOf? Expr.slots condition ++ .separator .semicolon :: Stmt.slots? after) ++
        Stmt.slotsOfBlock body
  | .rangeLoop keyword key value op rangeKeyword subject body =>
      .token keyword :: slotsOf? Expr.slots key ++
        slotsOf? (fun value => .separator .comma :: value.slots) value ++
        slotsOf? (fun op => [.token op]) op ++ .token rangeKeyword :: subject.slots ++
        Stmt.slotsOfBlock body
  | .switch keyword first tag ⟨opening, cases, closing⟩ =>
      .token keyword :: Stmt.slotsOfInit first ++ slotsOf? Expr.slots tag ++
        .token opening :: Stmt.slotsOfClauses cases ++ [.token closing]
  | .clause keyword values colon body =>
      .token keyword :: commaSlots Expr.slots values ++ .token colon ::
        Stmt.slotsOfAll body
  | .breakLoop keyword | .continueLoop keyword | .fallThrough keyword => [.token keyword]
  | .decl decl => decl.slots
  | .bad _ => []

/-- The slots of statements in braces. -/
def Stmt.slotsOfBlock : Enclosed Stmt → List Slot
  | ⟨opening, stmts, closing⟩ =>
      .token opening :: Stmt.slotsOfAll stmts ++ [.token closing]

/-- The slots of statements with a semicolon behind each of them. -/
def Stmt.slotsOfAll : List Stmt → List Slot
  | [] => []
  | stmt :: rest => stmt.slots ++ .separator .semicolon :: Stmt.slotsOfAll rest

/-- The slots of clauses, which need nothing between them. -/
def Stmt.slotsOfClauses : List Stmt → List Slot
  | [] => []
  | clause :: rest => clause.slots ++ Stmt.slotsOfClauses rest

/-- The slots of a statement that may be missing. -/
def Stmt.slots? : Option Stmt → List Slot
  | none => []
  | some stmt => stmt.slots

/-- The slots of the first statement of a switch. -/
def Stmt.slotsOfInit : Option Stmt → List Slot
  | none => []
  | some stmt => stmt.slots ++ [.separator .semicolon]

/-- The slots of the second branch of a condition. -/
def Stmt.slotsOfElse : Option Stmt → List Slot
  | none => []
  | some stmt => .separator .elseKw :: stmt.slots

/-- The slots of a function. -/
def FuncDecl.slots : FuncDecl → List Slot
  | ⟨keyword, name, params, results, body⟩ =>
      .token keyword :: .token name :: signatureSlots params results ++
        Stmt.slotsOfBlock body

/-- The slots of a declaration. -/
def Decl.slots : Decl → List Slot
  | .func decl => decl.slots
  | .struct decl => decl.slots FieldDecl.slots
  | .interface decl => decl.slots InterfaceMember.slots
  | .enum decl => decl.slots fun variant => [.token variant]
  | .sum decl => decl.slots SumVariant.slots
  | .implements decl => decl.slots
  | .bad _ => []

end

/-- The slots of a file: the package clause, then bucket by bucket its items with a
semicolon behind each of them. -/
def File.slots (file : File) : List Slot :=
  .token file.package :: .token file.name ::
    (closedSlots Stmt.slots file.consts ++ closedSlots Decl.slots file.decls ++
      closedSlots (TypeDecl.slots FieldDecl.slots) file.structs ++
      closedSlots (TypeDecl.slots InterfaceMember.slots) file.interfaces ++
      closedSlots (TypeDecl.slots fun variant => [.token variant]) file.enums ++
      closedSlots (TypeDecl.slots SumVariant.slots) file.sums ++
      closedSlots ImplementsDecl.slots file.implements)

deriving instance DecidableEq for Cursor

namespace Cursor

/-- Reading one slot after another leads from `start` to `stop`. -/
def Faces : Cursor → List Slot → Cursor → Prop
  | start, [], stop => stop = start
  | start, slot :: rest, stop =>
      start.kind ≠ .eof ∧ slot.Takes start.current ∧
        (slot.isJoined → start.opensLine = false) ∧ Faces start.next rest stop

instance decidableFaces :
    (start : Cursor) → (slots : List Slot) → (stop : Cursor) → Decidable (start.Faces slots stop)
  | start, [], stop => inferInstanceAs (Decidable (stop = start))
  | start, _ :: rest, stop =>
      have := decidableFaces start.next rest stop
      inferInstanceAs (Decidable (_ ∧ _ ∧ _ ∧ _))

variable {start middle stop : Cursor} {slot : Slot} {slots rest : List Slot} {stored : Token}

@[simp] theorem faces_nil : start.Faces [] stop ↔ stop = start := Iff.rfl

theorem faces_append :
    start.Faces (slots ++ rest) stop ↔
      ∃ middle, start.Faces slots middle ∧ middle.Faces rest stop := by
  induction slots generalizing start with
  | nil => simp
  | cons slot slots ih =>
      simp only [List.cons_append, Faces, ih, exists_and_left, and_assoc]

namespace Faces

theorem next (hfaces : start.Faces (slot :: rest) stop) : start.next.Faces rest stop :=
  hfaces.2.2.2

theorem kind_eq (hfaces : start.Faces (slot :: rest) stop) : start.kind = slot.kind :=
  hfaces.2.1.kind_eq

theorem kind_head (hfaces : start.Faces slots stop) (hslot : slots.head? = some slot) :
    start.kind = slot.kind := by
  obtain ⟨rest, rfl⟩ := List.head?_eq_some_iff.1 hslot
  exact hfaces.kind_eq

theorem kind_ne_eof (hfaces : start.Faces (slot :: rest) stop) : start.kind ≠ .eof :=
  hfaces.1

theorem current_token (hfaces : start.Faces (.token stored :: rest) stop) :
    start.current = stored := hfaces.2.1

theorem current_joined (hfaces : start.Faces (.joined stored :: rest) stop) :
    start.current = stored := hfaces.2.1

theorem opensLine_joined (hfaces : start.Faces (.joined stored :: rest) stop) :
    start.opensLine = false := hfaces.2.2.1 rfl

/-- What faces joined slots faces the slots themselves, on the line before them. -/
theorem of_join (hfaces : start.Faces (Slot.join (.token stored :: rest)) stop) :
    start.Faces (.token stored :: rest) stop ∧ start.opensLine = false :=
  ⟨⟨hfaces.kind_ne_eof, hfaces.current_joined, nofun, hfaces.next⟩, hfaces.opensLine_joined⟩

/-- As many tokens are read as there are slots. -/
theorem exists_reads (hfaces : start.Faces slots stop) :
    ∃ run, start.Reads run stop ∧ run.length = slots.length := by
  induction slots generalizing start with
  | nil =>
      obtain rfl := faces_nil.1 hfaces
      exact ⟨[], .refl _, rfl⟩
  | cons slot rest ih =>
      obtain ⟨run, hrun, hlength⟩ := ih hfaces.next
      refine ⟨_, (Cursor.reads_next hfaces.kind_ne_eof).trans hrun, ?_⟩
      simp [hlength]

/-- The kinds ahead are those of the slots. -/
theorem kindAt_eq (hfaces : start.Faces slots stop) (offset : Nat)
    (hoffset : slots[offset]? = some slot) : start.kindAt offset = slot.kind := by
  induction slots generalizing start offset with
  | nil => simp at hoffset
  | cons first rest ih =>
      have hahead := Cursor.ahead_eq_cons hfaces.kind_ne_eof
      cases offset with
      | zero =>
          obtain rfl : first = slot := by simpa using hoffset
          simpa [kindAt, hahead] using hfaces.2.1.kind_eq
      | succ offset =>
          rw [List.getElem?_cons_succ] at hoffset
          have hnext := ih hfaces.next offset hoffset
          simpa [kindAt, hahead] using hnext

end Faces

end Cursor

end OriSyntax
