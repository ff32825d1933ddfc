import OriSyntax.Proofs.LoopComplete
import OriSyntax.Proofs.Lossless

/-!
Every well-formed file is read back from its written form: the outcome is the file itself,
and nothing is reported.
-/

namespace OriSyntax

namespace Grammar

variable {nested : Nested} {start : State} {cursor last : Cursor} {room : Nat} {inLoop : Bool}

theorem branchStmt_succeeds {keyword : Token} (hloop : start.loopDepth ≠ 0)
    (hfaces : cursor.Faces [.token keyword] last) (hlast : last.kind = .semicolon) :
    Succeeds branchStmt (start.moveTo cursor)
      (if keyword.kind = .breakKw then .breakLoop keyword else .continueLoop keyword)
      (start.moveTo last) := by
  apply Succeeds.read readsNext_advance hfaces
  rintro _ after rfl hafter
  obtain rfl := Cursor.faces_nil.1 hafter
  have hget : Succeeds (get : Production State) (start.moveTo last) (start.moveTo last)
      (start.moveTo last) := rfl
  apply Succeeds.bind hget
  apply Succeeds.of_neg hloop
  apply Succeeds.look hlast
  apply Succeeds.look rfl
  exact .pure _ _

theorem fallThroughStmt_succeeds {keyword : Token}
    (hfaces : cursor.Faces [.token keyword, .separator .semicolon] last)
    (hlast : last.kind.endsStmts) :
    Succeeds fallThroughStmt (start.moveTo cursor) (.fallThrough keyword)
      (start.moveTo last) := by
  apply Succeeds.read readsNext_advance hfaces
  rintro _ after rfl hafter
  apply Succeeds.acceptSome hafter rfl
  intro _ after _ hafter
  obtain rfl := Cursor.faces_nil.1 hafter
  apply Succeeds.look rfl
  apply Succeeds.of_pos (by simpa [Kind.endsStmts] using hlast)
  exact .pure _ _

/-- A statement without keywords is told by the kind with which its expression begins. -/
theorem stmtInside_simple {stmt : Stmt} (hkind : cursor.kind.beginsExpr)
    (hread : Succeeds (simpleStmt nested) (start.moveTo cursor) stmt (start.moveTo last)) :
    Succeeds (stmtInside nested) (start.moveTo cursor) stmt (start.moveTo last) := by
  simp only [Kind.beginsExpr, List.mem_cons, List.not_mem_nil, or_false, decide_eq_true_eq]
    at hkind
  rcases hkind with hkind | hkind | hkind | hkind | hkind | hkind | hkind | hkind
  all_goals exact Succeeds.look hkind hread

/-- The first kinds of a type declaration tell its sort. -/
theorem kinds_of_typeDecl {α : Type} {decl : TypeDecl α} {keyword : Kind}
    {wellFormed : α → Prop} {slots : α → List Slot} (hdecl : decl.WellFormed keyword wellFormed)
    (hfaces : cursor.Faces (decl.slots slots) last) :
    cursor.kind = .typeKw ∧ cursor.kindAt 1 = .ident ∧ cursor.kindAt 2 = keyword := by
  have hname : cursor.kindAt 1 = (Slot.token decl.name).kind := hfaces.kindAt_eq 1 rfl
  have hkeyword : cursor.kindAt 2 = (Slot.token decl.keyword).kind := hfaces.kindAt_eq 2 rfl
  exact ⟨hfaces.kind_eq.trans hdecl.typeKeyword, hname.trans hdecl.name,
    hkeyword.trans hdecl.keyword⟩

theorem atTypeDecl_gives (start : State) {decl : Decl} (hdecl : decl.WellFormedType)
    (hfaces : cursor.Faces decl.slots last) :
    cursor.kind = .typeKw ∧
      Gives atTypeDecl (start.moveTo cursor) true (start.moveTo cursor) := by
  have hgives : ∀ keyword ∈ [Kind.structKw, .interfaceKw, .enumKw, .sumKw],
      cursor.kindAt 1 = .ident → cursor.kindAt 2 = keyword →
      Gives atTypeDecl (start.moveTo cursor) true (start.moveTo cursor) := by
    intro keyword hmem hname hkeyword
    apply Gives.look hname
    apply Gives.look hkeyword
    simp only [hmem, decide_true, Bool.and_true]
    exact .pure _ _
  cases decl with
  | struct decl =>
      obtain ⟨htype, hname, hkeyword⟩ := kinds_of_typeDecl hdecl hfaces
      exact ⟨htype, hgives _ (by decide) hname hkeyword⟩
  | interface decl =>
      obtain ⟨htype, hname, hkeyword⟩ := kinds_of_typeDecl hdecl hfaces
      exact ⟨htype, hgives _ (by decide) hname hkeyword⟩
  | enum decl =>
      obtain ⟨htype, hname, hkeyword⟩ := kinds_of_typeDecl hdecl.1 hfaces
      exact ⟨htype, hgives _ (by decide) hname hkeyword⟩
  | sum decl =>
      obtain ⟨htype, hname, hkeyword⟩ := kinds_of_typeDecl hdecl.1 hfaces
      exact ⟨htype, hgives _ (by decide) hname hkeyword⟩
  | func _ | implements _ | bad _ => exact absurd hdecl id

section Stmts

variable (hnested : nested.Complete room) (hroom : start.nesting + room ≤ maxNesting)
  (hloop : inLoop → start.loopDepth ≠ 0)

include hnested hroom hloop

/-- A statement is read up to the semicolon behind it, if it may be followed by others. -/
theorem stmtInside_succeeds {stmt : Stmt} (hstmt : stmt.WellFormed inLoop)
    (hinside : stmt.inside ≤ room) (hother : stmt.isFallThrough = false)
    (hfaces : cursor.Faces stmt.slots last) (hlast : last.kind = .semicolon) :
    Succeeds (stmtInside nested) (start.moveTo cursor) stmt (start.moveTo last) := by
  have hends : last.Ends .lowest := .inl (by rw [hlast]; rfl)
  cases stmt with
  | block body =>
      simp only [Stmt.WellFormed] at hstmt
      obtain ⟨opening, rest, hslots, hopening⟩ := exists_slotsOfBlock hstmt
      have hkind : cursor.kind = .lbrace := by
        simp only [Stmt.slots, hslots] at hfaces
        exact hfaces.kind_eq.trans hopening
      apply Succeeds.look hkind
      exact Succeeds.map (block_succeeds hnested hroom hloop hstmt hinside hfaces)
  | const value | var value =>
      simp only [Stmt.WellFormed] at hstmt
      apply Succeeds.look (hfaces.kind_eq.trans hstmt.keyword)
      exact Succeeds.map
        (valueDecl_succeeds hnested.exprs hroom _ hstmt hinside hfaces hends)
  | assign left op right | incDec target op | effect value =>
      apply stmtInside_simple (Stmt.beginsExpr_of_faces rfl hstmt hfaces)
      exact simpleStmt_succeeds hnested hroom rfl hstmt hinside hfaces hends
  | returns keyword values =>
      simp only [Stmt.WellFormed] at hstmt
      apply Succeeds.look (hfaces.kind_eq.trans hstmt.1)
      exact .lift (returnStmt_gives hnested hroom hstmt.2 hinside hfaces hlast)
  | ifElse keyword condition body otherwise =>
      have hkeyword : keyword.kind = .ifKw := by
        simp only [Stmt.WellFormed] at hstmt
        exact hstmt.1
      apply Succeeds.look (hfaces.kind_eq.trans hkeyword)
      exact ifStmt_succeeds hnested hroom hloop hstmt hinside hfaces (by rw [hlast]; decide)
  | forLoop keyword first condition after body =>
      have hkeyword : keyword.kind = .forKw := by
        simp only [Stmt.WellFormed] at hstmt
        exact hstmt.1
      apply Succeeds.look (hfaces.kind_eq.trans hkeyword)
      exact loop_forLoop hnested hroom hstmt hinside hfaces
  | rangeLoop keyword key value op rangeKeyword subject body =>
      have hkeyword : keyword.kind = .forKw := by
        simp only [Stmt.WellFormed] at hstmt
        exact hstmt.1
      apply Succeeds.look (hfaces.kind_eq.trans hkeyword)
      exact loop_rangeLoop hnested hroom hstmt hinside hfaces
  | switch keyword first tag body =>
      have hkeyword : keyword.kind = .switchKw := by
        obtain ⟨opening, clauses, closing⟩ := body
        simp only [Stmt.WellFormed] at hstmt
        exact hstmt.1
      have hkind : cursor.kind = keyword.kind := by
        obtain ⟨opening, clauses, closing⟩ := body
        exact hfaces.kind_eq
      apply Succeeds.look (hkind.trans hkeyword)
      exact switch_succeeds hnested hroom hloop hstmt hinside hfaces
  | breakLoop keyword =>
      simp only [Stmt.WellFormed] at hstmt
      have hread := branchStmt_succeeds (hloop hstmt.1) hfaces hlast
      rw [if_pos hstmt.2] at hread
      exact Succeeds.look (hfaces.kind_eq.trans hstmt.2) hread
  | continueLoop keyword =>
      simp only [Stmt.WellFormed] at hstmt
      have hread := branchStmt_succeeds (hloop hstmt.1) hfaces hlast
      rw [if_neg (by rw [hstmt.2]; decide)] at hread
      exact Succeeds.look (hfaces.kind_eq.trans hstmt.2) hread
  | decl inner =>
      simp only [Stmt.WellFormed] at hstmt
      obtain ⟨hkind, htype⟩ := atTypeDecl_gives start hstmt hfaces
      apply Succeeds.look hkind
      apply Succeeds.bind (.lift htype)
      apply Succeeds.of_pos rfl
      exact Succeeds.map
        (typeDecl_succeeds hnested.orderly hnested.exprs hroom hstmt hinside hfaces)
  | fallThrough _ => simp [Stmt.isFallThrough] at hother
  | clause _ _ _ _ | bad _ => simp [Stmt.WellFormed] at hstmt

end Stmts

/-- Productions with enough levels inside them read what is nested no deeper. -/
theorem nested_complete {levels room : Nat} (hlevels : room ≤ levels) :
    (Grammar.nested levels).Complete room := by
  induction levels generalizing room with
  | zero =>
      obtain rfl : room = 0 := Nat.le_zero.1 hlevels
      refine ⟨nested_orderly 0, nested_readsExprs (Nat.le_refl 0), ?_, ?_⟩
      · intro inLoop stmt start cursor last _ _ _ hnesting
        exact absurd hnesting (Nat.not_succ_le_zero _)
      · intro inLoop keyword condition body otherwise start cursor last _ _ _ hnesting
        exact absurd hnesting (Nat.not_succ_le_zero _)
  | succ levels ih =>
      refine ⟨nested_orderly _, nested_readsExprs hlevels, ?_, ?_⟩
      · intro inLoop stmt start cursor last hroom hloop hstmt hnesting hfaces hends
        have hinside : stmt.inside ≤ room - 1 := Nat.le_sub_one_of_lt hnesting
        have hpositive : 0 < room := Nat.lt_of_lt_of_le (Nat.succ_pos _) hnesting
        have hinner : (Grammar.nested levels).Complete (room - 1) := ih (by omega)
        have hdeeper : start.deeper.nesting + (room - 1) ≤ maxNesting := by
          rw [State.nesting_deeper]
          omega
        have hread : ∀ middle,
            Succeeds (stmtInside (Grammar.nested levels)) (start.deeper.moveTo cursor) stmt
              (start.deeper.moveTo middle) →
            Gives (Grammar.nested (levels + 1)).stmt (start.moveTo cursor) stmt
              (start.moveTo middle) := by
          intro middle hmiddle
          apply Gives.look rfl
          apply Gives.recoverWith
          exact Succeeds.descend (by omega) hmiddle
        by_cases hother : stmt.isFallThrough
        · cases stmt with
          | fallThrough keyword =>
              simp only [Stmt.WellFormed] at hstmt
              refine ⟨last, hread last ?_, .inl rfl⟩
              apply Succeeds.look (hfaces.kind_eq.trans hstmt)
              exact fallThroughStmt_succeeds hfaces (hends rfl)
          | _ => simp [Stmt.isFallThrough] at hother
        · obtain ⟨middle, hbefore, hbehind⟩ := Cursor.faces_append.1 hfaces
          refine ⟨middle, hread middle ?_, .inr hbehind⟩
          exact stmtInside_succeeds hinner hdeeper hloop hstmt hinside
            (Bool.eq_false_iff.2 hother) hbefore hbehind.kind_eq
      · intro inLoop keyword condition body otherwise start cursor last hroom hloop hstmt
          hnesting hfaces hlast
        have hpositive : 0 < room := Nat.lt_of_lt_of_le (Nat.succ_pos _) hnesting
        have hinner : (Grammar.nested levels).Complete (room - 1) := ih (by omega)
        have hdeeper : start.deeper.nesting + (room - 1) ≤ maxNesting := by
          rw [State.nesting_deeper]
          omega
        apply Succeeds.descend (by omega)
        exact ifStmt_succeeds hinner hdeeper hloop hstmt (Nat.le_sub_one_of_lt hnesting) hfaces
          hlast

theorem outermost_complete : outermost.Complete maxNesting := nested_complete (Nat.le_refl _)

protected theorem Succeeds.attempt {α : Type} {production : Production α} {value : α}
    {stop : State} (hproduction : Succeeds production start value stop) :
    Succeeds (attempt production) start (.ok value) stop :=
  Succeeds.lift hproduction

theorem settle_succeeds {α : Type} (value : α) (start : State) :
    Succeeds (settle (.ok value)) start value start := rfl

theorem funcBody_succeeds {body : Enclosed Stmt} (hstart : start.nesting = 0)
    (hbody : Stmt.WellFormedBlock false body) (hinside : Stmt.insideBlock body ≤ maxNesting)
    (hfaces : cursor.Faces (Stmt.slotsOfBlock body) last) :
    Succeeds funcBody (start.moveTo cursor) body (start.moveTo last) := by
  let inner : State := { start with loopDepth := 0 }
  have hroom : inner.nesting + maxNesting ≤ maxNesting := by
    change start.nesting + maxNesting ≤ maxNesting
    rw [hstart, Nat.zero_add]
  have hloop : false = true → inner.loopDepth ≠ 0 := nofun
  have hread : Succeeds (block outermost) (inner.moveTo cursor) body (inner.moveTo last) :=
    block_succeeds outermost_complete hroom hloop hbody hinside hfaces
  have hget : Succeeds (get : Production State) (start.moveTo cursor) (start.moveTo cursor)
      (start.moveTo cursor) := rfl
  apply Succeeds.bind hget
  exact Succeeds.between hread rfl

theorem funcDecl_succeeds {decl : FuncDecl} (hstart : start.nesting = 0)
    (hdecl : decl.WellFormed) (hinside : Stmt.insideBlock decl.body ≤ maxNesting)
    (hfaces : cursor.Faces decl.slots last) :
    Succeeds funcDecl (start.moveTo cursor) decl (start.moveTo last) := by
  obtain ⟨keyword, name, params, results, body⟩ := decl
  obtain ⟨-, hname, hparams, hresults, hbody⟩ := hdecl
  obtain ⟨opening, rest, hslots, hopening⟩ := exists_slotsOfBlock hbody
  simp only [FuncDecl.slots, List.cons_append] at hfaces
  apply Succeeds.read readsNext_advance hfaces
  rintro _ after rfl hafter
  apply Succeeds.read (readsNext_expectAs _ _ (hafter.kind_eq.trans hname)) hafter
  rintro _ after rfl hafter
  obtain ⟨middle, hsignature, hblock⟩ := Cursor.faces_append.1 hafter
  obtain ⟨place, hlist, hfound⟩ := Cursor.faces_append.1 hsignature
  have hbrace : middle.kind = .lbrace := by
    rw [hslots] at hblock
    exact hblock.kind_eq.trans hopening
  apply Succeeds.bind (paramList_succeeds hparams hlist).attempt
  apply Succeeds.bind (results_succeeds hresults hfound (.inl hbrace)).attempt
  apply Succeeds.bind (funcBody_succeeds hstart hbody hinside hblock).attempt
  apply Succeeds.bind (settle_succeeds params _).onFailure
  apply Succeeds.bind (settle_succeeds results _)
  exact (settle_succeeds body _).map

theorem implementsDecl_succeeds {decl : ImplementsDecl} (hdecl : decl.WellFormed)
    (hfaces : cursor.Faces decl.slots last) (hlast : last.kind = .semicolon) :
    Succeeds implementsDecl (start.moveTo cursor) decl (start.moveTo last) := by
  apply Succeeds.read readsNext_advance hfaces
  rintro _ after rfl hafter
  apply Succeeds.read readsNext_advance hafter
  rintro _ after rfl hafter
  exact Succeeds.map (qualifiedName_succeeds _ hdecl.interface hafter hlast)

/-- A type declaration is read into the bucket of its sort. -/
theorem item_typeDecl (decl : Decl) (hstart : start.nesting = 0) (hdecl : decl.WellFormedType)
    (hinside : decl.inside ≤ maxNesting) (hfaces : cursor.Faces decl.slots last) :
    Gives item (start.moveTo cursor) (Item.ofTypeDecl decl) (start.moveTo last) := by
  have hkind : cursor.current.kind = .typeKw := (atTypeDecl_gives start hdecl hfaces).1
  have hroom : start.nesting + maxNesting ≤ maxNesting := by rw [hstart, Nat.zero_add]
  have hread := typeDecl_succeeds outermost_orderly outermost_complete.exprs hroom hdecl hinside
    hfaces
  apply Gives.look rfl
  dsimp only [State.cursor_moveTo]
  rw [hkind]
  exact Gives.recoverWith hread.map

end Grammar

/-- The slots of a top-level item. -/
def Item.slots : Item → List Slot
  | .const stmt => stmt.slots
  | .decl inner => inner.slots
  | .struct type => type.slots FieldDecl.slots
  | .interface type => type.slots InterfaceMember.slots
  | .enum type => type.slots fun variant => [.token variant]
  | .sum type => type.slots SumVariant.slots
  | .implements offer => offer.slots

/-- The item may stand in its bucket. -/
def Item.WellFormed : Item → Prop
  | .const stmt => ∃ decl, stmt = .const decl ∧ decl.WellFormed .constKw
  | .decl inner => ∃ function, inner = .func function ∧ function.WellFormed
  | .struct type => StructDecl.WellFormed type
  | .interface type => InterfaceDecl.WellFormed type
  | .enum type => EnumDecl.WellFormed type
  | .sum type => SumDecl.WellFormed type
  | .implements offer => offer.WellFormed

/-- What is nested inside a top-level item. -/
def Item.inside : Item → Nat
  | .const stmt => stmt.inside
  | .decl inner => inner.inside
  | .struct type => StructDecl.inside type
  | .interface _ | .enum _ | .sum _ | .implements _ => 0

namespace Item

/-- The written form of an item begins with a keyword or a name. -/
theorem exists_slots_eq_cons {item : Item} (hitem : item.WellFormed) :
    ∃ stored rest, item.slots = .token stored :: rest ∧ stored.kind ≠ .semicolon := by
  have hother : ∀ {stored : Token} {kind : Kind}, stored.kind = kind → kind ≠ .semicolon →
      stored.kind ≠ .semicolon := by
    intro stored kind hstored hkind
    rw [hstored]
    exact hkind
  cases item with
  | const stmt =>
      obtain ⟨decl, rfl, hdecl⟩ := hitem
      exact ⟨_, _, rfl, hother hdecl.keyword (by decide)⟩
  | decl inner =>
      obtain ⟨⟨keyword, name, params, results, body⟩, rfl, hfunction⟩ := hitem
      exact ⟨_, _, rfl, hother hfunction.1 (by decide)⟩
  | struct type => exact ⟨_, _, rfl, hother hitem.typeKeyword (by decide)⟩
  | interface type => exact ⟨_, _, rfl, hother hitem.typeKeyword (by decide)⟩
  | enum type => exact ⟨_, _, rfl, hother hitem.1.typeKeyword (by decide)⟩
  | sum type => exact ⟨_, _, rfl, hother hitem.1.typeKeyword (by decide)⟩
  | implements offer => exact ⟨_, _, rfl, hother hitem.typeName (by decide)⟩

theorem kind_of_faces {cursor last : Cursor} {item : Item} (hitem : item.WellFormed)
    {rest : List Slot} (hfaces : cursor.Faces (item.slots ++ rest) last) :
    cursor.kind ≠ .eof ∧ cursor.kind ≠ .semicolon := by
  obtain ⟨stored, others, hslots, hstored⟩ := exists_slots_eq_cons hitem
  rw [hslots, List.cons_append] at hfaces
  exact ⟨hfaces.kind_ne_eof, fun hkind => hstored (hfaces.kind_eq.symm.trans hkind)⟩

end Item

namespace File

/-- The slots of a file are those of its package clause and of its items. -/
theorem slots_eq (file : File) : file.slots =
    [.token file.package, .token file.name] ++ closedSlots Item.slots file.items := by
  simp [slots, items, closedSlots, List.flatMap_map, Item.slots]

/-- Sorting the items of a file into buckets gives the file back. -/
theorem ofItems_items (file : File) : ofItems file.package file.name file.items = file := by
  simp [ofItems, items, List.filterMap_append, List.filterMap_map]

theorem WellFormed.of_mem_items {file : File} (hfile : file.WellFormed)
    (hnesting : file.nesting ≤ Grammar.maxNesting) {item : Item} (hitem : item ∈ file.items) :
    item.WellFormed ∧ item.inside ≤ Grammar.maxNesting := by
  simp only [nesting, Nat.max_le, greatest_le_iff] at hnesting
  obtain ⟨hconsts, hdecls, hstructs⟩ := hnesting
  simp only [items, List.mem_append, List.mem_map, or_assoc] at hitem
  rcases hitem with ⟨stmt, hmem, rfl⟩ | ⟨decl, hmem, rfl⟩ | ⟨type, hmem, rfl⟩ |
    ⟨type, hmem, rfl⟩ | ⟨type, hmem, rfl⟩ | ⟨type, hmem, rfl⟩ | ⟨offer, hmem, rfl⟩
  · exact ⟨hfile.consts stmt hmem, hconsts stmt hmem⟩
  · exact ⟨hfile.decls decl hmem, hdecls decl hmem⟩
  · exact ⟨hfile.structs type hmem, hstructs type hmem⟩
  · exact ⟨hfile.interfaces type hmem, Nat.zero_le _⟩
  · exact ⟨hfile.enums type hmem, Nat.zero_le _⟩
  · exact ⟨hfile.sums type hmem, Nat.zero_le _⟩
  · exact ⟨hfile.implements offer hmem, Nat.zero_le _⟩

end File

namespace Grammar

variable {start : State} {cursor last : Cursor}

/-- An item is read up to the semicolon behind it. -/
theorem item_gives {found : Item} (hstart : start.nesting = 0) (hfound : found.WellFormed)
    (hinside : found.inside ≤ maxNesting) (hfaces : cursor.Faces found.slots last)
    (hlast : last.kind = .semicolon) :
    Gives item (start.moveTo cursor) found (start.moveTo last) := by
  have hroom : start.nesting + maxNesting ≤ maxNesting := by rw [hstart, Nat.zero_add]
  cases found with
  | const stmt =>
      obtain ⟨decl, rfl, hdecl⟩ := hfound
      have hkind : cursor.current.kind = .constKw := hfaces.kind_eq.trans hdecl.keyword
      have hends : last.Ends .lowest := .inl (by rw [hlast]; rfl)
      have hread := valueDecl_succeeds outermost_complete.exprs hroom "constant name" hdecl
        hinside hfaces hends
      apply Gives.look rfl
      dsimp only [State.cursor_moveTo]
      rw [hkind]
      exact Gives.recoverWith hread.map
  | decl inner =>
      obtain ⟨⟨keyword, name, params, results, body⟩, rfl, hfunction⟩ := hfound
      have hkind : cursor.current.kind = .funcKw := hfaces.kind_eq.trans hfunction.1
      have hread := funcDecl_succeeds hstart hfunction hinside hfaces
      apply Gives.look rfl
      dsimp only [State.cursor_moveTo]
      rw [hkind]
      exact Gives.recoverWith hread.map
  | struct type => exact item_typeDecl (.struct type) hstart hfound hinside hfaces
  | interface type => exact item_typeDecl (.interface type) hstart hfound hinside hfaces
  | enum type => exact item_typeDecl (.enum type) hstart hfound hinside hfaces
  | sum type => exact item_typeDecl (.sum type) hstart hfound hinside hfaces
  | implements offer =>
      have hkind : cursor.current.kind = .ident := hfaces.kind_eq.trans hfound.typeName
      have hsecond : cursor.kindAt 1 = (Slot.token offer.keyword).kind := hfaces.kindAt_eq 1 rfl
      have hread : Succeeds implementsDecl (start.moveTo cursor) offer (start.moveTo last) :=
        implementsDecl_succeeds hfound hfaces hlast
      apply Gives.look rfl
      dsimp only [State.cursor_moveTo]
      rw [hkind]
      apply Gives.look (hsecond.trans hfound.keyword)
      apply Gives.of_pos rfl
      exact Gives.recoverWith hread.map

/-- Passes over items gather all of them. -/
theorem itemPass_rounds {found : List Item} (hstart : start.nesting = 0)
    (hitems : ∀ item ∈ found, item.WellFormed ∧ item.inside ≤ maxNesting)
    (hfaces : cursor.Faces (closedSlots Item.slots found) last) :
    Relation.ReflTransGen (Round itemPass) ([], start.moveTo cursor)
      (found.reverse ++ [], start.moveTo last) := by
  apply closedSlots_rounds _ hfaces
  intro next others before cursor after hsuffix hbefore _
  obtain ⟨hwellFormed, hinside⟩ := hitems next (hsuffix.subset List.mem_cons_self)
  have hkinds := Item.kind_of_faces hwellFormed hbefore
  obtain ⟨middle, hitem, hsemicolon⟩ := Cursor.faces_append.1 hbefore
  obtain rfl := Cursor.faces_nil.1 hsemicolon.next
  have hread := item_gives hstart hwellFormed hinside hitem hsemicolon.kind_eq
  -- One round reads the item, and a round of its own steps over the semicolon.
  have hround : Round itemPass (before, start.moveTo cursor)
      (next :: before, start.moveTo middle) := by
    apply Gives.look rfl
    apply Gives.of_neg hkinds.1
    apply Gives.of_neg hkinds.2
    exact Gives.bind hread (.pure _ _)
  have hskip : Round itemPass (next :: before, start.moveTo middle)
      (next :: before, start.moveTo middle.next) := by
    apply Gives.look hsemicolon.kind_eq
    exact Gives.bind rfl (.pure _ _)
  exact .tail (.single hround) hskip

theorem items_gives {found : List Item} (hstart : start.nesting = 0)
    (hitems : ∀ item ∈ found, item.WellFormed ∧ item.inside ≤ maxNesting)
    (hfaces : cursor.Faces (closedSlots Item.slots found) last) (hlast : last.kind = .eof) :
    Gives items (start.moveTo cursor) found (start.moveTo last) := by
  have hrounds := itemPass_rounds hstart hitems hfaces
  have hdone : Gives (itemPass outermost (found.reverse ++ [])) (start.moveTo last)
      (.done (found.reverse ++ [])) (start.moveTo last) := by
    apply Gives.look hlast
    exact .pure _ _
  have hread := Gives.repeatStep itemPass_gains hrounds hdone
  rw [List.append_nil] at hread
  apply Gives.bind hread
  rw [List.reverse_reverse]
  exact .pure _ _

/-- A well-formed file is read from its slots if nothing follows them. -/
theorem file_gives {tree : File} (hstart : start.nesting = 0) (htree : tree.WellFormed)
    (hnesting : tree.nesting ≤ maxNesting) (hfaces : cursor.Faces tree.slots last)
    (hlast : last.kind = .eof) :
    Gives Grammar.file (start.moveTo cursor) tree (start.moveTo last) := by
  rw [tree.slots_eq] at hfaces
  obtain ⟨middle, hpackage, hitems⟩ := Cursor.faces_append.1 hfaces
  have hclause : Succeeds packageClause (start.moveTo cursor) (tree.package, tree.name)
      (start.moveTo middle) := by
    apply Succeeds.look (hpackage.kind_eq.trans htree.package)
    apply Succeeds.of_pos rfl
    apply Succeeds.read readsNext_advance hpackage
    rintro _ after rfl hafter
    exact Succeeds.readLast ((readsNext_expectAs _ _ (hafter.kind_eq.trans htree.name)).covering _)
      hafter
  have hread := items_gives hstart (fun item hitem => htree.of_mem_items hnesting hitem) hitems
    hlast
  apply Gives.bind hclause
  apply Gives.bind hread
  rw [tree.ofItems_items]
  exact .pure _ _

end Grammar

/-- Tokens on one line that may stand in some slots are read from them. -/
theorem Cursor.exists_faces {cursor : Cursor} {slots : List Slot} {tokens rest : List Token}
    {line : Nat} (htakes : List.Forall₂ Slot.Takes slots tokens)
    (hahead : cursor.ahead = tokens ++ rest) (hline : ∀ token ∈ tokens, token.line = line)
    (hbehind : ∀ token ∈ cursor.behind.head?, token.line = line) :
    ∃ last, cursor.Faces slots last ∧ last.ahead = rest := by
  induction htakes generalizing cursor with
  | nil => exact ⟨cursor, rfl, hahead⟩
  | @cons slot token slots tokens htake _ ih =>
      obtain ⟨htoken, hothers⟩ := List.forall_mem_cons.1 hline
      have hcurrent : cursor.current = token := by simp [Cursor.current, hahead]
      have hkind : cursor.kind ≠ .eof := by
        rw [Ne, Cursor.kind_eq_eof_iff, hahead]
        simp
      have hopens : cursor.opensLine = false := by
        cases hlast : cursor.behind.head? with
        | none => simp [Cursor.opensLine, hlast]
        | some before =>
            simp [Cursor.opensLine, hlast, hcurrent, htoken, hbehind before hlast]
      have hnext : cursor.next.ahead = tokens ++ rest := by
        rw [Cursor.ahead_next, hahead, List.cons_append, List.tail_cons]
      have hmoved : ∀ before ∈ cursor.next.behind.head?, before.line = line := by
        rw [Cursor.behind_next hkind, hcurrent]
        simpa using htoken
      obtain ⟨last, hfaces, hrest⟩ := ih hnext hothers hmoved
      exact ⟨last, ⟨hkind, hcurrent ▸ htake, fun _ => hopens, hfaces⟩, hrest⟩

theorem Slot.Takes.isWritten_of_mem {slots : List Slot} {tokens : List Token}
    (htakes : List.Forall₂ Slot.Takes slots tokens) (hwritten : Written slots) :
    ∀ token ∈ tokens, token.kind.isWritten := by
  induction htakes with
  | nil => exact nofun
  | cons htake _ ih =>
      obtain ⟨hslot, hothers⟩ := OfKinds.cons.1 hwritten
      exact List.forall_mem_cons.2 ⟨htake.kind_eq ▸ hslot, ih hothers⟩

/-- Written tokens are all that is read of a list, up to the end of the file. -/
theorem Cursor.ahead_ofTokens_append {tokens ending : List Token}
    (htokens : ∀ token ∈ tokens, token.kind.isWritten)
    (hending : ∀ token ∈ ending.head?, token.kind = .eof) :
    (Cursor.ofTokens (tokens ++ ending)).ahead = tokens := by
  have hplain : ∀ token ∈ tokens, token.kind ≠ .comment ∧ token.kind ≠ .eof := by
    simpa [Kind.isWritten] using htokens
  have hend : ending.takeWhile (·.kind ≠ .eof) = [] := by
    cases ending with
    | nil => rfl
    | cons token rest => simp [hending token rfl]
  have hbefore : ∀ token ∈ tokens, decide (token.kind ≠ .eof) = true := by
    simpa using fun token hmem => (hplain token hmem).2
  rw [Cursor.ahead_ofTokens, List.takeWhile_append_of_pos hbefore, hend, List.append_nil,
    List.filter_eq_self]
  simpa using fun token hmem => (hplain token hmem).1

/-- A well-formed file is what is made of tokens that its slots lead through. -/
theorem parse_of_faces {file : File} {tokens : List Token} {last : Cursor}
    (hfile : file.WellFormed) (hnesting : file.nesting ≤ Grammar.maxNesting)
    (hfaces : (Cursor.ofTokens tokens).Faces file.slots last) (hlast : last.kind = .eof) :
    parse tokens = ⟨file, []⟩ := by
  let start := initialState tokens
  have hstart : start.nesting = 0 := rfl
  have hread : Grammar.Gives Grammar.file (start.moveTo (.ofTokens tokens)) file
      (start.moveTo last) :=
    Grammar.file_gives hstart hfile hnesting hfaces hlast
  change (⟨(Grammar.file.run (start.moveTo (.ofTokens tokens))).1,
    (Grammar.file.run (start.moveTo (.ofTokens tokens))).2.diagnostics.toList⟩ : Parsed) = _
  rw [hread]
  rfl

/-- Every well-formed file whose tokens stand on one line is read back from them: the
outcome is the file itself, and nothing is reported. -/
theorem parse_of_wellFormed {file : File} {tokens ending : List Token}
    (hfile : file.WellFormed) (hnesting : file.nesting ≤ Grammar.maxNesting)
    (htokens : List.Forall₂ Slot.Takes file.slots tokens)
    (hline : ∃ line, ∀ token ∈ tokens, token.line = line)
    (hending : ∀ token ∈ ending.head?, token.kind = .eof) :
    parse (tokens ++ ending) = ⟨file, []⟩ := by
  obtain ⟨line, hline⟩ := hline
  have hwritten := Slot.Takes.isWritten_of_mem htokens (File.written_slots hfile)
  have hahead := Cursor.ahead_ofTokens_append hwritten hending
  obtain ⟨last, hfaces, hrest⟩ := Cursor.exists_faces htokens
    (hahead.trans (List.append_nil tokens).symm) hline nofun
  exact parse_of_faces hfile hnesting hfaces (Cursor.kind_eq_eof_iff.2 hrest)

/-- The tokens of a function with a loop and a `switch`, on one line. -/
def functionTokens : List Token :=
  [⟨.packageKw, "package", 1, 1⟩, ⟨.ident, "p", 1, 9⟩, ⟨.funcKw, "func", 1, 11⟩,
    ⟨.ident, "f", 1, 16⟩, ⟨.lparen, "(", 1, 18⟩, ⟨.ident, "n", 1, 20⟩, ⟨.intTy, "int", 1, 22⟩,
    ⟨.rparen, ")", 1, 26⟩, ⟨.intTy, "int", 1, 28⟩, ⟨.lbrace, "\x7b", 1, 32⟩,
    ⟨.forKw, "for", 1, 34⟩, ⟨.ident, "i", 1, 38⟩, ⟨.define, ":=", 1, 40⟩, ⟨.intLit, "1", 1, 43⟩,
    ⟨.semicolon, ";", 1, 45⟩, ⟨.ident, "i", 1, 47⟩, ⟨.lt, "<", 1, 49⟩, ⟨.ident, "n", 1, 51⟩,
    ⟨.semicolon, ";", 1, 53⟩, ⟨.ident, "i", 1, 55⟩, ⟨.inc, "++", 1, 57⟩,
    ⟨.lbrace, "\x7b", 1, 60⟩, ⟨.ifKw, "if", 1, 62⟩, ⟨.ident, "i", 1, 65⟩, ⟨.eq, "==", 1, 67⟩,
    ⟨.intLit, "2", 1, 70⟩, ⟨.lbrace, "\x7b", 1, 72⟩, ⟨.breakKw, "break", 1, 74⟩,
    ⟨.semicolon, ";", 1, 80⟩, ⟨.rbrace, "\x7d", 1, 82⟩, ⟨.semicolon, ";", 1, 84⟩,
    ⟨.rbrace, "\x7d", 1, 86⟩, ⟨.semicolon, ";", 1, 88⟩, ⟨.switchKw, "switch", 1, 90⟩,
    ⟨.ident, "n", 1, 97⟩, ⟨.lbrace, "\x7b", 1, 99⟩, ⟨.caseKw, "case", 1, 101⟩,
    ⟨.intLit, "1", 1, 106⟩, ⟨.comma, ",", 1, 108⟩, ⟨.intLit, "2", 1, 110⟩,
    ⟨.colon, ":", 1, 112⟩, ⟨.fallthroughKw, "fallthrough", 1, 114⟩, ⟨.semicolon, ";", 1, 126⟩,
    ⟨.defaultKw, "default", 1, 128⟩, ⟨.colon, ":", 1, 136⟩, ⟨.returnKw, "return", 1, 138⟩,
    ⟨.ident, "f", 1, 145⟩, ⟨.lparen, "(", 1, 147⟩, ⟨.minus, "-", 1, 149⟩, ⟨.ident, "n", 1, 151⟩,
    ⟨.rparen, ")", 1, 153⟩, ⟨.semicolon, ";", 1, 155⟩, ⟨.rbrace, "\x7d", 1, 157⟩,
    ⟨.semicolon, ";", 1, 159⟩, ⟨.rbrace, "\x7d", 1, 161⟩, ⟨.semicolon, ";", 1, 163⟩]

/-- The body of the function. -/
def functionBody : Enclosed Stmt :=
  ⟨⟨.lbrace, "\x7b", 1, 32⟩,
    [.forLoop ⟨.forKw, "for", 1, 34⟩
        (some (.assign (.ident ⟨.ident, "i", 1, 38⟩) ⟨.define, ":=", 1, 40⟩
          (.literal .int ⟨.intLit, "1", 1, 43⟩)))
        (some (.binary (.ident ⟨.ident, "i", 1, 47⟩) ⟨.lt, "<", 1, 49⟩
          (.ident ⟨.ident, "n", 1, 51⟩)))
        (some (.incDec (.ident ⟨.ident, "i", 1, 55⟩) ⟨.inc, "++", 1, 57⟩))
        ⟨⟨.lbrace, "\x7b", 1, 60⟩,
          [.ifElse ⟨.ifKw, "if", 1, 62⟩
            (.binary (.ident ⟨.ident, "i", 1, 65⟩) ⟨.eq, "==", 1, 67⟩
              (.literal .int ⟨.intLit, "2", 1, 70⟩))
            ⟨⟨.lbrace, "\x7b", 1, 72⟩, [.breakLoop ⟨.breakKw, "break", 1, 74⟩],
              ⟨.rbrace, "\x7d", 1, 82⟩⟩ none],
          ⟨.rbrace, "\x7d", 1, 86⟩⟩,
      .switch ⟨.switchKw, "switch", 1, 90⟩ none (some (.ident ⟨.ident, "n", 1, 97⟩))
        ⟨⟨.lbrace, "\x7b", 1, 99⟩,
          [.clause ⟨.caseKw, "case", 1, 101⟩
              [.literal .int ⟨.intLit, "1", 1, 106⟩, .literal .int ⟨.intLit, "2", 1, 110⟩]
              ⟨.colon, ":", 1, 112⟩ [.fallThrough ⟨.fallthroughKw, "fallthrough", 1, 114⟩],
            .clause ⟨.defaultKw, "default", 1, 128⟩ [] ⟨.colon, ":", 1, 136⟩
              [.returns ⟨.returnKw, "return", 1, 138⟩
                [.call (.ident ⟨.ident, "f", 1, 145⟩)
                  ⟨⟨.lparen, "(", 1, 147⟩,
                    [.unary ⟨.minus, "-", 1, 149⟩ (.ident ⟨.ident, "n", 1, 151⟩)],
                    ⟨.rparen, ")", 1, 153⟩⟩]]],
          ⟨.rbrace, "\x7d", 1, 157⟩⟩],
    ⟨.rbrace, "\x7d", 1, 161⟩⟩

/-- The file of these tokens. -/
def functionFile : File where
  package := ⟨.packageKw, "package", 1, 1⟩
  name := ⟨.ident, "p", 1, 9⟩
  consts := []
  decls := [.func
    { keyword := ⟨.funcKw, "func", 1, 11⟩
      name := ⟨.ident, "f", 1, 16⟩
      params := ⟨⟨.lparen, "(", 1, 18⟩,
        [⟨some ⟨.ident, "n", 1, 20⟩, .named ⟨.intTy, "int", 1, 22⟩⟩], ⟨.rparen, ")", 1, 26⟩⟩
      results := some (.single (.named ⟨.intTy, "int", 1, 28⟩))
      body := functionBody }]
  structs := []
  interfaces := []
  enums := []
  sums := []
  implements := []

theorem wellFormed_functionBody : Stmt.WellFormedBlock false functionBody := by
  simp +decide [functionBody, Stmt.WellFormedBlock, Stmt.WellFormedAll, Stmt.WellFormed,
    Stmt.WellFormedPart, Stmt.WellFormedClauses, Expr.Canonical, Expr.CanonicalAll, CaseValues]

theorem wellFormed_functionFile : functionFile.WellFormed where
  package := rfl
  name := rfl
  consts := by simp [functionFile]
  decls := by
    have hresults : ∀ found ∈ some (Results.single (.named ⟨.intTy, "int", 1, 28⟩)),
        found.WellFormed := by
      rintro _ ⟨⟩
      rfl
    intro decl hdecl
    obtain rfl := List.mem_singleton.1 hdecl
    refine ⟨_, rfl, rfl, rfl, ⟨rfl, ?_, rfl⟩, hresults, wellFormed_functionBody⟩
    exact List.forall_mem_singleton.2 ⟨rfl, by simp, rfl⟩
  structs := by simp [functionFile]
  interfaces := by simp [functionFile]
  enums := by simp [functionFile]
  sums := by simp [functionFile]
  implements := by simp [functionFile]

theorem parse_functionTokens : parse (functionTokens ++ []) = ⟨functionFile, []⟩ := by
  apply parse_of_wellFormed
  · exact wellFormed_functionFile
  · decide
  · decide
  · exact ⟨1, by decide⟩
  · exact nofun

end OriSyntax
