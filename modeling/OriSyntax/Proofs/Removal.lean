import OriSyntax.Proofs.Enclosing

/-!
A bad statement more or less.  If two runs read the list that is enclosed in the same way, save
that the first one finds a bad statement more, they go on to read the same file, save for that
statement.
-/

namespace OriSyntax

variable {α β : Type}

/-- Lists that are the same save for one place, at which `rel` is true of what they hold. -/
inductive DiffersOnce (rel : α → α → Prop) : List α → List α → Prop where
  | intro (before : List α) {item item' : α} (after : List α) (hitem : rel item item') :
      DiffersOnce rel (before ++ item :: after) (before ++ item' :: after)

/-- The second list is the first one without the bad statement, or without it inside one of the
statements. -/
inductive Stmt.LeftOut (bad : BadNode) (within : Stmt → Stmt → Prop) :
    List Stmt → List Stmt → Prop where
  | here (before after : List Stmt) :
      LeftOut bad within (before ++ .bad bad :: after) (before ++ after)
  | inside {stmts stmts' : List Stmt} (hstmts : DiffersOnce within stmts stmts') :
      LeftOut bad within stmts stmts'

/-- The second statement is the first one without the bad statement in one of its lists, or it
is the same. -/
inductive Stmt.Without (bad : BadNode) : Stmt → Stmt → Prop where
  | refl (stmt : Stmt) : Stmt.Without bad stmt stmt
  | block {opening closing : Token} {items items' : List Stmt}
      (hitems : Stmt.LeftOut bad (Stmt.Without bad) items items') :
      Stmt.Without bad (.block ⟨opening, items, closing⟩) (.block ⟨opening, items', closing⟩)
  | ifBody {keyword opening closing : Token} {condition : Expr} {otherwise : Option Stmt}
      {items items' : List Stmt} (hitems : Stmt.LeftOut bad (Stmt.Without bad) items items') :
      Stmt.Without bad (.ifElse keyword condition ⟨opening, items, closing⟩ otherwise)
        (.ifElse keyword condition ⟨opening, items', closing⟩ otherwise)
  | otherwise {keyword : Token} {condition : Expr} {body : Block} {branch branch' : Stmt}
      (hbranch : Stmt.Without bad branch branch') :
      Stmt.Without bad (.ifElse keyword condition body (some branch))
        (.ifElse keyword condition body (some branch'))
  | forLoop {keyword opening closing : Token} {first after : Option Stmt}
      {condition : Option Expr} {items items' : List Stmt}
      (hitems : Stmt.LeftOut bad (Stmt.Without bad) items items') :
      Stmt.Without bad (.forLoop keyword first condition after ⟨opening, items, closing⟩)
        (.forLoop keyword first condition after ⟨opening, items', closing⟩)
  | rangeLoop {keyword rangeKeyword opening closing : Token} {key value : Option Expr}
      {op : Option Token} {subject : Expr} {items items' : List Stmt}
      (hitems : Stmt.LeftOut bad (Stmt.Without bad) items items') :
      Stmt.Without bad
        (.rangeLoop keyword key value op rangeKeyword subject ⟨opening, items, closing⟩)
        (.rangeLoop keyword key value op rangeKeyword subject ⟨opening, items', closing⟩)
  | switch {keyword opening closing : Token} {first : Option Stmt} {tag : Option Expr}
      {cases cases' : List Stmt}
      (hcases : DiffersOnce (Stmt.Without bad) cases cases') :
      Stmt.Without bad (.switch keyword first tag ⟨opening, cases, closing⟩)
        (.switch keyword first tag ⟨opening, cases', closing⟩)
  | clause {keyword colon : Token} {values : List Expr} {body body' : List Stmt}
      (hbody : Stmt.LeftOut bad (Stmt.Without bad) body body') :
      Stmt.Without bad (.clause keyword values colon body) (.clause keyword values colon body')
  /-- What could not be read may end with a clause. -/
  | badClause {first : Token} {reason : String} {clause clause' : Stmt}
      (hclause : Stmt.Without bad clause clause') :
      Stmt.Without bad (.bad ⟨first, clause.last, reason⟩) (.bad ⟨first, clause'.last, reason⟩)

/-- The second declaration is the first one without the bad statement in its body, or it is the
same. -/
inductive Decl.Without (bad : BadNode) : Decl → Decl → Prop where
  | refl (decl : Decl) : Decl.Without bad decl decl
  | func {keyword name opening closing : Token} {params : ParamList} {results : Option Results}
      {items items' : List Stmt} (hitems : Stmt.LeftOut bad (Stmt.Without bad) items items') :
      Decl.Without bad (.func ⟨keyword, name, params, results, ⟨opening, items, closing⟩⟩)
        (.func ⟨keyword, name, params, results, ⟨opening, items', closing⟩⟩)

/-- The second item is the first one without the bad statement in the body of a function, or it
is the same declaration. -/
inductive Item.Without (bad : BadNode) : Item → Item → Prop where
  | decl {decl decl' : Decl} (hdecl : Decl.Without bad decl decl') :
      Item.Without bad (.decl decl) (.decl decl')

/-- The second file is the first one without the bad statement in one of its declarations, or it
is the same. -/
inductive File.Without (bad : BadNode) : File → File → Prop where
  | intro (file : File) {decls decls' : List Decl}
      (hdecls : DiffersOnce (Decl.Without bad) decls decls') :
      File.Without bad { file with decls := decls } { file with decls := decls' }

section Lists

variable {rel : α → α → Prop} {items items' : List α}

theorem DiffersOnce.cons (hitems : DiffersOnce rel items items') (item : α) :
    DiffersOnce rel (item :: items) (item :: items') := by
  obtain ⟨before, after, hitem⟩ := hitems
  exact .intro (item :: before) after hitem

theorem DiffersOnce.append (hitems : DiffersOnce rel items items') (rest : List α) :
    DiffersOnce rel (items ++ rest) (items' ++ rest) := by
  obtain ⟨before, after, hitem⟩ := hitems
  simpa using DiffersOnce.intro before (after ++ rest) hitem

theorem Stmt.LeftOut.append {bad : BadNode} {within : Stmt → Stmt → Prop}
    {stmts stmts' : List Stmt} (hstmts : Stmt.LeftOut bad within stmts stmts') (rest : List Stmt) :
    Stmt.LeftOut bad within (stmts ++ rest) (stmts' ++ rest) := by
  cases hstmts with
  | here before after => simpa using here before (after ++ rest)
  | inside hstmts => exact .inside (hstmts.append rest)

/-- The same is true of what was found in the lists, the last one first. -/
def Stmt.FoundWithout (bad : BadNode) (found found' : List Stmt) : Prop :=
  Stmt.LeftOut bad (Stmt.Without bad) found.reverse found'.reverse

namespace Stmt.FoundWithout

variable {bad : BadNode} {found found' : List Stmt}

theorem cons (hfound : FoundWithout bad found found') (stmt : Stmt) :
    FoundWithout bad (stmt :: found) (stmt :: found') := by
  simpa [FoundWithout] using LeftOut.append hfound [stmt]

theorem reverse (hfound : FoundWithout bad found.reverse found'.reverse) :
    LeftOut bad (Stmt.Without bad) found found' := by
  simpa [FoundWithout] using hfound

end Stmt.FoundWithout

end Lists

theorem File.ofItems_without {bad : BadNode} {items items' : List Item} (package name : Token)
    (hitems : DiffersOnce (Item.Without bad) items items') :
    File.Without bad (.ofItems package name items) (.ofItems package name items') := by
  obtain ⟨before, after, ⟨hdecl⟩⟩ := hitems
  have hfile := File.Without.intro (.ofItems package name (before ++ after)) (DiffersOnce.intro
    (File.ofItems package name before).decls (File.ofItems package name after).decls hdecl)
  simpa [File.ofItems, List.filterMap_append] using hfile

theorem isDefaultClause_without {bad : BadNode} {stmt stmt' : Stmt}
    (hstmt : Stmt.Without bad stmt stmt') :
    Grammar.isDefaultClause stmt' = Grammar.isDefaultClause stmt := by
  cases hstmt <;> rfl

theorem any_isDefaultClause_without {bad : BadNode} {found found' : List Stmt}
    (hfound : DiffersOnce (Stmt.Without bad) found.reverse found'.reverse) :
    found'.any Grammar.isDefaultClause = found.any Grammar.isDefaultClause := by
  rw [← List.any_reverse, ← List.any_reverse (l := found)]
  generalize found.reverse = stmts, found'.reverse = stmts' at hfound
  obtain ⟨before, after, hitem⟩ := hfound
  simp [isDefaultClause_without hitem]

namespace Grammar

open Accords

variable {list list' : Step (List Stmt)} {levels : Nat} {bad : BadNode}
  {pre : State → State → Prop}

theorem leaving_accords {production production' : Production α} {rel : α → α → Prop}
    {leave : State → State}
    (hproduction : AccordsOrFail pre production production' rel State.Alongside)
    (hleave : ∀ state state' : State, state.Alongside state' →
      (leave state).Alongside (leave state'))
    (htold : ∀ state, (leave state).diagnostics = state.diagnostics) :
    AccordsOrFail pre (leaving leave production) (leaving leave production') rel
      State.Alongside := by
  intro start start' hstart
  obtain ⟨hvalue, hstop, added, hadded, hadded'⟩ := hproduction start start' hstart
  exact ⟨hvalue, hleave _ _ hstop, added, (congrArg _ (htold _)).trans hadded,
    (congrArg _ (htold _)).trans hadded'⟩

theorem State.SameAhead.tell {state state' : State} (hsame : state.SameAhead state')
    (diagnostic : Diagnostic) : (state.tell diagnostic).SameAhead (state'.tell diagnostic) :=
  ⟨hsame.begun, hsame.ahead, hsame.eof, hsame.nesting, hsame.loopDepth⟩

theorem Ended.tell {stops : Kind → Bool} {state state' : State} (hended : Ended stops state state')
    (diagnostic : Diagnostic) : Ended stops (state.tell diagnostic) (state'.tell diagnostic) :=
  hended.imp (fun halongside => ⟨halongside.toSameAhead.tell diagnostic, halongside.last⟩)
    fun hsame => ⟨hsame.1.tell diagnostic, hsame.2⟩

/-- The same report about parts that may end at different tokens. -/
theorem report_accords (diagnostic : Diagnostic) (first last last' : Token)
    (hpre : ∀ state state', pre state state' →
      pre (state.tell diagnostic) (state'.tell diagnostic)) :
    Accords pre (report diagnostic first last) (report diagnostic first last')
      (fun bad bad' => bad = ⟨first, last, diagnostic.message⟩ ∧
        bad' = ⟨first, last', diagnostic.message⟩) pre :=
  fun start start' hstart => ⟨⟨rfl, rfl⟩, hpre start start' hstart, [diagnostic],
    Array.toList_push, Array.toList_push⟩

theorem elseBranch_accords (levels : Nat) :
    AccordsOrFail State.Alongside (elseBranch (nested levels)) (elseBranch (nested levels)) Eq
      State.Alongside :=
  (of_mirrors (fun _ _ => elseBranch_mirrors (nested_mirrors levels)) fun _ hexact _ _ houtcome =>
    .of_outcome hexact houtcome fun _ _ => eq_of_optionRel (Stmt.Alike.eq hexact)).strengthen
      fun _ _ hstart => ⟨hstart, trivial⟩

theorem strayCase_accords :
    Accords (fun state state' => state.Alongside state' ∧ Inside state) strayCase strayCase Eq
      State.Alongside :=
  of_mirrors (fun _ htogether => strayCase_mirrors.knowing fun _ => htogether)
    fun _ hexact _ _ halike => (halike.eq hexact).symm

theorem settle_accords {rel : α → α → Prop} {outcome outcome' : Except BadNode α}
    (houtcome : Coincides rel outcome outcome') :
    AccordsOrFail State.Alongside (settle outcome) (settle outcome') rel State.Alongside :=
  .pure houtcome

theorem Coincides.refl (outcome : Except BadNode α) : Coincides Eq outcome outcome := by
  cases outcome with
  | ok value => exact .ok rfl
  | error bad => exact .error bad

theorem caseClause_accords (levels : Nat) :
    AccordsOrFail (fun state state' => state.SameAhead state' ∧ Inside state)
      (caseClause (nested levels)) (caseClause (nested levels)) Eq State.Alongside := by
  have hclause : AccordsOrFail (fun state state' => state.SameAhead state' ∧ Inside state ∧ True)
      (caseClause (nested levels)) (caseClause (nested levels)) Eq State.Alongside :=
    of_mirrorsFrom (fun _ htogether => caseClause_mirrors (nested_mirrors levels)
      (fun _ => .inl htogether) fun _ _ hstart => ⟨hstart.1, hstart.2.1⟩)
      fun _ hexact _ _ houtcome => .of_outcome hexact houtcome fun _ _ halike => halike.eq hexact
  exact hclause.strengthen fun _ _ hstart => ⟨hstart.1, hstart.2, trivial⟩

/-- A clause is read in the same way if the same was found before, as far as it matters. -/
theorem caseStmt_accords {found found' : List Stmt}
    (hfound : found'.any isDefaultClause = found.any isDefaultClause) :
    Accords (fun state state' => state.SameAhead state' ∧ Inside state)
      (caseStmt (nested levels) found) (caseStmt (nested levels) found') Eq State.Alongside := by
  rw [caseStmt, caseStmt, hfound]
  refine .look (fun _ _ hstart => hstart.1.current) fun start => .bind_run
    ((caseClause_accords levels).strengthen fun _ _ hstart => hstart.1) ?_ fun node => ?_
  · rintro clause _ rfl
    refine .ite (fun _ => .bind (report_accords _ _ _ _ fun _ _ hstart => ?_) ?_) fun _ => .pure rfl
    · exact ⟨hstart.toSameAhead.tell _, hstart.last⟩
    · rintro _ _ ⟨rfl, rfl⟩
      exact .pure rfl
  · refine .bind (skip_accords _) fun _ _ _ => .bind (cover_accords start node) ?_
    rintro node _ rfl
    exact .pure rfl

/-- The clauses behind one in which the statement is left out. -/
theorem casePass_accords {found found' : List Stmt}
    (hpre : ∀ state state', pre state state' → state.Alongside state' ∨
      state.SameAhead state' ∧ state.cursor.kind ∈ [.caseKw, .defaultKw])
    (hfound : DiffersOnce (Stmt.Without bad) found.reverse found'.reverse) :
    Accords pre (casePass (nested levels) found) (casePass (nested levels) found')
      (Turn fun found found' => DiffersOnce (Stmt.Without bad) found.reverse found'.reverse)
      State.Alongside := by
  have hsame {state state' : State} (hstart : pre state state') : state.SameAhead state' :=
    (hpre state state' hstart).elim (fun halongside => halongside.toSameAhead) fun hsame => hsame.1
  have hcons (stmt : Stmt) :
      DiffersOnce (Stmt.Without bad) (stmt :: found).reverse (stmt :: found').reverse := by
    simpa using hfound.append [stmt]
  refine .look (fun _ _ hstart => (hsame hstart).kind) fun kind => ?_
  have hbetween (state state' : State) (hstart : pre state state' ∧ kind = state.cursor.kind)
      (hkind : kind ∉ [.caseKw, .defaultKw]) : state.Alongside state' :=
    (hpre state state' hstart.1).resolve_right fun hsame => hkind (hstart.2 ▸ hsame.2)
  refine .ite (fun hends => ?_) fun hends => .ite (fun hkind => ?_) fun _ =>
    .ite (fun _ => ?_) fun hkind => ?_
  · refine (Accords.pure (.done hfound)).mono (fun _ _ hstart => hstart) (fun _ _ hvalue => hvalue)
      fun state state' hstart => hbetween state state' hstart ?_
    have hother : ∀ kind ∈ [Kind.rbrace, .eof], kind ∉ [Kind.caseKw, .defaultKw] := by decide
    exact hother kind hends
  · refine .bind (advance_accords fun state state' hstart => ⟨hsame hstart.1, ?_⟩)
      fun _ _ _ => .pure (.yield hfound)
    rw [Inside, ← hstart.2, hkind]
    decide
  · refine .bind ((caseStmt_accords (any_isDefaultClause_without hfound)).strengthen
      fun state state' hstart => ⟨hsame hstart.1, ?_⟩) ?_
    · rw [Inside, ← hstart.2]
      simp_all
    · rintro stmt _ rfl
      exact .pure (.yield (hcons stmt))
  · refine .bind (strayCase_accords.strengthen fun state state' hstart =>
      ⟨hbetween state state' hstart hkind, ?_⟩) ?_
    · rw [Inside, ← hstart.2]
      simp_all
    · rintro stmt _ rfl
      exact .pure (.yield (hcons stmt))

theorem checkClause_accords (earlier : List Stmt) (start : Token) {clause clause' : Stmt}
    {stops : Kind → Bool} (hclause : Stmt.Without bad clause clause') :
    Accords (Ended stops) (checkClause earlier start clause) (checkClause earlier start clause')
      (Stmt.Without bad) (Ended stops) := by
  rw [checkClause, checkClause, isDefaultClause_without hclause]
  refine .ite (fun _ => .bind (report_accords _ _ _ _ fun _ _ hstart => hstart.tell _) ?_)
    fun _ => .pure hclause
  rintro _ _ ⟨rfl, rfl⟩
  exact .pure (.badClause hclause)

/-- What is left of the clauses behind one in which the statement is left out. -/
theorem restOfCases_accords {found found' : List Stmt}
    (hfound : DiffersOnce (Stmt.Without bad) found.reverse found'.reverse) :
    Accords (Ended (· ∈ [.caseKw, .defaultKw, .rbrace]))
      (repeatStep (casePass (nested levels)) found) (repeatStep (casePass (nested levels)) found')
      (fun found found' => DiffersOnce (Stmt.Without bad) found.reverse found'.reverse)
      (Ended (· = .rbrace)) := by
  refine repeatStep_ended (casePass_gains (nested_orderly levels))
    (fun _ _ hfound => casePass_accords (fun _ _ hstart => .inl hstart) hfound)
    (fun _ _ hstart => hstart.imp_right fun hsame => ⟨hsame.1, hsame.2.1⟩) ?_
    (casePass_accords ?_ hfound) hfound
  · exact fun start hstops found => .look rfl (.of_pos (by simp_all) (.pure _ _))
  · rintro state state' ⟨halongside | ⟨hsame, -, hkind⟩, hother⟩
    · exact .inl halongside
    · refine .inr ⟨hsame, ?_⟩
      simp_all

/-- The clauses of a switch, in one of which the statement is left out. -/
theorem ClauseHead.rest_accords (head : ClauseHead)
    (hlist : Accords pre list list' (Stmt.LeftOut bad (Stmt.Without bad))
      (Ended (· ∈ [.caseKw, .defaultKw, .rbrace]))) :
    Accords pre (head.rest (nested levels) list) (head.rest (nested levels) list')
      (DiffersOnce (Stmt.Without bad)) (Ended (· = .rbrace)) := by
  refine .bind hlist fun body body' hbody =>
    .bind (checkClause_accords head.earlier head.label (.clause hbody)) fun stmt stmt' hstmt =>
      .bind (restOfCases_accords ?_) fun _ _ hfound => .pure hfound
  simpa using DiffersOnce.intro head.earlier.reverse [] hstmt

/-- Around a list from which the statement is left out, the statement is left out. -/
theorem Layer.rest_accords (layer : Layer)
    (hlist : Accords pre list list' (Stmt.LeftOut bad (Stmt.Without bad)) (Ended layer.stops)) :
    AccordsOrFail pre (layer.rest (nested levels) list) (layer.rest (nested levels) list')
      (Stmt.Without bad) State.Alongside := by
  induction layer with
  | block opening =>
      refine .run_bind (restOfBlock_accords opening hlist) (fun _ _ hstop => hstop) ?_
      rintro ⟨_, items, closing⟩ ⟨_, items', _⟩ ⟨hitems, rfl, rfl⟩
      exact .run_pure (.block hitems)
  | ifBody keyword condition opening =>
      refine .run_bind (restOfBlock_accords opening hlist) (fun _ _ hstop => hstop) ?_
      rintro ⟨_, items, closing⟩ ⟨_, items', _⟩ ⟨hitems, rfl, rfl⟩
      refine .run_bind (elseBranch_accords levels) (fun _ _ hstop => hstop) ?_
      rintro branch _ rfl
      exact .run_pure (.ifBody hitems)
  | elseBody keyword condition body opening =>
      refine .run_bind (restOfBlock_accords opening hlist) (fun _ _ hstop => hstop) ?_
      rintro ⟨_, items, closing⟩ ⟨_, items', _⟩ ⟨hitems, rfl, rfl⟩
      exact .run_pure (.otherwise (.block hitems))
  | elseIf keyword condition body inner ih =>
      refine .run_bind (leaving_accords (ih hlist) ?_ fun _ => rfl) (fun _ _ hstop => hstop)
        fun branch branch' hbranch => .run_pure (.otherwise hbranch)
      exact fun _ _ hstop => ⟨⟨hstop.begun, hstop.ahead, hstop.eof,
        congrArg (· - 1) hstop.nesting, hstop.loopDepth⟩, hstop.last⟩
  | loop keyword head opening =>
      refine .covering keyword (.skipping .compound ?_)
      refine .run_bind (leaving_accords (restOfBlock_accords opening hlist) ?_ fun _ => rfl)
        (fun _ _ hstop => hstop) ?_
      · exact fun _ _ hstop => ⟨⟨hstop.begun, hstop.ahead, hstop.eof, hstop.nesting,
          congrArg (· - 1) hstop.loopDepth⟩, hstop.last⟩
      · rintro ⟨_, items, closing⟩ ⟨_, items', _⟩ ⟨hitems, rfl, rfl⟩
        cases head with
        | clauses first condition after => exact .run_pure (.forLoop hitems)
        | range key value op rangeKeyword subject => exact .run_pure (.rangeLoop hitems)
  | clause head =>
      refine .covering head.keyword (.skipping .compound ?_)
      refine .run_step (head.rest_accords hlist) fun cases cases' hcases => ?_
      refine .run_bind (.covering head.keyword expectClosing_accords) (fun _ _ hstop => hstop) ?_
      rintro closing _ rfl
      exact .run_pure (.switch hcases)

theorem item_accords :
    Accords (fun state state' => state.Alongside state' ∧ Inside state) item item Eq
      State.Alongside :=
  of_mirrors (fun _ _ => item_mirrors fun _ _ hstart => ⟨hstart.1.toNear, hstart.2⟩)
    fun _ hexact _ _ halike => (halike.eq hexact).symm

theorem itemPass_accords {found found' : List Item}
    (hfound : DiffersOnce (Item.Without bad) found.reverse found'.reverse) :
    Accords State.Alongside (itemPass outermost found) (itemPass outermost found')
      (Turn fun found found' => DiffersOnce (Item.Without bad) found.reverse found'.reverse)
      State.Alongside := by
  refine .look (fun _ _ hstart => hstart.kind) fun kind => .ite (fun _ => ?_) fun hgoes => ?_
  · exact (Accords.pure (.done hfound)).mono (fun _ _ hstart => hstart) (fun _ _ hvalue => hvalue)
      fun _ _ hstop => hstop.1
  have hinside (state state' : State) (hstart : state.Alongside state' ∧ kind = state.cursor.kind) :
      state.Alongside state' ∧ Inside state := ⟨hstart.1, fun hend => hgoes (hstart.2.trans hend)⟩
  refine .ite (fun _ => ?_) fun _ => ?_
  · exact .bind (advance_accords fun _ _ hstart =>
      (hinside _ _ hstart).imp_left fun hsame => hsame.toSameAhead) fun _ _ _ =>
        .pure (.yield hfound)
  · refine .bind (item_accords.strengthen hinside) ?_
    rintro item _ rfl
    exact .pure (.yield (by simpa using hfound.append [item]))

theorem FunctionHead.decl_accords (head : FunctionHead)
    (hlist : Accords pre list list' (Stmt.LeftOut bad (Stmt.Without bad)) (Ended (· = .rbrace))) :
    AccordsOrFail pre (head.decl list) (head.decl list')
      (fun decl decl' => Decl.Without bad (.func decl) (.func decl')) State.Alongside := by
  refine .run_bind (.run_lift (leaving_accords (restOfBlock_accords head.opening hlist)
    (fun _ _ hstop => ?_) fun _ => rfl)) (fun _ _ hstop => hstop) fun body body' hbody => ?_
  · exact ⟨⟨hstop.begun, hstop.ahead, hstop.eof, hstop.nesting, rfl⟩, hstop.last⟩
  refine .run_bind (.covering head.keyword (settle_accords (.refl head.params)))
    (fun _ _ hstop => hstop) ?_
  rintro params _ rfl
  refine .run_bind (settle_accords (.refl head.results)) (fun _ _ hstop => hstop) ?_
  rintro results _ rfl
  refine .run_bind (settle_accords hbody) (fun _ _ hstop => hstop) ?_
  rintro ⟨_, items, closing⟩ ⟨_, items', _⟩ ⟨hitems, rfl, rfl⟩
  exact .run_pure (.func hitems)

theorem fileOf_without (package : Except BadNode (Token × Token)) {items items' : List Item}
    (hitems : DiffersOnce (Item.Without bad) items items') :
    File.Without bad (fileOf package items) (fileOf package items') := by
  cases package with
  | ok clause => exact File.ofItems_without _ _ hitems
  | error bad => exact File.ofItems_without _ _ (hitems.cons _)

theorem FunctionHead.rest_accords (head : FunctionHead)
    (hlist : Accords pre list list' (Stmt.LeftOut bad (Stmt.Without bad)) (Ended (· = .rbrace))) :
    Accords pre (head.rest list) (head.rest list') (File.Without bad) State.Alongside := by
  have hitem : AccordsOrFail pre (do return .decl (.func (← head.decl list)))
      (do return .decl (.func (← head.decl list'))) (Item.Without bad) State.Alongside :=
    .run_bind (head.decl_accords hlist) (fun _ _ hstop => hstop) fun _ _ hdecl =>
      .run_pure (.decl hdecl)
  refine .bind (.recoverWith _ head.keyword hitem fun _ => .decl (.refl _))
    fun item item' hitem => ?_
  refine .bind (Accords.repeatStep itemPass_gains (fun _ _ hfound => itemPass_accords hfound) ?_)
    fun _ _ hfound => .pure (fileOf_without head.package hfound)
  simpa using DiffersOnce.intro head.found.reverse [] hitem

/-- Around a list from which the statement is left out, the file is read from which the
statement is left out, with the same reports. -/
theorem Enclosing.plug_accords (context : Enclosing)
    (hlist : Accords pre list list' (Stmt.LeftOut bad (Stmt.Without bad))
      (Ended context.stops)) :
    Accords pre (context.plug levels list) (context.plug levels list') (File.Without bad)
      State.Alongside := by
  induction context generalizing levels list list' with
  | function head => exact head.rest_accords hlist
  | stmt outer found first layer ih =>
      refine ih (.bind (.recoverWith _ first (leaving_accords (layer.rest_accords hlist)
        (fun _ _ hstop => ?_) fun _ => rfl) fun _ => .refl _) fun stmt stmt' hstmt => ?_)
      · exact ⟨⟨hstop.begun, hstop.ahead, hstop.eof, congrArg (· - 1) hstop.nesting,
          hstop.loopDepth⟩, hstop.last⟩
      · have hfound : Stmt.FoundWithout bad (stmt :: found) (stmt' :: found) := by
          simpa [Stmt.FoundWithout] using Stmt.LeftOut.inside (.intro found.reverse [] hstmt)
        exact (restOfStmts_accords_alongside (fun stmt _ _ hfound => hfound.cons stmt) hfound).mono
          (fun _ _ hstart => hstart) (fun _ _ hvalue => hvalue.reverse) fun _ _ hstop => .inl hstop

end Grammar

end OriSyntax
