import OriSyntax.Proofs.Agreement
import OriSyntax.Proofs.Lossless

/-!
What every production does with the state, and which states there are.  A production leaves
both counters as they were, moves on among the same tokens and adds to the reports.  In the
states that are reached while a file is read, the loops around a place are never more than
the expressions and statements around it, and these are never more than `maxNesting`.  Where
in a run something is called is told by the run itself: it depends on what is called there.
-/

namespace OriSyntax

/-- The place of a cursor is that of the token to be read next. -/
theorem Cursor.getElem?_tokens (cursor : Cursor) :
    cursor.tokens[cursor.position]? = some cursor.current := by
  rw [Cursor.tokens, cursor.position_eq, List.append_assoc, ← List.length_reverse,
    List.getElem?_append_right (Nat.le_refl _), Nat.sub_self, Cursor.current]
  cases cursor.ahead <;> rfl

namespace Grammar

variable {α : Type} {start here stop : State}

/-- How a production may change the state: its counters are the same again, it has not gone
back, its place is that of a token, and what was reported is still there. -/
structure State.Disciplined (start stop : State) : Prop where
  nesting : stop.nesting = start.nesting
  loopDepth : stop.loopDepth = start.loopDepth
  position_le : start.cursor.position ≤ stop.cursor.position
  tokens : stop.cursor.tokens = start.cursor.tokens
  current : stop.cursor.tokens[stop.cursor.position]? = some stop.cursor.current
  reports : start.diagnostics.toList <+: stop.diagnostics.toList

theorem State.Follows.disciplined (hfollows : start.Follows stop) : start.Disciplined stop := by
  obtain ⟨run, hrun⟩ := hfollows.reads
  have hmoved := hrun.position
  exact {
    nesting := hfollows.nesting
    loopDepth := hfollows.loopDepth
    position_le := by omega
    tokens := hrun.tokens
    current := stop.cursor.getElem?_tokens
    reports := hfollows.reports }

/-- The productions of the grammar, with those of `inside` inside them, and the elementary steps
of which they are made. -/
inductive IsProduction (inside : Nested) : {α : Type} → Step α → Prop
  -- Elementary steps.
  | next : IsProduction inside (moveCursor Cursor.next)
  | skip (rule) : IsProduction inside (Grammar.skip rule)
  | report (diagnostic first last) : IsProduction inside (Grammar.report diagnostic first last)
  -- Types, parameters and names.
  | typeName (accepts what) : IsProduction inside (Grammar.typeName accepts what)
  | param (named) : IsProduction inside (Grammar.param named).run
  | paramList (named) : IsProduction inside (Grammar.paramList named).run
  | results : IsProduction inside Grammar.results.run
  | qualifiedName (what) : IsProduction inside (Grammar.qualifiedName what).run
  -- Expressions.
  | expr (least) : IsProduction inside (inside.expr least)
  | exprInside (least) : IsProduction inside (Grammar.exprInside inside least)
  | operand : IsProduction inside (Grammar.operand inside).run
  | parenthesized : IsProduction inside (Grammar.parenthesized inside).run
  | binary (left level) : IsProduction inside (Grammar.binary inside left level)
  | suffix (base) : IsProduction inside (Grammar.suffix inside base).run
  | arguments (opening) : IsProduction inside
      (restOfList "argument" opening (liftM (inside.expr .lowest))).run
  | exprList : IsProduction inside (Grammar.exprList inside)
  -- Declarations.
  | valueDecl (what) : IsProduction inside (Grammar.valueDecl inside what).run
  | typeDecl : IsProduction inside (Grammar.typeDecl inside).run
  | fields : IsProduction inside (members (Grammar.field inside)).run
  | field : IsProduction inside (Grammar.field inside).run
  | interfaceMembers : IsProduction inside (members Grammar.interfaceMember).run
  | interfaceMember : IsProduction inside Grammar.interfaceMember.run
  | enumVariants : IsProduction inside (members (expectName "enum variant")).run
  | sumVariants : IsProduction inside (members Grammar.sumVariant).run
  | sumVariant : IsProduction inside Grammar.sumVariant.run
  | memberEnd : IsProduction inside Grammar.memberEnd.run
  -- Statements.
  | stmt : IsProduction inside inside.stmt
  | stmtInside : IsProduction inside (Grammar.stmtInside inside).run
  | steppingStmt : IsProduction inside (Grammar.steppingStmt inside)
  | stmtList (stops) : IsProduction inside (Grammar.stmtList inside stops)
  | block : IsProduction inside (Grammar.block inside).run
  | simpleStmt : IsProduction inside (Grammar.simpleStmt inside).run
  | returnStmt : IsProduction inside (Grammar.returnStmt inside)
  | branchStmt : IsProduction inside Grammar.branchStmt.run
  | fallThroughStmt : IsProduction inside Grammar.fallThroughStmt.run
  | ifElse : IsProduction inside inside.ifElse.run
  | ifStmt : IsProduction inside (Grammar.ifStmt inside).run
  | elseBranch : IsProduction inside (Grammar.elseBranch inside).run
  -- Loops and switches.
  | loop : IsProduction inside (Grammar.loop inside).run
  | restOfLoop (keyword) : IsProduction inside (Grammar.restOfLoop inside keyword).run
  | threeClauseLoop (keyword) : IsProduction inside (Grammar.threeClauseLoop inside keyword).run
  | forClause (clause) : IsProduction inside (Grammar.forClause inside clause).run
  | rangeLoop (keyword) : IsProduction inside (Grammar.rangeLoop inside keyword).run
  | rangeTargets (keyword) : IsProduction inside (Grammar.rangeTargets inside keyword).run
  | loopBody : IsProduction inside (Grammar.loopBody inside).run
  | switch : IsProduction inside (Grammar.switch inside).run
  | restOfSwitch (keyword) : IsProduction inside (Grammar.restOfSwitch inside keyword).run
  | switchInit : IsProduction inside (Grammar.switchInit inside).run
  | caseList : IsProduction inside (Grammar.caseList inside)
  | caseStmt (found) : IsProduction inside (Grammar.caseStmt inside found)
  | caseClause : IsProduction inside (Grammar.caseClause inside).run
  | strayCase : IsProduction inside Grammar.strayCase
  -- Files.
  | file : IsProduction inside Grammar.file
  | packageClause : IsProduction inside Grammar.packageClause.run
  | items : IsProduction inside Grammar.items
  | item : IsProduction inside Grammar.item
  | funcDecl : IsProduction inside Grammar.funcDecl.run
  | funcBody : IsProduction inside Grammar.funcBody.run
  | implementsDecl : IsProduction inside Grammar.implementsDecl.run
  | fileVariable : IsProduction inside Grammar.fileVariable.run
  | strayItem : IsProduction inside (Grammar.strayItem : Production Item).run

theorem IsProduction.orderly {inside : Nested} (hinside : inside.Orderly) {step : Step α}
    (hstep : IsProduction inside step) : Orderly step := by
  cases hstep with
  | next => exact moveNext_orderly
  | skip rule => exact skip_orderly rule
  | report diagnostic first last => exact report_orderly diagnostic first last
  | typeName accepts what => exact typeName_orderly accepts what
  | param named => exact param_orderly named
  | paramList named => exact paramList_orderly named
  | results => exact results_orderly
  | qualifiedName what => exact qualifiedName_orderly what
  | expr least => exact hinside.expr least
  | exprInside least => exact exprInside_orderly hinside least
  | operand => exact operand_orderly hinside
  | parenthesized => exact parenthesized_orderly hinside
  | binary left level => exact (binary_consumes hinside left level).orderly
  | suffix base => exact (suffix_consumes hinside base).orderly
  | arguments opening => exact restOfList_orderly _ opening (hinside.expr _)
  | exprList => exact exprList_orderly hinside
  | valueDecl what => exact (valueDecl_consumes hinside what).orderly
  | typeDecl => exact (typeDecl_consumes hinside).orderly
  | fields => exact members_orderly (field_orderly hinside)
  | field => exact field_orderly hinside
  | interfaceMembers => exact members_orderly interfaceMember_orderly
  | interfaceMember => exact interfaceMember_orderly
  | enumVariants => exact members_orderly (expectName_orderly _)
  | sumVariants => exact members_orderly sumVariant_orderly
  | sumVariant => exact sumVariant_orderly
  | memberEnd => exact memberEnd_orderly
  | stmt => exact hinside.stmt
  | stmtInside => exact stmtInside_orderly hinside
  | steppingStmt => exact (steppingStmt_consumes hinside).orderly
  | stmtList stops => exact stmtList_orderly hinside stops
  | block => exact block_orderly hinside
  | simpleStmt => exact simpleStmt_orderly hinside
  | returnStmt => exact returnStmt_orderly hinside
  | branchStmt => exact branchStmt_orderly
  | fallThroughStmt => exact fallThroughStmt_orderly
  | ifElse => exact hinside.ifElse
  | ifStmt => exact ifStmt_orderly hinside
  | elseBranch => exact elseBranch_orderly hinside
  | loop => exact loop_orderly hinside
  | restOfLoop keyword => exact restOfLoop_orderly hinside keyword
  | threeClauseLoop keyword => exact threeClauseLoop_orderly hinside keyword
  | forClause clause => exact forClause_orderly hinside clause
  | rangeLoop keyword => exact rangeLoop_orderly hinside keyword
  | rangeTargets keyword => exact rangeTargets_orderly hinside keyword
  | loopBody => exact loopBody_orderly hinside
  | switch => exact switch_orderly hinside
  | restOfSwitch keyword => exact restOfSwitch_orderly hinside keyword
  | switchInit => exact switchInit_orderly hinside
  | caseList => exact caseList_orderly hinside
  | caseStmt found => exact (caseStmt_consumes hinside found).orderly
  | caseClause => exact (caseClause_consumes hinside).orderly
  | strayCase => exact strayCase_consumes.orderly
  | file => exact file_orderly
  | packageClause => exact packageClause_orderly
  | items => exact items_orderly
  | item => exact item_consumes.orderly
  | funcDecl => exact funcDecl_consumes.orderly
  | funcBody => exact funcBody_orderly
  | implementsDecl => exact implementsDecl_consumes.orderly
  | fileVariable => exact fileVariable_consumes.orderly
  | strayItem => exact strayItem_consumes.orderly

/-- Steps that do the same in every state but one. -/
def SameBut (here : State) (step other : Step α) : Prop :=
  ∀ state, state ≠ here → other.run state = step.run state

/-- Productions that do the same in every state but one. -/
structure Nested.SameBut (here : State) (inside other : Nested) : Prop where
  expr : ∀ least, Grammar.SameBut here (inside.expr least) (other.expr least)
  stmt : Grammar.SameBut here inside.stmt other.stmt
  ifElse : Grammar.SameBut here inside.ifElse.run other.ifElse.run

/-- What is done one level deeper is the same in every state but one. -/
structure Interior.SameBut (here : State) (interior other : Interior) : Prop where
  expr : ∀ least, Grammar.SameBut here (interior.expr least) (other.expr least)
  stmt : Grammar.SameBut here interior.stmt.run other.stmt.run
  ifElse : Grammar.SameBut here interior.ifElse.run other.ifElse.run

theorem SameBut.agrees {context : Context} {step other : Step α} (hsame : SameBut here step other)
    (hstep : Orderly step) (houtside : ¬ context.holds here) : Agrees context step other where
  orderly := hstep
  run_eq state hstate := by
    apply hsame
    rintro rfl
    exact houtside hstate

theorem Nested.SameBut.agrees {context : Context} {inside other : Nested}
    (hsame : inside.SameBut here other) (hinside : inside.Orderly)
    (houtside : ¬ context.holds here) : inside.Agrees context other where
  expr least := (hsame.expr least).agrees (hinside.expr least) houtside
  stmt := hsame.stmt.agrees hinside.stmt houtside
  ifElse := hsame.ifElse.agrees hinside.ifElse houtside

theorem Interior.SameBut.agrees {context : Context} {inside : Nested} {other : Interior}
    (hsame : inside.interior.SameBut here other) (hinside : inside.Orderly)
    (houtside : ¬ context.holds here) : inside.interior.Agrees context other where
  expr least := (hsame.expr least).agrees (exprInside_orderly hinside least) houtside
  stmt := hsame.stmt.agrees (stmtInside_orderly hinside) houtside
  ifElse := hsame.ifElse.agrees (ifStmt_orderly hinside) houtside

/-- On its way from `start`, what is built of `parts` runs one of them in the state `here`: it
matters to the run what the parts do in that state.  Reports are never taken back, so a part
that would report one thing more there always makes a difference. -/
def Uses {κ : Type} (sameBut : State → κ → κ → Prop) (build : κ → Step α) (parts : κ)
    (start here : State) : Prop :=
  ∃ other, sameBut here parts other ∧ (build other).run start ≠ (build parts).run start

/-- How a file is read if `inside` are the productions with `levels` levels inside them. -/
def fileOver (levels : Nat) (inside : Nested) : Step File :=
  file (Nested.around^[maxNesting - levels] inside)

theorem iterate_around_nested {levels : Nat} (hlevels : levels ≤ maxNesting) :
    Nested.around^[maxNesting - levels] (nested levels) = outermost := by
  rw [← nested_add, Nat.add_sub_cancel' hlevels]
  rfl

theorem fileOver_nested {levels : Nat} (hlevels : levels ≤ maxNesting) :
    fileOver levels (nested levels) = file := by
  rw [fileOver, iterate_around_nested hlevels]

/-- A level is called with the levels around it that it does not have inside, and nowhere
else. -/
theorem fileOver_run {levels : Nat} (hlevels : levels ≤ maxNesting) {other : Nested}
    (hother : (nested levels).Agrees (.calling (maxNesting - levels)) other)
    (tokens : List Token) :
    (fileOver levels other).run (initialState tokens) = file.run (initialState tokens) := by
  have houtermost : outermost.Agrees (.calling 0) (Nested.around^[maxNesting - levels] other) := by
    rw [← iterate_around_nested hlevels]
    apply iterate_around_agrees
    rwa [Nat.zero_add]
  exact (file_agrees houtermost).run_eq (initialState tokens) ⟨rfl, rfl⟩

/-- Where the reading of a file stands. -/
inductive Place where
  /-- Outside of all expressions and statements. -/
  | file
  /-- Where an expression or a statement is called that has `levels` levels inside it. -/
  | call (levels : Nat)
  /-- Inside such an expression or statement, one level deeper. -/
  | level (levels : Nat)
  /-- In the body of a loop that is such a statement. -/
  | loopBody (levels : Nat)

/-- The states that are reached while a file is read.  Where a level is called, and where it
goes on one level deeper, the run of the whole file tells; where the body of a function or a
loop is read, the run of the function or the loop.  Each step from such a state on reaches
another one. -/
inductive Reached (tokens : List Token) : Place → State → Prop
  | start : Reached tokens .file (initialState tokens)
  | funcBody {start here : State} (hstart : Reached tokens .file start)
      (hruns : Uses SameBut (fun body => (outsideLoops (.mk body)).run) (block outermost).run
        start here) : Reached tokens .file here
  | call {levels : Nat} {here : State} (hlevels : levels ≤ maxNesting)
      (hcalls : Uses Nested.SameBut (fileOver levels) (nested levels)
        (initialState tokens) here) : Reached tokens (.call levels) here
  | level {levels : Nat} {here : State} (hlevels : levels < maxNesting)
      (hruns : Uses Interior.SameBut (fun interior => fileOver (levels + 1) interior.entered)
        (nested levels).interior (initialState tokens) here) : Reached tokens (.level levels) here
  | loopBody {levels : Nat} {start here : State} (hstart : Reached tokens (.level levels) start)
      (hruns : Uses SameBut (fun body => (insideLoop (.mk body)).run)
        (block (nested levels)).run start here) : Reached tokens (.loopBody levels) here
  | step {place : Place} {start : State} {levels : Nat} {α : Type} {step : Step α}
      (hstart : Reached tokens place start) (hstep : IsProduction (nested levels) step) :
      Reached tokens place (step.run start).2

/-- What the counters are at a place.  Where one of them is counted down it is not zero. -/
def Place.Bounds : Place → State → Prop
  | .file, state => state.nesting = 0 ∧ state.loopDepth = 0
  | .call levels, state =>
      state.nesting + levels = maxNesting ∧ state.loopDepth ≤ state.nesting
  | .level levels, state =>
      state.nesting + levels = maxNesting ∧ state.loopDepth < state.nesting
  | .loopBody levels, state => state.nesting + levels = maxNesting ∧
      0 < state.loopDepth ∧ state.loopDepth ≤ state.nesting

theorem Place.Bounds.follows {place : Place} (hstart : place.Bounds start)
    (hfollows : start.Follows stop) : place.Bounds stop := by
  cases place <;> simpa only [Place.Bounds, hfollows.nesting, hfollows.loopDepth] using hstart

/-- Between two changes of the state a production is run where the first one leads. -/
theorem eq_of_uses_between (enter leave : State → State) {body : Step (Except BadNode α)}
    (hruns : Uses SameBut (fun body => (between enter leave (.mk body)).run) body start here) :
    here = enter start := by
  obtain ⟨other, hsame, hdiffers⟩ := hruns
  by_contra hne
  apply hdiffers
  change ((other.run (enter start)).1, leave (other.run (enter start)).2) =
    ((body.run (enter start)).1, leave (body.run (enter start)).2)
  rw [hsame _ (Ne.symm hne)]

/-- The body of a function is read with the counter of loops at zero. -/
theorem eq_of_uses_outsideLoops {body : Step (Except BadNode α)}
    (hruns : Uses SameBut (fun body => (outsideLoops (.mk body)).run) body start here) :
    here = { start with loopDepth := 0 } :=
  eq_of_uses_between (fun state => { state with loopDepth := 0 })
    (fun state => { state with loopDepth := start.loopDepth }) hruns

/-- The body of a loop is read with one loop more around it. -/
theorem eq_of_uses_insideLoop {body : Step (Except BadNode α)}
    (hruns : Uses SameBut (fun body => (insideLoop (.mk body)).run) body start here) :
    here = { start with loopDepth := start.loopDepth + 1 } :=
  eq_of_uses_between (fun state => { state with loopDepth := state.loopDepth + 1 })
    (fun state => { state with loopDepth := state.loopDepth - 1 }) hruns

theorem calling_of_uses {tokens : List Token} {levels : Nat} (hlevels : levels ≤ maxNesting)
    (hcalls : Uses Nested.SameBut (fileOver levels) (nested levels) (initialState tokens) here) :
    (Context.calling (maxNesting - levels)).holds here := by
  obtain ⟨other, hsame, hdiffers⟩ := hcalls
  by_contra houtside
  apply hdiffers
  rw [fileOver_run hlevels (hsame.agrees (nested_orderly levels) houtside),
    fileOver_nested hlevels]

theorem running_of_uses {tokens : List Token} {levels : Nat} (hlevels : levels < maxNesting)
    (hruns : Uses Interior.SameBut (fun interior => fileOver (levels + 1) interior.entered)
      (nested levels).interior (initialState tokens) here) :
    (Context.running (maxNesting - (levels + 1))).holds here := by
  obtain ⟨other, hsame, hdiffers⟩ := hruns
  by_contra houtside
  apply hdiffers
  have hagrees := entered_agrees (hsame.agrees (nested_orderly levels) houtside)
  rw [Nested.entered_interior] at hagrees
  dsimp only
  rw [fileOver_run hlevels hagrees, Nested.entered_interior]
  exact congrFun (congrArg _ (fileOver_nested hlevels).symm) _

theorem Reached.bounds {tokens : List Token} {place : Place}
    (hreached : Reached tokens place here) : place.Bounds here := by
  induction hreached with
  | start => exact ⟨rfl, rfl⟩
  | funcBody _ hruns hstart =>
      rw [eq_of_uses_outsideLoops hruns]
      exact ⟨hstart.1, rfl⟩
  | call hlevels hcalls =>
      obtain ⟨hnesting, hloops⟩ := calling_of_uses hlevels hcalls
      constructor <;> omega
  | level hlevels hruns =>
      obtain ⟨hnesting, hloops⟩ := running_of_uses hlevels hruns
      constructor <;> omega
  | loopBody _ hruns hstart =>
      obtain ⟨hnesting, hloops⟩ := hstart
      rw [eq_of_uses_insideLoop hruns]
      exact ⟨hnesting, Nat.succ_pos _, hloops⟩
  | step _ hstep hstart => exact hstart.follows (hstep.orderly (nested_orderly _) _)

theorem Place.Bounds.le {place : Place} (hbounds : place.Bounds here) :
    here.loopDepth ≤ here.nesting ∧ here.nesting ≤ maxNesting := by
  cases place with
  | file =>
      rw [hbounds.1, hbounds.2]
      exact ⟨Nat.le_refl _, Nat.zero_le _⟩
  | call levels =>
      obtain ⟨hnesting, hloops⟩ := hbounds
      omega
  | level levels =>
      obtain ⟨hnesting, hloops⟩ := hbounds
      omega
  | loopBody levels =>
      obtain ⟨hnesting, -, hloops⟩ := hbounds
      omega

/-- What a production does above the limit never matters one level above it. -/
theorem descend_within_limit {first second : Production α}
    (hsame : ∀ state, state.nesting ≤ maxNesting → second.run.run state = first.run.run state)
    (state : State) : (descend second).run.run state = (descend first).run.run state := by
  by_cases hroom : state.nesting < maxNesting
  · rw [descend_of_room hroom, descend_of_room hroom, hsame state.deeper hroom]
  · rw [descend_of_limit (Nat.not_lt.1 hroom), descend_of_limit (Nat.not_lt.1 hroom)]

/-- Every production restores the counters, never goes back and takes back no report.  In
each state that is reached the loops are no more than the levels and the levels no more than
`maxNesting`, above which nothing is run. -/
theorem productions_disciplined (tokens : List Token) :
    (∀ {levels : Nat} {α : Type} {step : Step α}, IsProduction (nested levels) step →
      ∀ start : State, start.Disciplined (step.run start).2) ∧
    (∀ {place : Place} {state : State}, Reached tokens place state →
      state.loopDepth ≤ state.nesting ∧ state.nesting ≤ maxNesting ∧ place.Bounds state) ∧
    ∀ {α : Type} {first second : Production α},
      (∀ state, state.nesting ≤ maxNesting → second.run.run state = first.run.run state) →
        ∀ state, (descend second).run.run state = (descend first).run.run state := by
  refine ⟨fun hstep start => ?_, fun hreached => ?_, descend_within_limit⟩
  · exact (hstep.orderly (nested_orderly _) start).disciplined
  · have hbounds := hreached.bounds
    exact ⟨hbounds.le.1, hbounds.le.2, hbounds⟩

/-- A step that reports one thing more if it begins in the state `here`. -/
def reportingAt (here : State) (step : Step α) : Step α := do
  let start ← get
  let value ← step
  if start = here then
    let _ ← report (.unexpectedAtFileScope here.cursor.current) .absent .absent
    return value
  else return value

theorem sameBut_reportingAt (here : State) (step : Step α) :
    SameBut here step (reportingAt here step) := by
  intro state hstate
  change (if state = here then _ else pure (step.run state).1 : Step α).run (step.run state).2 = _
  rw [if_neg hstate]
  rfl

/-- Productions that report one thing more if they are called in the state `here`. -/
def Nested.reportingAt (inside : Nested) (here : State) : Nested where
  expr least := Grammar.reportingAt here (inside.expr least)
  stmt := Grammar.reportingAt here inside.stmt
  ifElse := .mk (Grammar.reportingAt here inside.ifElse.run)

/-- What is done one level deeper, with one report more in the state `here`. -/
def Interior.reportingAt (interior : Interior) (here : State) : Interior where
  expr least := Grammar.reportingAt here (interior.expr least)
  stmt := .mk (Grammar.reportingAt here interior.stmt.run)
  ifElse := .mk (Grammar.reportingAt here interior.ifElse.run)

/-- A run uses its parts where one report more of theirs is one more of the run. -/
theorem Uses.of_reports {κ : Type} {sameBut : State → κ → κ → Prop} {build : κ → Step α}
    {parts other : κ} (hother : sameBut here parts other)
    (hreports : ((build other).run start).2.diagnostics.size ≠
      ((build parts).run start).2.diagnostics.size) : Uses sameBut build parts start here :=
  ⟨other, hother, fun hsame => hreports (congrArg (fun result => result.2.diagnostics.size) hsame)⟩

/-- A function with a loop around a call. -/
def loopTokens : List Token :=
  [⟨.packageKw, "package", 1, 1⟩, ⟨.ident, "p", 1, 9⟩, ⟨.funcKw, "func", 2, 1⟩,
    ⟨.ident, "f", 2, 6⟩, ⟨.lparen, "(", 2, 7⟩, ⟨.rparen, ")", 2, 8⟩, ⟨.lbrace, "\x7b", 2, 10⟩,
    ⟨.forKw, "for", 3, 2⟩, ⟨.lbrace, "\x7b", 3, 6⟩, ⟨.ident, "g", 4, 3⟩, ⟨.lparen, "(", 4, 4⟩,
    ⟨.rparen, ")", 4, 5⟩, ⟨.rbrace, "\x7d", 5, 2⟩, ⟨.rbrace, "\x7d", 6, 1⟩]

/-- The state inside the loop where `count` tokens have been read. -/
def loopState (count loops : Nat) : State where
  cursor := Cursor.next^[count] (.ofTokens loopTokens)
  nesting := 1
  loopDepth := loops

/-- The loop is read one level deeper, with 999 levels left. -/
theorem reached_loop : Reached loopTokens (.level 999) (loopState 7 0) := by
  have hsame : (nested 999).interior.SameBut (loopState 7 0)
      ((nested 999).interior.reportingAt (loopState 7 0)) :=
    ⟨fun _ => sameBut_reportingAt _ _, sameBut_reportingAt _ _, sameBut_reportingAt _ _⟩
  exact .level (by decide) (.of_reports hsame (by decide +kernel))

/-- Its body is read with one loop around. -/
theorem reached_loopBody : Reached loopTokens (.loopBody 999) (loopState 8 1) := by
  have hnext : IsProduction (nested 0) (moveCursor Cursor.next) := .next
  have hkeyword : Reached loopTokens (.level 999) (loopState 8 0) := .step reached_loop hnext
  exact .loopBody hkeyword (.of_reports (sameBut_reportingAt _ _) (by decide +kernel))

/-- The call is called there. -/
theorem reached_call : Reached loopTokens (.call 999) (loopState 9 1) := by
  have hsame : (nested 999).SameBut (loopState 9 1) ((nested 999).reportingAt (loopState 9 1)) :=
    ⟨fun _ => sameBut_reportingAt _ _, sameBut_reportingAt _ _, sameBut_reportingAt _ _⟩
  exact .call (by decide) (.of_reports hsame (by decide +kernel))

theorem productions_disciplined_loopTokens :
    (initialState loopTokens).Disciplined (file.run (initialState loopTokens)).2 ∧
    (Reached loopTokens (.level 999) (loopState 7 0) ∧
      (loopState 7 0).loopDepth < (loopState 7 0).nesting) ∧
    (Reached loopTokens (.loopBody 999) (loopState 8 1) ∧ 0 < (loopState 8 1).loopDepth) ∧
    (Reached loopTokens (.call 999) (loopState 9 1) ∧
      (loopState 9 1).loopDepth ≤ (loopState 9 1).nesting ∧
      (loopState 9 1).nesting ≤ maxNesting) ∧
    ∀ state, (descend (do return (← get).nesting ≤ maxNesting : Production Bool)).run.run state =
      (descend (pure true : Production Bool)).run.run state := by
  obtain ⟨hstops, hbounds, hlimit⟩ := productions_disciplined loopTokens
  have hfile : IsProduction (nested 0) file := .file
  refine ⟨hstops hfile _, ⟨reached_loop, (hbounds reached_loop).2.2.2⟩,
    ⟨reached_loopBody, (hbounds reached_loopBody).2.2.2.1⟩,
    ⟨reached_call, (hbounds reached_call).1, (hbounds reached_call).2.1⟩, ?_⟩
  apply hlimit
  intro state hstate
  change ((.ok (decide (state.nesting ≤ maxNesting)) : Except BadNode Bool), state) = _
  rw [decide_eq_true hstate]
  rfl

end Grammar

end OriSyntax
