import OriSyntax.Proofs.Enclosing
import OriSyntax.Proofs.ExprComplete

/-!
Ways into lists of statements.  Each statement that holds a list goes on, once its header was
read, as the layer says that stands for it; from the body of a function on, the list in a
statement that comes next is reached in this way.
-/

namespace OriSyntax.Grammar

variable {α β : Type} {nested : Nested} {start here before closed inner : State}

theorem currentKind_succeeds {kind : Kind} (hkind : start.cursor.kind = kind) :
    Succeeds (liftM currentKind) start kind start :=
  .lift (Prod.ext hkind rfl)

theorem headerContains_succeeds {kind : Kind} {found : Bool}
    (hfound : start.cursor.headerContains kind = found) :
    Succeeds (liftM (headerContains kind)) start found start :=
  .lift (Prod.ext hfound rfl)

/-- Once the production began at `start`, what is left of it is what is left of the layer from
`inner` on, where the list in it begins. -/
def Layer.Enters (layer : Layer) (levels : Nat) (production : Production Stmt)
    (start inner : State) : Prop :=
  production.run.run start = (layer.rest (Grammar.nested levels)
    (restOfStmts (Grammar.nested levels) layer.stops [])).run.run inner

section Ways

variable {levels : Nat}

theorem enters_block (levels : Nat) (hkind : start.cursor.kind = .lbrace) :
    (Layer.block start.cursor.current).Enters levels (stmtInside (Grammar.nested levels)) start
      (start.moveTo start.cursor.next) := by
  rw [Layer.Enters, stmtInside, (currentKind_succeeds hkind).run_bind]
  exact run_bind_congr (block_run hkind) _

section Branches

variable {condition : Expr} {body : Block}

/-- From the keyword of an `if` at `start` its condition is read up to the body at `before`. -/
structure ReadsCondition (nested : Nested) (start : State) (condition : Expr) (before : State) :
    Prop where
  written : start.cursor.next.kind ≠ .lbrace
  gives : Gives (nested.expr .lowest) (start.moveTo start.cursor.next) condition before
  opening : before.cursor.kind = .lbrace

/-- From the keyword of an `if` at `start` its body is read up to the `else` at `closed`. -/
structure ReadsBody (nested : Nested) (start : State) (condition : Expr) (before : State)
    (body : Block) (closed : State) : Prop where
  condition : ReadsCondition nested start condition before
  body : Succeeds (block nested) before body closed
  keyword : closed.cursor.kind = .elseKw

theorem ReadsCondition.run (hcondition : ReadsCondition nested start condition before) :
    (ifStmt nested).run.run start = (do
      let body ← block nested
      return .ifElse start.cursor.current condition body (← elseBranch nested)
        : Production Stmt).run.run before := by
  have hnext : (start.moveTo start.cursor.next).cursor.kind = start.cursor.next.kind := rfl
  rw [ifStmt, Succeeds.run_bind readsNext_advance, (currentKind_succeeds hnext).run_bind,
    if_neg hcondition.written, (Succeeds.lift hcondition.gives).run_bind,
    (currentKind_succeeds hcondition.opening).run_bind]
  rfl

theorem ReadsBody.run (hbody : ReadsBody nested start condition before body closed) :
    (ifStmt nested).run.run start = (do
      return .ifElse start.cursor.current condition body (← elseBranch nested)
        : Production Stmt).run.run closed := by
  rw [hbody.condition.run, hbody.body.run_bind]

theorem elseBranch_run_block (helse : start.cursor.kind = .elseKw)
    (hopening : start.cursor.next.kind = .lbrace) :
    (elseBranch nested).run.run start = (do
      let list := restOfStmts nested (· = .rbrace) []
      return some (.block (← restOfBlock start.cursor.next.current list))
        : Production (Option Stmt)).run.run (start.moveTo start.cursor.next.next) := by
  have haccept : Succeeds (liftM (accept? .elseKw)) start (some start.cursor.current)
      (start.moveTo start.cursor.next) := .lift (accept?_gives_some helse)
  have hnext : (start.moveTo start.cursor.next).cursor.kind = .lbrace := hopening
  rw [elseBranch, haccept.run_bind]
  dsimp only
  rw [(currentKind_succeeds hnext).run_bind, if_neg (by decide), if_pos rfl]
  exact run_bind_congr (block_run hnext) _

theorem elseBranch_run_ifElse (helse : start.cursor.kind = .elseKw)
    (hif : start.cursor.next.kind = .ifKw) :
    (elseBranch nested).run.run start = (do
      return some (← nested.ifElse) : Production (Option Stmt)).run.run
        (start.moveTo start.cursor.next) := by
  have haccept : Succeeds (liftM (accept? .elseKw)) start (some start.cursor.current)
      (start.moveTo start.cursor.next) := .lift (accept?_gives_some helse)
  have hnext : (start.moveTo start.cursor.next).cursor.kind = .ifKw := hif
  rw [elseBranch, haccept.run_bind]
  dsimp only
  rw [(currentKind_succeeds hnext).run_bind, if_pos rfl]

theorem enters_ifBody (hcondition : ReadsCondition (Grammar.nested levels) start condition before) :
    (Layer.ifBody start.cursor.current condition before.cursor.current).Enters levels
      (ifStmt (Grammar.nested levels)) start (before.moveTo before.cursor.next) := by
  rw [Layer.Enters, hcondition.run]
  exact run_bind_congr (block_run hcondition.opening) _

theorem enters_elseBody
    (hbody : ReadsBody (Grammar.nested levels) start condition before body closed)
    (hopening : closed.cursor.next.kind = .lbrace) :
    (Layer.elseBody start.cursor.current condition body closed.cursor.next.current).Enters levels
      (ifStmt (Grammar.nested levels)) start (closed.moveTo closed.cursor.next.next) := by
  rw [Layer.Enters, hbody.run, run_bind_congr (elseBranch_run_block hbody.keyword hopening),
    bind_assoc]
  rfl

theorem enters_elseIf {layer : Layer}
    (hbody : ReadsBody (Grammar.nested (levels + layer.depth + 1)) start condition before body
      closed)
    (hif : closed.cursor.next.kind = .ifKw) (hroom : closed.nesting < maxNesting)
    (hinner : layer.Enters levels (ifStmt (Grammar.nested (levels + layer.depth)))
      (closed.moveTo closed.cursor.next).deeper inner) :
    (Layer.elseIf start.cursor.current condition body layer).Enters levels
      (ifStmt (Grammar.nested (levels + layer.depth + 1))) start inner := by
  have hdeeper : (Grammar.nested (levels + layer.depth + 1)).ifElse.run.run
      (closed.moveTo closed.cursor.next) = (leaving State.shallower (layer.rest
        (Grammar.nested levels) (restOfStmts (Grammar.nested levels) layer.stops []))).run.run
          inner := by
    have hnext : (closed.moveTo closed.cursor.next).nesting < maxNesting := hroom
    change (descend (ifStmt (Grammar.nested (levels + layer.depth)))).run.run _ = _
    rw [descend_of_room hnext, hinner]
    rfl
  rw [Layer.Enters, hbody.run, run_bind_congr (elseBranch_run_ifElse hbody.keyword hif),
    bind_assoc]
  exact run_bind_congr hdeeper _

end Branches

/-- The state in the body of a loop. -/
def State.inLoop (state : State) : State := { state with loopDepth := state.loopDepth + 1 }

theorem loopBody_run (hopening : start.cursor.kind = .lbrace) :
    (loopBody nested).run.run start = (leaving State.outOfLoop (restOfBlock start.cursor.current
      (restOfStmts nested (· = .rbrace) []))).run.run
        (start.inLoop.moveTo start.cursor.next) := by
  have hblock : (block nested).run.run start.inLoop = _ := block_run hopening
  change (leaving State.outOfLoop (block nested)).run.run start.inLoop = _
  rw [leaving_run, hblock]
  rfl

/-- Behind the keyword of a loop its header is read from `start` to the body at `before`. -/
inductive LoopHead.Read (nested : Nested) (keyword : Token) (start before : State) :
    LoopHead → Prop where
  | endless (hopening : start.cursor.kind = .lbrace) (hbefore : before = start) :
      Read nested keyword start before (.clauses none none none)
  | condition {condition : Expr} (hwritten : start.cursor.kind ≠ .lbrace)
      (hrange : start.cursor.headerContains .rangeKw = false)
      (hsemicolon : start.cursor.headerContains .semicolon = false)
      (hcondition : Gives (nested.expr .lowest) start condition before) :
      Read nested keyword start before (.clauses none (some condition) none)
  | clauses {first after : Option Stmt} {condition : Option Expr} {separator separator' : Token}
      {behindFirst atCondition behindCondition atAfter : State}
      (hwritten : start.cursor.kind ≠ .lbrace)
      (hrange : start.cursor.headerContains .rangeKw = false)
      (hsemicolon : start.cursor.headerContains .semicolon = true)
      (hfirst : Succeeds (unlessAt .semicolon (forClause nested .init)) start first behindFirst)
      (hseparator : Succeeds (expect .semicolon "';' after for init") behindFirst separator
        atCondition)
      (hcondition : Succeeds (unlessAt .semicolon (nested.expr .lowest)) atCondition condition
        behindCondition)
      (hseparator' : Succeeds (expect .semicolon "';' after for condition") behindCondition
        separator' atAfter)
      (hafter : Succeeds (unlessAt .lbrace (forClause nested .post)) atAfter after before) :
      Read nested keyword start before (.clauses first condition after)
  | range {key value : Option Expr} {op : Option Token} {rangeKeyword : Token} {subject : Expr}
      {behindTargets atSubject : State} (hwritten : start.cursor.kind ≠ .lbrace)
      (hrange : start.cursor.headerContains .rangeKw = true)
      (htargets : Succeeds (rangeTargets nested keyword) start (key, value, op) behindTargets)
      (hkeyword : Succeeds (expect .rangeKw "'range'") behindTargets rangeKeyword atSubject)
      (hsubject : Gives (nested.expr .lowest) atSubject subject before) :
      Read nested keyword start before (.range key value op rangeKeyword subject)

theorem LoopHead.Read.run {keyword : Token} {head : LoopHead}
    (hhead : head.Read nested keyword start before) :
    (restOfLoop nested keyword).run.run start = (do
      return head.loop keyword (← loopBody nested) : Production Stmt).run.run before := by
  rw [restOfLoop, (currentKind_succeeds rfl).run_bind]
  cases hhead with
  | endless hopening hbefore =>
      rw [if_pos hopening, hbefore]
      rfl
  | condition hwritten hrange hsemicolon hcondition =>
      rw [if_neg hwritten, (headerContains_succeeds hrange).run_bind, if_neg (by decide),
        (headerContains_succeeds hsemicolon).run_bind, if_neg (by decide),
        (Succeeds.lift hcondition).run_bind]
      rfl
  | clauses hwritten hrange hsemicolon hfirst hseparator hcondition hseparator' hafter =>
      rw [if_neg hwritten, (headerContains_succeeds hrange).run_bind, if_neg (by decide),
        (headerContains_succeeds hsemicolon).run_bind, if_pos rfl, threeClauseLoop,
        hfirst.run_bind, hseparator.run_bind, hcondition.run_bind, hseparator'.run_bind,
        hafter.run_bind]
      rfl
  | range hwritten hrange htargets hkeyword hsubject =>
      rw [if_neg hwritten, (headerContains_succeeds hrange).run_bind, if_pos rfl, rangeLoop,
        htargets.run_bind, hkeyword.run_bind, (Succeeds.lift hsubject).run_bind]
      rfl

theorem enters_loop {head : LoopHead}
    (hhead : head.Read (Grammar.nested levels) start.cursor.current
      (start.moveTo start.cursor.next) before) (hopening : before.cursor.kind = .lbrace) :
    (Layer.loop start.cursor.current head before.cursor.current).Enters levels
      (loop (Grammar.nested levels)) start (before.inLoop.moveTo before.cursor.next) := by
  rw [Layer.Enters, loop, Succeeds.run_bind readsNext_advance]
  refine onFailure_run_congr _ (onFailure_run_congr _ ?_)
  rw [hhead.run]
  exact run_bind_congr (loopBody_run hopening) _

/-- From the keyword of a switch at `start` all is read up to the colon of a clause at
`before`. -/
inductive ClauseHead.Read (nested : Nested) (start before : State) : ClauseHead → Prop where
  | intro {first : Option Stmt} {tag : Option Expr} {behindFirst atOpening atClause : State}
      {earlier : List Stmt} {values : List Expr}
      (hfirst : Succeeds (switchInit nested) (start.moveTo start.cursor.next) first behindFirst)
      (htag : Succeeds (unlessAt .lbrace (nested.expr .lowest)) behindFirst tag atOpening)
      (hopening : atOpening.cursor.kind = .lbrace)
      (hearlier : Relation.ReflTransGen (Round (casePass nested))
        ([], atOpening.moveTo atOpening.cursor.next) (earlier, atClause))
      (hlabel : atClause.cursor.kind ∈ [.caseKw, .defaultKw])
      (hvalues : Gives (caseValues nested atClause.cursor.current)
        (atClause.moveTo atClause.cursor.next) values before)
      (hcolon : before.cursor.kind = .colon) :
      Read nested start before ⟨start.cursor.current, first, tag, atOpening.cursor.current,
        earlier, atClause.cursor.current, values, before.cursor.current⟩

section Clauses

variable {values : List Expr}

/-- A clause whose values were read, up to what is made of it. -/
theorem caseStmt_run (earlier : List Stmt)
    (hvalues : Gives (caseValues nested start.cursor.current) (start.moveTo start.cursor.next)
      values before) (hcolon : before.cursor.kind = .colon) :
    (caseStmt nested earlier).run start = (do
      let stmts ← restOfStmts nested (· ∈ [.caseKw, .defaultKw, .rbrace]) []
      checkClause earlier start.cursor.current
        (.clause start.cursor.current values before.cursor.current stmts) : Step Stmt).run
          (before.moveTo before.cursor.next) := by
  have hclause : (caseClause nested).run.run start = (do
      return .clause start.cursor.current values before.cursor.current
        (← restOfStmts nested (· ∈ [.caseKw, .defaultKw, .rbrace]) []) : Production Stmt).run.run
          (before.moveTo before.cursor.next) := by
    have hexpect : ReadsNext (expect .colon "':'") before := readsNext_expectAs _ _ hcolon
    rw [caseClause, Succeeds.run_bind readsNext_advance, (Succeeds.lift hvalues).run_bind,
      Succeeds.run_bind hexpect]
    rfl
  have hcurrent : Gives current start start.cursor.current start := rfl
  rw [caseStmt, hcurrent.run_bind, StateT.run_bind, hclause]
  rfl

/-- The clauses of a switch, up to the statements of one of them. -/
theorem caseList_run {earlier : List Stmt} {atClause : State} (keyword opening : Token)
    (first : Option Stmt) (tag : Option Expr)
    (hearlier : Relation.ReflTransGen (Round (casePass (Grammar.nested levels))) ([], start)
      (earlier, atClause))
    (hlabel : atClause.cursor.kind ∈ [.caseKw, .defaultKw])
    (hvalues : Gives (caseValues (Grammar.nested levels) atClause.cursor.current)
      (atClause.moveTo atClause.cursor.next) values before)
    (hcolon : before.cursor.kind = .colon) :
    (caseList (Grammar.nested levels)).run start = (ClauseHead.rest (Grammar.nested levels)
      (restOfStmts (Grammar.nested levels) (· ∈ [.caseKw, .defaultKw, .rbrace]) [])
      ⟨keyword, first, tag, opening, earlier, atClause.cursor.current, values,
        before.cursor.current⟩).run (before.moveTo before.cursor.next) := by
  let rest : Step Stmt := do
    let stmts ← restOfStmts (Grammar.nested levels) (· ∈ [.caseKw, .defaultKw, .rbrace]) []
    checkClause earlier atClause.cursor.current
      (.clause atClause.cursor.current values before.cursor.current stmts)
  let stop := rest.run (before.moveTo before.cursor.next)
  have hgains := casePass_gains (nested_orderly levels)
  have hround : Round (casePass (Grammar.nested levels)) (earlier, atClause)
      (stop.1 :: earlier, stop.2) := by
    have hother {kind : Kind} (hkind : kind ∉ [.caseKw, .defaultKw]) :
        atClause.cursor.kind ≠ kind := ne_of_mem_of_not_mem hlabel hkind
    have hstmt : Gives (caseStmt (Grammar.nested levels) earlier) atClause stop.1 stop.2 :=
      caseStmt_run earlier hvalues hcolon
    apply Gives.look rfl
    apply Gives.of_neg (by simp [hother])
    apply Gives.of_neg (hother (by decide))
    apply Gives.of_pos hlabel
    exact .bind hstmt (.pure _ _)
  rw [caseList, StateT.run_bind, repeatStep_run_of_rounds hgains hearlier,
    repeatStep_run_of_round hgains hround]
  rfl

theorem enters_clause {head : ClauseHead}
    (hhead : head.Read (Grammar.nested levels) start before) :
    (Layer.clause head).Enters levels (switch (Grammar.nested levels)) start
      (before.moveTo before.cursor.next) := by
  obtain @⟨_, _, _, atOpening, _, _, _, hfirst, htag, hopening, hearlier, hlabel, hvalues,
    hcolon⟩ := hhead
  have hexpect : ReadsNext (expect .lbrace "'\x7b'") atOpening := readsNext_expectAs _ _ hopening
  rw [Layer.Enters, switch, Succeeds.run_bind readsNext_advance]
  refine onFailure_run_congr _ (onFailure_run_congr _ ?_)
  rw [restOfSwitch, hfirst.run_bind, htag.run_bind, Succeeds.run_bind hexpect]
  exact run_bind_congr (lift_run_congr (caseList_run _ _ _ _ hearlier hlabel hvalues hcolon)) _

end Clauses

end Ways

theorem Consumes.position_lt {step : Step α} (hstep : Consumes step)
    (hinside : start.cursor.kind ≠ .eof) :
    start.cursor.position < (step.run start).2.cursor.position := by
  obtain ⟨run, hrun⟩ := (hstep.orderly start).reads
  have hless : (step.run start).2.cursor.remaining < start.cursor.remaining :=
    hstep.reads start.cursor.remaining start ⟨Nat.le_refl _, hinside⟩
  have hposition := hrun.position
  refine Nat.lt_of_le_of_ne (by omega) fun hidle => ?_
  rw [hrun.eq_of_position hidle.symm] at hless
  exact absurd hless (Nat.lt_irrefl _)

theorem stmtInside_run_of_if (hkind : start.cursor.kind = .ifKw) :
    (stmtInside nested).run.run start = (ifStmt nested).run.run start := by
  rw [stmtInside, (currentKind_succeeds hkind).run_bind]

theorem stmtInside_run_of_for (hkind : start.cursor.kind = .forKw) :
    (stmtInside nested).run.run start = (loop nested).run.run start := by
  rw [stmtInside, (currentKind_succeeds hkind).run_bind]

theorem stmtInside_run_of_switch (hkind : start.cursor.kind = .switchKw) :
    (stmtInside nested).run.run start = (switch nested).run.run start := by
  rw [stmtInside, (currentKind_succeeds hkind).run_bind]

theorem stmtInside_position_lt (levels : Nat)
    (hkind : start.cursor.kind ∈ [.lbrace, .ifKw, .forKw, .switchKw]) :
    start.cursor.position <
      ((stmtInside (Grammar.nested levels)).run.run start).2.cursor.position := by
  have hnested := nested_orderly levels
  have hinside : start.cursor.kind ≠ .eof := ne_of_mem_of_not_mem hkind (by decide)
  simp only [List.mem_cons, List.not_mem_nil, or_false] at hkind
  rcases hkind with hkind | hkind | hkind | hkind
  · have hblock := (enters_block levels hkind)
    rw [Layer.Enters] at hblock
    have hrest : Orderly ((Layer.block start.cursor.current).rest (Grammar.nested levels)
        (restOfStmts (Grammar.nested levels) (· = .rbrace) [])).run :=
      .run_bind (restOfBlock_orderly _ (stmtList_orderly hnested _)) fun _ => .run_pure _
    rw [hblock]
    obtain ⟨run, hrun⟩ := (hrest (start.moveTo start.cursor.next)).reads
    refine Nat.lt_of_lt_of_eq ?_ ((Cursor.reads_next hinside).trans hrun).position.symm
    rw [List.length_append, List.length_singleton]
    omega
  · rw [stmtInside_run_of_if hkind]
    exact (ifStmt_consumes hnested).position_lt hinside
  · rw [stmtInside_run_of_for hkind]
    exact (loop_consumes hnested).position_lt hinside
  · rw [stmtInside_run_of_switch hkind]
    exact (switch_consumes hnested).position_lt hinside

theorem recoverWith_position_le (rule : Skip.Rule) (first : Token) (ofBad : BadNode → α)
    (production : Production α) (start : State) :
    (production.run.run start).2.cursor.position ≤
      ((recoverWith rule first ofBad production).run start).2.cursor.position := by
  rw [recoverWith, StateT.run_bind]
  rcases production.run.run start with ⟨bad | value, stop⟩
  · obtain ⟨run, hrun⟩ := Cursor.exists_reads_skip rule stop.cursor
    have hposition := hrun.position
    change stop.cursor.position ≤ (stop.cursor.skip rule).position
    omega
  · exact Nat.le_refl _

theorem nested_stmt_position_lt (levels : Nat) (hroom : here.nesting < maxNesting)
    (hkind : here.cursor.kind ∈ [.lbrace, .ifKw, .forKw, .switchKw]) :
    here.cursor.position <
      ((Grammar.nested (levels + 1)).stmt.run here).2.cursor.position := by
  have hdeeper : here.deeper.cursor.kind ∈ [.lbrace, .ifKw, .forKw, .switchKw] := hkind
  calc here.cursor.position
    _ < ((descend (stmtInside (Grammar.nested levels))).run.run here).2.cursor.position := by
        rw [descend_of_room hroom]
        exact stmtInside_position_lt levels hdeeper
    _ ≤ _ := recoverWith_position_le .statement here.cursor.current Stmt.bad _ here

/-- From the first token of a file on all is read up to the body of a function at `before`. -/
inductive FunctionHead.Read (tokens : List Token) (before : State) : FunctionHead → Prop where
  | intro {package : Except BadNode (Token × Token)} {found : List Item}
      {start here named typed : State} {name : Token} {params : Except BadNode ParamList}
      {results : Except BadNode (Option Results)}
      (hpackage : Gives packageClause.run (initialState tokens) package start)
      (hfound : Relation.ReflTransGen (Round itemPass) ([], start) (found, here))
      (hkind : here.cursor.kind = .funcKw)
      (hname : Succeeds (expectName "function name") (here.moveTo here.cursor.next) name named)
      (hparams : Gives (paramList true).run named params typed)
      (hresults : Gives Grammar.results.run typed results before)
      (hopening : before.cursor.kind = .lbrace) :
      Read tokens before ⟨package, found, here.cursor.current, name, params, results,
        before.cursor.current, before.loopDepth⟩

section Functions

variable {named typed : State} {name : Token} {params : Except BadNode ParamList}
  {results : Except BadNode (Option Results)} (package : Except BadNode (Token × Token))
  (found : List Item)

theorem funcDecl_run
    (hname : Succeeds (expectName "function name") (here.moveTo here.cursor.next) name named)
    (hparams : Gives (paramList true).run named params typed)
    (hresults : Gives Grammar.results.run typed results before)
    (hopening : before.cursor.kind = .lbrace) :
    funcDecl.run.run here = (FunctionHead.decl (restOfStmts outermost (· = .rbrace) [])
      ⟨package, found, here.cursor.current, name, params, results, before.cursor.current,
        before.loopDepth⟩).run.run before.inBody := by
  have hbody : Succeeds (attempt funcBody) before (funcBody.run.run before).1
    (funcBody.run.run before).2 := succeeds_attempt rfl
  rw [funcDecl, Succeeds.run_bind readsNext_advance, hname.run_bind,
    (succeeds_attempt hparams).run_bind, (succeeds_attempt hresults).run_bind, hbody.run_bind,
    funcBody_run hopening]
  rfl

theorem item_run_function (hkind : here.cursor.kind = .funcKw)
    (hname : Succeeds (expectName "function name") (here.moveTo here.cursor.next) name named)
    (hparams : Gives (paramList true).run named params typed)
    (hresults : Gives Grammar.results.run typed results before)
    (hopening : before.cursor.kind = .lbrace) :
    item.run here = (recoverWith (.toSet .declStart) here.cursor.current
      (fun bad => Item.decl (.bad bad)) (do
        return .decl (.func (← FunctionHead.decl (restOfStmts outermost (· = .rbrace) [])
          ⟨package, found, here.cursor.current, name, params, results, before.cursor.current,
            before.loopDepth⟩)) : Production Item)).run before.inBody := by
  have hcurrent : Gives current here here.cursor.current here := rfl
  have hcurrentKind : here.cursor.current.kind = .funcKw := hkind
  rw [item, hcurrent.run_bind]
  simp only [hcurrentKind]
  exact recoverWith_run_congr _ _ _
    (run_bind_congr (funcDecl_run package found hname hparams hresults hopening) _)

end Functions

/-- Nothing but the start of another clause and a closing brace ends a list. -/
theorem Layer.stops_eq_false (layer : Layer) {kind : Kind}
    (hkind : kind ∉ [.caseKw, .defaultKw, .rbrace]) : layer.stops kind = false := by
  induction layer with
  | elseIf keyword condition body inner ih => exact ih
  | clause head => exact decide_eq_false hkind
  | _ => exact decide_eq_false fun hrbrace => hkind (by simp [hrbrace])

namespace Enclosing

variable {context : Enclosing} {levels : Nat} {tokens : List Token} {found : List Stmt}
  {layer : Layer}

theorem stops_eq_false (context : Enclosing) {kind : Kind}
    (hkind : kind ∉ [.caseKw, .defaultKw, .rbrace]) : context.stops kind = false := by
  cases context with
  | function head => exact (Layer.block head.opening).stops_eq_false hkind
  | stmt outer found first layer => exact layer.stops_eq_false hkind

namespace Reaches

/-- The list in a statement that comes next is reached. -/
theorem enter (hreaches : context.Reaches (levels + layer.depth + 1) tokens found here)
    (hroom : here.nesting < maxNesting)
    (hkind : here.cursor.kind ∈ [.lbrace, .ifKw, .forKw, .switchKw])
    (henters : layer.Enters levels (stmtInside (Grammar.nested (levels + layer.depth)))
      here.deeper inner) :
    (stmt context found here.cursor.current layer).Reaches levels tokens [] inner := by
  let rest : Step Stmt := recoverWith .statement here.cursor.current Stmt.bad
    (leaving State.shallower (layer.rest (Grammar.nested levels)
      (restOfStmts (Grammar.nested levels) layer.stops [])))
  have hstmt : Gives (Grammar.nested (levels + layer.depth + 1)).stmt here (rest.run inner).1
      (rest.run inner).2 := by
    change (recoverWith .statement here.cursor.current Stmt.bad
      (descend (stmtInside (Grammar.nested (levels + layer.depth))))).run here = rest.run inner
    refine recoverWith_run_congr _ _ _ ?_
    rw [descend_of_room hroom, henters]
    rfl
  -- The statement reads its first token at least, so none is stepped over behind it.
  obtain ⟨run, hreads⟩ := ((nested_orderly (levels + layer.depth + 1)).stmt here).reads
  have hrun : run ≠ [] := by
    rintro rfl
    exact Nat.lt_irrefl _ (Nat.lt_of_lt_of_eq (nested_stmt_position_lt _ hroom hkind)
      (hreads.position.trans (Nat.zero_add _)))
  rw [hstmt] at hreads
  have hother {kind : Kind} (hnot : kind ∉ [.lbrace, .ifKw, .forKw, .switchKw]) :
      here.cursor.kind ≠ kind := ne_of_mem_of_not_mem hkind hnot
  have hlist : here.cursor.kind ∉ [.caseKw, .defaultKw, .rbrace] := by
    simp [hother (show Kind.caseKw ∉ _ by decide), hother (show Kind.defaultKw ∉ _ by decide),
      hother (show Kind.rbrace ∉ _ by decide)]
  have hbehind := hreaches.round (stmtPass_round (hother (by decide))
    (context.stops_eq_false hlist) (hother (by decide)) hstmt hreads hrun found)
  rw [Reaches] at hbehind ⊢
  rw [hbehind, plug]
  exact context.plug_congr _ rfl

theorem block (hreaches : context.Reaches (levels + 1) tokens found here)
    (hroom : here.nesting < maxNesting) (hkind : here.cursor.kind = .lbrace) :
    (stmt context found here.cursor.current (.block here.cursor.current)).Reaches levels tokens []
      (here.deeper.moveTo here.cursor.next) :=
  hreaches.enter hroom (by simp [hkind]) (enters_block levels hkind)

theorem ifElse (hreaches : context.Reaches (levels + layer.depth + 1) tokens found here)
    (hroom : here.nesting < maxNesting) (hkind : here.cursor.kind = .ifKw)
    (henters : layer.Enters levels (ifStmt (Grammar.nested (levels + layer.depth))) here.deeper
      inner) :
    (stmt context found here.cursor.current layer).Reaches levels tokens [] inner := by
  have hdeeper : here.deeper.cursor.kind = .ifKw := hkind
  exact hreaches.enter hroom (by simp [hkind])
    ((stmtInside_run_of_if hdeeper).trans henters)

theorem loop {head : LoopHead} (hreaches : context.Reaches (levels + 1) tokens found here)
    (hroom : here.nesting < maxNesting) (hkind : here.cursor.kind = .forKw)
    (hhead : head.Read (Grammar.nested levels) here.deeper.cursor.current
      (here.deeper.moveTo here.deeper.cursor.next) before)
    (hopening : before.cursor.kind = .lbrace) :
    (stmt context found here.cursor.current (.loop here.cursor.current head
      before.cursor.current)).Reaches levels tokens []
        (before.inLoop.moveTo before.cursor.next) := by
  have hdeeper : here.deeper.cursor.kind = .forKw := hkind
  exact hreaches.enter hroom (by simp [hkind])
    ((stmtInside_run_of_for hdeeper).trans (enters_loop hhead hopening))

theorem clause {head : ClauseHead} (hreaches : context.Reaches (levels + 1) tokens found here)
    (hroom : here.nesting < maxNesting) (hkind : here.cursor.kind = .switchKw)
    (hhead : head.Read (Grammar.nested levels) here.deeper before) :
    (stmt context found here.cursor.current (.clause head)).Reaches levels tokens []
      (before.moveTo before.cursor.next) := by
  have hdeeper : here.deeper.cursor.kind = .switchKw := hkind
  exact hreaches.enter hroom (by simp [hkind])
    ((stmtInside_run_of_switch hdeeper).trans (enters_clause hhead))

end Reaches

/-- The context inside blocks that begin one right behind the other. -/
def blocks (context : Enclosing) : List Token → Enclosing
  | [] => context
  | opening :: rest => (stmt context [] opening (.block opening)).blocks rest

theorem Reaches.blocks {openings rest : List Token}
    (hreaches : context.Reaches (levels + openings.length) tokens [] here)
    (hahead : here.cursor.ahead = openings ++ rest)
    (hkinds : ∀ opening ∈ openings, opening.kind = .lbrace)
    (hroom : here.nesting + openings.length ≤ maxNesting) :
    ∃ inner : State, (context.blocks openings).Reaches levels tokens [] inner ∧
      here.cursor.Reads openings inner.cursor ∧
      inner.nesting = here.nesting + openings.length ∧ inner.loopDepth = here.loopDepth ∧
      inner.diagnostics = here.diagnostics := by
  induction openings generalizing context here with
  | nil => exact ⟨here, hreaches, .refl _, rfl, rfl, rfl⟩
  | cons opening openings ih =>
      have hcurrent := Cursor.current_of_cons hahead
      rw [List.length_cons] at hroom
      have hkind : here.cursor.kind = .lbrace :=
        (congrArg Token.kind hcurrent).trans (hkinds opening List.mem_cons_self)
      have hblock : (stmt context [] opening (.block opening)).Reaches (levels + openings.length)
          tokens [] (here.deeper.moveTo here.cursor.next) :=
        hcurrent ▸ Reaches.block hreaches (by omega) hkind
      obtain ⟨inner, hinner, hreads, hnesting, hloopDepth, hdiagnostics⟩ := ih hblock
        (Cursor.ahead_next_of_cons hahead)
        (fun other hother => hkinds other (List.mem_cons_of_mem _ hother))
        (by rw [State.nesting_moveTo, State.nesting_deeper]; omega)
      refine ⟨inner, hinner, (Cursor.reads_next_of_cons hahead).trans hreads, ?_, hloopDepth,
        hdiagnostics⟩
      rw [hnesting, State.nesting_moveTo, State.nesting_deeper, List.length_cons]
      omega

/-- The body of a function is reached. -/
theorem reaches_function {head : FunctionHead} (hhead : head.Read tokens before) :
    (function head).Reaches maxNesting tokens [] before.inBody := by
  obtain @⟨package, found, start, here, _, _, _, _, _, hpackage, hfound, hkind, hname, hparams,
    hresults, hopening⟩ := hhead
  have hitem := item_run_function package found hkind hname hparams hresults hopening
  have hround : Round itemPass (found, here) (_ :: found, _) :=
    .look hkind (.bind hitem (.pure _ _))
  have hitems := (repeatStep_run_of_rounds itemPass_gains hfound).trans
    (repeatStep_run_of_round itemPass_gains hround)
  rw [Reaches, file_eq, hpackage.run_bind]
  change (fileOf package ((repeatStep itemPass []).run start).1.reverse,
    ((repeatStep itemPass []).run start).2) = _
  rw [hitems]
  rfl

end Enclosing

end OriSyntax.Grammar
