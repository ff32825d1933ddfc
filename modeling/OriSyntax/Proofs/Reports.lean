import OriSyntax.Proofs.Reportable
import OriSyntax.Proofs.Shaping

/-!
What the productions of a level report.  Each diagnostic is made where its place and its tokens
allow it.  The number of enclosing loops is counted up before the body of a loop and down behind
it, whether the body could be read or not; so as long as a body is read the count is not zero,
and `break` and `continue` are never said to be outside of every loop there.
-/

namespace OriSyntax.Grammar

variable {α β : Type} {nested : Nested}

/-- The step keeps a property of the state. -/
def Keeps (stays : State → Prop) (step : Step α) : Prop := Meets stays step fun _ => stays

/-- The production keeps a property of the state, whether it succeeds or fails. -/
def KeepsOrFails (stays : State → Prop) (production : Production α) : Prop :=
  Yields stays production (fun _ => stays) fun _ => stays

/-- The state is in a file of these tokens, inside `depth` loops, and all diagnostics behind the
`earlier` ones may be made there. -/
structure Reporting (tokens : List Token) (depth : Nat) (earlier : List Diagnostic)
    (state : State) : Prop where
  sameTokens : state.cursor.tokens = tokens
  loopDepth : state.loopDepth = depth
  reports : ∃ added, state.diagnostics.toList = earlier ++ added ∧
    ∀ diagnostic ∈ added, Reportable tokens depth diagnostic

/-- The expression does not begin with an illegal token, unless all of it is bad. -/
def Begins (expr : Expr) : Prop := expr.isBad = false → expr.first.kind ≠ .illegal

theorem begins_bad (node : BadNode) : Begins (.bad node) := nofun

/-- The productions of a level report what may be reported, and expressions begin as they
should. -/
structure Nested.KeepsReporting (nested : Nested) : Prop where
  expr : ∀ tokens depth earlier least, Keeps (Reporting tokens depth earlier) (nested.expr least)
  stmt : ∀ tokens depth earlier, Keeps (Reporting tokens depth earlier) nested.stmt
  ifElse : ∀ tokens depth earlier, KeepsOrFails (Reporting tokens depth earlier) nested.ifElse
  begins : ∀ least, Makes Begins (nested.expr least)

section Rules

variable {stays : State → Prop}

namespace Keeps

variable {step : Step α}

protected theorem pure (value : α) : Keeps stays (pure value) :=
  Meets.pure fun _ hstate => hstate

protected theorem bind {next : α → Step β} (hstep : Keeps stays step)
    (hnext : ∀ value, Keeps stays (next value)) : Keeps stays (step >>= next) :=
  Meets.bind hstep hnext

/-- Looking at the state does not change it. -/
theorem look {seen : State → α} {next : α → Step β}
    (hnext : ∀ value, Keeps stays (next value)) :
    Keeps stays ((do return seen (← get)) >>= next) :=
  fun state hstate => hnext (seen state) state hstate

protected theorem ite {condition : Prop} [Decidable condition] {other : Step α}
    (hstep : Keeps stays step) (hother : Keeps stays other) :
    Keeps stays (if condition then step else other) := by
  split
  · exact hstep
  · exact hother

theorem repeatStep {pass : β → Step (ForInStep β)} (hpass : ∀ found, Keeps stays (pass found))
    (found : β) : Keeps stays (repeatStep pass found) := by
  suffices hpasses : ∀ bound found, Keeps stays (passes pass bound found) from
    .look fun bound => hpasses bound found
  intro bound
  induction bound with
  | zero => exact fun found => .pure found
  | succ bound ih =>
      intro found
      apply Keeps.bind (hpass found)
      intro turn
      cases turn with
      | yield found => exact ih found
      | done result => exact .pure result

end Keeps

namespace KeepsOrFails

variable {production : Production α}

protected theorem pure (value : α) : KeepsOrFails stays (pure value) :=
  Yields.pure fun _ hstate => hstate

protected theorem throw (bad : BadNode) : KeepsOrFails stays (throw bad : Production α) :=
  Yields.throw fun _ hstate => hstate

protected theorem lift {step : Step α} (hstep : Keeps stays step) :
    KeepsOrFails stays (liftM step : Production α) :=
  Yields.lift hstep

protected theorem bind {next : α → Production β} (hproduction : KeepsOrFails stays production)
    (hnext : ∀ value, KeepsOrFails stays (next value)) :
    KeepsOrFails stays (production >>= next) :=
  Yields.bind hproduction hnext

/-- Looking at the state does not change it. -/
theorem look {seen : State → α} {next : α → Production β}
    (hnext : ∀ value, KeepsOrFails stays (next value)) :
    KeepsOrFails stays (liftM (do return seen (← get) : Step α) >>= next) :=
  fun state hstate => hnext (seen state) state hstate

protected theorem ite {condition : Prop} [Decidable condition] {other : Production α}
    (hproduction : KeepsOrFails stays production) (hother : KeepsOrFails stays other) :
    KeepsOrFails stays (if condition then production else other) := by
  split
  · exact hproduction
  · exact hother

theorem unlessAt (hproduction : KeepsOrFails stays production) (kind : Kind) :
    KeepsOrFails stays (unlessAt kind production) :=
  .look fun _ => .ite (.pure _) (.bind hproduction fun _ => .pure _)

theorem repeatProduction {pass : β → Production (ForInStep β)}
    (hpass : ∀ found, KeepsOrFails stays (pass found)) (found : β) :
    KeepsOrFails stays (repeatProduction pass found) := by
  suffices hpasses : ∀ bound found, KeepsOrFails stays (passes pass bound found) from
    .look fun bound => hpasses bound found
  intro bound
  induction bound with
  | zero => exact fun found => .pure found
  | succ bound ih =>
      intro found
      apply KeepsOrFails.bind (hpass found)
      intro turn
      cases turn with
      | yield found => exact ih found
      | done result => exact .pure result

end KeepsOrFails

end Rules

section Reporting

variable {tokens : List Token} {depth : Nat} {earlier : List Diagnostic}

theorem current_mem_tokens (cursor : Cursor) : cursor.current ∈ cursor.tokens := by
  cases hahead : cursor.ahead <;> simp [Cursor.current, Cursor.tokens, hahead]

theorem Reporting.current_mem {state : State} (hstate : Reporting tokens depth earlier state) :
    state.cursor.current ∈ tokens :=
  hstate.sameTokens ▸ current_mem_tokens state.cursor

/-- The tokens, the count and the reports are all that matters, so reading on keeps them. -/
theorem moveCursor_keeps {move : Cursor → Cursor}
    (hmove : ∀ cursor : Cursor, ∃ run, cursor.Reads run (move cursor)) :
    Keeps (Reporting tokens depth earlier) (moveCursor move) := by
  intro state hstate
  obtain ⟨run, hrun⟩ := hmove state.cursor
  exact ⟨hrun.tokens.trans hstate.sameTokens, hstate.loopDepth, hstate.reports⟩

theorem moveNext_keeps : Keeps (Reporting tokens depth earlier) (moveCursor Cursor.next) :=
  moveCursor_keeps Cursor.exists_reads_next

theorem advance_keeps : Keeps (Reporting tokens depth earlier) advance :=
  .look fun _ => .bind moveNext_keeps fun _ => .pure _

/-- What is read is one of the tokens. -/
theorem advance_reads : Meets (Reporting tokens depth earlier) advance fun token state =>
    Reporting tokens depth earlier state ∧ token ∈ tokens :=
  fun state hstate => ⟨advance_keeps state hstate, hstate.current_mem⟩

theorem current_reads : Meets (Reporting tokens depth earlier) current fun token state =>
    Reporting tokens depth earlier state ∧ token ∈ tokens :=
  fun _ hstate => ⟨hstate, hstate.current_mem⟩

/-- It is of the kind that was seen. -/
theorem advance_seen (kind : Kind) :
    Meets (fun state => Reporting tokens depth earlier state ∧ kind = state.cursor.kind) advance
      fun token state => Reporting tokens depth earlier state ∧ token ∈ tokens ∧
        token.kind = kind :=
  fun state hstate => ⟨advance_keeps state hstate.1, hstate.1.current_mem, hstate.2.symm⟩

theorem current_seen (kind : Kind) :
    Meets (fun state => Reporting tokens depth earlier state ∧ kind = state.cursor.kind) current
      fun token state => Reporting tokens depth earlier state ∧ token.kind = kind :=
  fun _ hstate => ⟨hstate.1, hstate.2.symm⟩

theorem accept?_keeps (kind : Kind) : Keeps (Reporting tokens depth earlier) (accept? kind) :=
  .look fun _ => .ite (.bind advance_keeps fun _ => .pure _) (.pure _)

theorem skip_keeps (rule : Skip.Rule) : Keeps (Reporting tokens depth earlier) (skip rule) :=
  moveCursor_keeps (Cursor.exists_reads_skip rule)

theorem stepOverUnless_keeps (needed : Kind → Bool) :
    Keeps (Reporting tokens depth earlier) (stepOverUnless needed) :=
  .look fun _ => .ite (.pure _) moveNext_keeps

theorem cover_keeps (first : Token) (bad : BadNode) :
    Keeps (Reporting tokens depth earlier) (cover first bad) :=
  fun _ hstate => hstate

section Reporting

variable {diagnostic : Diagnostic} (hdiagnostic : Reportable tokens depth diagnostic)
include hdiagnostic

theorem report_keeps (first last : Token) :
    Keeps (Reporting tokens depth earlier) (report diagnostic first last) := by
  intro state hstate
  obtain ⟨added, hadded, hall⟩ := hstate.reports
  refine ⟨hstate.sameTokens, hstate.loopDepth, added ++ [diagnostic], ?_, ?_⟩
  · change (state.diagnostics.push diagnostic).toList = earlier ++ (added ++ [diagnostic])
    rw [Array.toList_push, hadded, List.append_assoc]
  · intro other hother
    obtain hother | hother := List.mem_append.1 hother
    · exact hall other hother
    · rwa [List.mem_singleton.1 hother]

theorem reportHere_keeps : Keeps (Reporting tokens depth earlier) (reportHere diagnostic) :=
  .look fun _ => report_keeps hdiagnostic _ _

/-- It does not succeed, so anything may be said of its success. -/
theorem fail_reports {succeeded : α → State → Prop} (first last : Token) :
    Yields (Reporting tokens depth earlier) (fail diagnostic first last : Production α) succeeded
      fun _ => Reporting tokens depth earlier :=
  .bind (.lift (report_keeps hdiagnostic first last)) fun _ => .throw fun _ hstate => hstate

theorem fail_keeps (first last : Token) :
    KeepsOrFails (Reporting tokens depth earlier) (fail diagnostic first last : Production α) :=
  fail_reports hdiagnostic first last

theorem failHere_keeps :
    KeepsOrFails (Reporting tokens depth earlier) (failHere diagnostic : Production α) :=
  .bind (.lift (reportHere_keeps hdiagnostic)) fun _ => .throw _

end Reporting

section Expecting

variable {code : ErrorCode} (hcode : code ≠ .outsideLoop) {what : String} (hwhat : OneLine what)
include hcode hwhat

/-- What was expected is reported under the code of the place, or as an illegal token. -/
theorem expectedHere_keeps :
    Meets (Reporting tokens depth earlier) (expectedHere code what) fun diagnostic state =>
      Reporting tokens depth earlier state ∧ Reportable tokens depth diagnostic := by
  refine (expectedHere_meets code what).weaken fun diagnostic state hstate => ?_
  refine ⟨hstate.1, ?_⟩
  rw [hstate.2]
  split
  · exact .illegal
  · next hlegal => exact .expected hcode hwhat hlegal

theorem failExpected_keeps :
    KeepsOrFails (Reporting tokens depth earlier)
      (do failHere (← expectedHere code what) : Production α) :=
  Yields.bind (.lift (expectedHere_keeps hcode hwhat)) fun _ => .of_known failHere_keeps

/-- What was expected is reported from an earlier token on. -/
theorem failExpectedFrom_keeps (first : Token) :
    KeepsOrFails (Reporting tokens depth earlier) (do
      let diagnostic ← expectedHere code what
      fail diagnostic first (← current) : Production α) :=
  Yields.bind (.lift (expectedHere_keeps hcode hwhat)) fun _ => .of_known fun hdiagnostic =>
    KeepsOrFails.look fun _ => fail_keeps hdiagnostic _ _

theorem expectAs_reads (kind : Kind) :
    Yields (Reporting tokens depth earlier) (expectAs code kind what)
      (fun token state => Reporting tokens depth earlier state ∧ token ∈ tokens)
      fun _ => Reporting tokens depth earlier := by
  refine Yields.bind (.lift currentKind_meets) fun _ => .strengthen ?_ fun _ hstate => hstate.1
  split
  · exact .lift advance_reads
  refine Yields.bind (.lift (expectedHere_keeps hcode hwhat)) fun _ =>
    .of_known fun hdiagnostic => ?_
  exact Yields.bind (.lift (reportHere_keeps hdiagnostic)) fun _ =>
    .bind (.lift (stepOverUnless_keeps _)) fun _ => .throw fun _ hstate => hstate

end Expecting

section Expected

variable {what : String} (hwhat : OneLine what)
include hwhat

theorem expect_keeps (kind : Kind) :
    KeepsOrFails (Reporting tokens depth earlier) (expect kind what) :=
  (expectAs_reads (by decide) hwhat kind).weaken (fun _ _ hstate => hstate.1)
    fun _ _ hstate => hstate

/-- A name is one of the tokens. -/
theorem expectName_reads :
    Yields (Reporting tokens depth earlier) (expectName what)
      (fun token state => Reporting tokens depth earlier state ∧ token ∈ tokens)
      fun _ => Reporting tokens depth earlier :=
  expectAs_reads (by decide) hwhat .ident

theorem expectName_keeps : KeepsOrFails (Reporting tokens depth earlier) (expectName what) :=
  (expectName_reads hwhat).weaken (fun _ _ hstate => hstate.1) fun _ _ hstate => hstate

end Expected

section Combinators

variable {production : Production α}
  (hproduction : KeepsOrFails (Reporting tokens depth earlier) production)
include hproduction

theorem covering_keeps (first : Token) :
    KeepsOrFails (Reporting tokens depth earlier) (covering first production) :=
  Yields.onFailure hproduction fun _ => cover_keeps _ _

theorem skipping_keeps (rule : Skip.Rule) :
    KeepsOrFails (Reporting tokens depth earlier) (skipping rule production) :=
  Yields.onFailure hproduction fun _ => .bind (skip_keeps _) fun _ => .pure fun _ hstate => hstate

theorem recoverWith_keeps (rule : Skip.Rule) (first : Token) (ofBad : BadNode → α) :
    Keeps (Reporting tokens depth earlier) (recoverWith rule first ofBad production) :=
  Meets.recoverWith hproduction fun _ => .bind (skip_keeps _) fun _ =>
    .bind (cover_keeps _ _) fun _ => .pure fun _ hstate => hstate

omit hproduction in
theorem failTooDeep_keeps :
    KeepsOrFails (Reporting tokens depth earlier) (failTooDeep : Production α) :=
  .look fun _ => failHere_keeps .nestingTooDeep

/-- A level deeper the loops around are the same. -/
theorem descend_keeps : KeepsOrFails (Reporting tokens depth earlier) (descend production) := by
  refine Yields.bind (.lift get_meets) fun _ => .strengthen ?_ fun _ hstate => hstate.1
  split
  · exact failTooDeep_keeps
  · exact .between hproduction
      (fun _ hstate => ⟨hstate.sameTokens, hstate.loopDepth, hstate.reports⟩)
      (fun _ _ hstate => ⟨hstate.sameTokens, hstate.loopDepth, hstate.reports⟩)
      fun _ _ hstate => ⟨hstate.sameTokens, hstate.loopDepth, hstate.reports⟩

end Combinators

theorem failList_keeps {message : String} (hmessage : OneLine message) :
    KeepsOrFails (Reporting tokens depth earlier) (failList message : Production α) :=
  .look fun _ => failHere_keeps (.malformedList hmessage)

section Lists

variable {noun : String} (hnoun : OneLine noun)
include hnoun

theorem commaPass_keeps {entry : Production α}
    (hentry : KeepsOrFails (Reporting tokens depth earlier) entry) (found : List α) :
    KeepsOrFails (Reporting tokens depth earlier) (commaPass noun entry found) := by
  have hmissing : OneLine s!"expected ',' or ')' in {noun} list" :=
    .append (.append (by decide) hnoun) (by decide)
  refine .look fun _ => .ite (.pure _) (.ite (failExpected_keeps (by decide) (by decide)) ?_)
  refine .bind hentry fun _ => .look fun _ => .ite ?_ (.ite (.pure _) (failList_keeps hmissing))
  exact .bind (.lift advance_keeps) fun _ => .look fun _ =>
    .ite (failList_keeps (by decide)) (.pure _)

theorem restOfList_keeps (opening : Token) {entry : Production α}
    (hentry : KeepsOrFails (Reporting tokens depth earlier) entry) :
    KeepsOrFails (Reporting tokens depth earlier) (restOfList noun opening entry) := by
  have hlist : KeepsOrFails (Reporting tokens depth earlier) (commaList noun entry) :=
    .look fun _ => .ite (failList_keeps (.append (by decide) hnoun))
      (.bind (.repeatProduction (commaPass_keeps hnoun hentry) _) fun _ => .pure _)
  exact .bind (skipping_keeps hlist _) fun _ => .bind (.lift advance_keeps) fun _ => .pure _

end Lists

theorem typeName_keeps (accepts : Kind → Bool) {what : String} (hwhat : OneLine what) :
    Keeps (Reporting tokens depth earlier) (typeName accepts what) := by
  refine .look fun _ => .ite (.bind advance_keeps fun _ => .pure _) (.look fun got => ?_)
  have hreport : Keeps (Reporting tokens depth earlier) (reportHere
      (if got.kind = .illegal then .illegal got else .unsupportedType what got)) := by
    split
    · exact reportHere_keeps .illegal
    · next hlegal => exact reportHere_keeps (.unsupportedType hwhat hlegal)
  exact .bind hreport fun _ => .bind (stepOverUnless_keeps _) fun _ => .pure _

theorem param_keeps (named : Bool) :
    KeepsOrFails (Reporting tokens depth earlier) (param named) := by
  have hname : KeepsOrFails (Reporting tokens depth earlier) (paramName named) :=
    .ite (.bind (expectName_keeps (by decide)) fun _ => .pure _) (.pure _)
  exact .bind hname fun _ => .bind (.lift (typeName_keeps _ (by decide))) fun _ => .pure _

theorem paramList_keeps (named : Bool) :
    KeepsOrFails (Reporting tokens depth earlier) (paramList named) :=
  .bind (expect_keeps (by decide) _) fun opening =>
    covering_keeps (restOfList_keeps (by decide) opening (param_keeps named)) opening

theorem results_keeps : KeepsOrFails (Reporting tokens depth earlier) results := by
  have hend : Keeps (Reporting tokens depth earlier) atSignatureEnd := fun _ hstate => hstate
  refine .bind (.lift hend) fun _ => .ite (.pure _) (.look fun _ => .ite ?_ ?_)
  · exact .look fun _ => .bind (paramList_keeps _) fun _ => .pure _
  · exact .bind (.lift (typeName_keeps _ (by decide))) fun _ => .pure _

theorem qualifiedName_keeps {what : String} (hwhat : OneLine what) :
    KeepsOrFails (Reporting tokens depth earlier) (qualifiedName what) := by
  refine .bind (expectName_keeps hwhat) fun _ => .bind (.lift (accept?_keeps _)) fun dot => ?_
  cases dot with
  | some dot => exact .bind (expectName_keeps hwhat) fun _ => .pure _
  | none => exact .pure _

section Expressions

variable (hnested : nested.KeepsReporting)
include hnested

theorem parenthesized_keeps :
    KeepsOrFails (Reporting tokens depth earlier) (parenthesized nested) := by
  refine .bind (.lift advance_keeps) fun opening => .look fun _ => .ite ?_ ?_
  · refine Yields.bind (.lift (expectedHere_keeps (by decide) (by decide))) fun _ =>
      .of_known fun hdiagnostic => ?_
    exact KeepsOrFails.bind (.lift advance_keeps) fun _ => fail_keeps hdiagnostic _ _
  · exact .bind (.lift (hnested.expr _ _ _ _)) fun _ =>
      .bind (covering_keeps (expect_keeps (by decide) _) opening) fun _ => .pure _

theorem operand_keeps : KeepsOrFails (Reporting tokens depth earlier) (operand nested) := by
  apply KeepsOrFails.look
  intro kind
  split
  case h_6 => exact parenthesized_keeps hnested
  case h_7 | h_8 =>
    exact .bind (.lift advance_keeps) fun _ => .bind (.lift (hnested.expr _ _ _ _)) fun _ => .pure _
  case h_9 =>
    refine Yields.bind (.lift (expectedHere_keeps (by decide) (by decide))) fun _ =>
      .of_known fun hdiagnostic => ?_
    exact KeepsOrFails.bind (.lift (reportHere_keeps hdiagnostic)) fun _ =>
      .bind (.lift (stepOverUnless_keeps _)) fun _ => .throw _
  all_goals exact .bind (.lift advance_keeps) fun _ => .pure _

theorem binary_keeps (left : Expr) (level : Precedence) :
    Keeps (Reporting tokens depth earlier) (binary nested left level) := by
  refine .bind advance_keeps fun op => .bind (hnested.expr _ _ _ _) fun _ => ?_
  split
  · next hchained =>
      have hop : op.kind ≠ .illegal := by
        intro hillegal
        simp [hillegal, Kind.isComparison] at hchained
      exact .bind (report_keeps (.chainedComparison hop) _ _) fun _ => .pure _
  · exact .pure _

theorem suffix_keeps (base : Expr) :
    KeepsOrFails (Reporting tokens depth earlier) (suffix nested base) := by
  refine .bind (.lift advance_keeps) fun opening => .ite ?_ (.ite ?_ ?_)
  · exact .bind (expectName_keeps (by decide)) fun _ => .pure _
  · exact .bind (.lift (hnested.expr _ _ _ _)) fun _ =>
      .bind (expect_keeps (by decide) _) fun _ => .pure _
  · exact .bind (restOfList_keeps (by decide) opening (.lift (hnested.expr _ _ _ _)))
      fun _ => .pure _

theorem exprPass_keeps (least : Precedence) (left : Expr) :
    Keeps (Reporting tokens depth earlier) (exprPass nested least left) := by
  refine .look fun _ => .look fun _ => .ite (.pure _) (.ite ?_ ?_)
  · refine Meets.bind (suffix_keeps hnested left) fun outcome => ?_
    cases outcome with
    | ok expr => exact .pure fun _ hstate => hstate
    | error bad => exact .bind (cover_keeps _ _) fun _ => .pure fun _ hstate => hstate
  · exact .bind (binary_keeps hnested left _) fun _ => .pure _

theorem exprInside_keeps (least : Precedence) :
    Keeps (Reporting tokens depth earlier) (exprInside nested least) := by
  refine Meets.bind (operand_keeps hnested) fun outcome => ?_
  cases outcome with
  | ok left => exact Keeps.repeatStep (exprPass_keeps hnested least) left
  | error bad => exact .pure fun _ hstate => hstate

theorem exprList_keeps : Keeps (Reporting tokens depth earlier) (exprList nested) := by
  refine .bind (.repeatStep (fun found => ?_) _) fun _ => .pure _
  refine .bind (hnested.expr _ _ _ _) fun _ => .bind (accept?_keeps _) fun comma => ?_
  cases comma <;> exact .pure _

end Expressions

theorem memberPass_keeps {member : Production α}
    (hmember : KeepsOrFails (Reporting tokens depth earlier) member) (found : List α) :
    KeepsOrFails (Reporting tokens depth earlier) (memberPass member found) := by
  have hend : KeepsOrFails (Reporting tokens depth earlier) memberEnd :=
    .look fun _ => .look fun _ => .ite (.pure _) (failExpected_keeps (by decide) (by decide))
  refine .look fun _ =>
    .ite (.pure _) (.ite (failExpected_keeps (by decide) (by decide)) (.ite ?_ ?_))
  · exact .bind (.lift advance_keeps) fun _ => .pure _
  · exact .bind (skipping_keeps (.bind hmember fun _ => .bind hend fun _ => .pure _) _)
      fun _ => .pure _

theorem typeBody_keeps {member : Production α}
    (hmember : KeepsOrFails (Reporting tokens depth earlier) member) (typeKeyword name : Token) :
    KeepsOrFails (Reporting tokens depth earlier) (typeBody typeKeyword name member) := by
  have hmembers : KeepsOrFails (Reporting tokens depth earlier) (members member) :=
    .bind (expect_keeps (by decide) _) fun _ =>
      .bind (.repeatProduction (memberPass_keeps hmember) _) fun _ =>
        .bind (.lift advance_keeps) fun _ => .pure _
  exact .bind (.lift advance_keeps) fun _ => .bind hmembers fun _ => .pure _

/-- That a type is empty is reported at the brace that closes it. -/
theorem nonemptyBody_keeps {member : Production α}
    (hmember : KeepsOrFails (Reporting tokens depth earlier) member)
    (hreads : ConsumesOrFails member) {what : String} (hwhat : OneLine what)
    (typeKeyword : Token) {name : Token} (hname : name ∈ tokens) :
    KeepsOrFails (Reporting tokens depth earlier) (nonemptyBody what typeKeyword name member) := by
  have hcloses : MakesOrFails (fun decl => decl.body.closing.kind = .rbrace)
      (typeBody typeKeyword name member) :=
    .after fun _ => .bind (members_closes hreads) fun _ hbody => .pure hbody.2
  refine Yields.bind ((typeBody_keeps hmember _ _).and_succeeded
    (hcloses.strengthen fun _ _ => trivial)) fun decl => .of_known fun hclosing => ?_
  have hlegal : decl.body.closing.kind ≠ .illegal := by simp [hclosing]
  exact KeepsOrFails.ite (fail_keeps (.emptyType hwhat hname hlegal) _ _) (.pure _)

theorem interfaceMember_keeps : KeepsOrFails (Reporting tokens depth earlier) interfaceMember := by
  refine .look fun _ => .look fun _ => .ite ?_ ?_
  · exact .bind (.lift advance_keeps) fun _ => .bind (paramList_keeps _) fun _ =>
      .bind results_keeps fun _ => .pure _
  · exact .bind (qualifiedName_keeps (by decide)) fun _ => .pure _

theorem sumVariant_keeps : KeepsOrFails (Reporting tokens depth earlier) sumVariant :=
  .bind (expectName_keeps (by decide)) fun _ => .look fun _ =>
    .ite (.bind (paramList_keeps _) fun _ => .pure _) (.pure _)

section Statements

variable (hnested : nested.KeepsReporting)
include hnested

theorem field_keeps : KeepsOrFails (Reporting tokens depth earlier) (field nested) := by
  refine .bind (expectName_keeps (by decide)) fun _ =>
    .bind (.lift (typeName_keeps _ (by decide))) fun _ => ?_
  refine .bind (.lift (accept?_keeps _)) fun eq => ?_
  cases eq with
  | some eq => exact .bind (.lift (hnested.expr _ _ _ _)) fun _ => .pure _
  | none => exact .pure _

theorem typeDecl_keeps : KeepsOrFails (Reporting tokens depth earlier) (typeDecl nested) := by
  refine .bind (.lift advance_keeps) fun keyword =>
    Yields.bind (expectName_reads (by decide)) fun name => .of_known fun hname => ?_
  refine covering_keeps (.look fun kind => ?_) keyword
  split
  · exact .bind (typeBody_keeps (field_keeps hnested) _ _) fun _ => .pure _
  · exact .bind (typeBody_keeps interfaceMember_keeps _ _) fun _ => .pure _
  · exact .bind (nonemptyBody_keeps (expectName_keeps (by decide))
      (expectName_consumesOrFails _) (by decide) _ hname) fun _ => .pure _
  · exact .bind (nonemptyBody_keeps sumVariant_keeps sumVariant_consumesOrFails (by decide) _
      hname) fun _ => .pure _
  · exact failExpected_keeps (by decide) (by decide)

theorem valueDecl_keeps {what : String} (hwhat : OneLine what) :
    KeepsOrFails (Reporting tokens depth earlier) (valueDecl nested what) :=
  .bind (.lift advance_keeps) fun _ => .bind (expectName_keeps hwhat) fun _ =>
    .bind (.unlessAt (.lift (typeName_keeps _ (by decide))) _) fun _ =>
      .bind (expect_keeps (by decide) _) fun _ =>
        .bind (.lift (hnested.expr _ _ _ _)) fun _ => .pure _

/-- A simple statement begins with its expression. -/
theorem simpleStmt_begins :
    Yields (Reporting tokens depth earlier) (simpleStmt nested)
      (fun stmt state => Reporting tokens depth earlier state ∧ stmt.first.kind ≠ .illegal)
      fun _ => Reporting tokens depth earlier := by
  have hexpr : Meets (Reporting tokens depth earlier) (nested.expr .lowest) fun expr state =>
      Reporting tokens depth earlier state ∧ Begins expr :=
    (hnested.expr _ _ _ _).and ((hnested.begins _).strengthen fun _ _ => trivial)
  refine Yields.bind (.lift hexpr) fun expr => .of_known fun hbegins => ?_
  split
  · exact .throw fun _ hstate => hstate
  next hnotBad =>
  have hfirst : expr.first.kind ≠ .illegal := by
    apply hbegins
    cases expr with
    | bad node => exact absurd rfl (hnotBad node)
    | _ => rfl
  refine Yields.bind (.lift currentKind_meets) fun _ => .strengthen ?_ fun _ hstate => hstate.1
  split
  · exact .bind (.lift advance_keeps) fun _ => .bind (.lift (hnested.expr _ _ _ _)) fun _ =>
      .pure fun _ hstate => ⟨hstate, hfirst⟩
  split
  · exact .bind (.lift advance_keeps) fun _ => .pure fun _ hstate => ⟨hstate, hfirst⟩
  split
  · exact .pure fun _ hstate => ⟨hstate, hfirst⟩
  · exact fail_reports (.unsupportedStatement hfirst) _ _

theorem simpleStmt_keeps : KeepsOrFails (Reporting tokens depth earlier) (simpleStmt nested) :=
  (simpleStmt_begins hnested).weaken (fun _ _ hstate => hstate.1) fun _ _ hstate => hstate

theorem returnStmt_keeps : Keeps (Reporting tokens depth earlier) (returnStmt nested) := by
  have hend : Keeps (Reporting tokens depth earlier) atReturnEnd := fun _ hstate => hstate
  exact .bind advance_keeps fun _ => .bind hend fun _ =>
    .ite (.pure _) (.bind (exprList_keeps hnested) fun _ => .pure _)

omit hnested in
/-- The statement is said to be outside of every loop only where the count of loops is
zero. -/
theorem branchStmt_keeps {kind : Kind} (hkind : kind ≠ .illegal) :
    Yields (fun state => Reporting tokens depth earlier state ∧ kind = state.cursor.kind)
      branchStmt (fun _ => Reporting tokens depth earlier)
      fun _ => Reporting tokens depth earlier := by
  refine Yields.bind (.lift (advance_seen kind)) fun keyword => .of_known fun hkeyword => ?_
  obtain ⟨hmem, hsame⟩ := hkeyword
  refine Yields.bind (.lift get_meets) fun found => ?_
  split
  · next houtside =>
      have hdepth : Yields (fun state => Reporting tokens depth earlier state ∧ depth = 0)
          (fail (.outsideLoop keyword) keyword keyword : Production Stmt)
          (fun _ => Reporting tokens depth earlier) fun _ => Reporting tokens depth earlier :=
        .of_known fun hdepth => fail_keeps (.outsideLoop hdepth hmem (hsame ▸ hkind)) _ _
      refine hdepth.strengthen fun state hstate => ⟨hstate.1, ?_⟩
      rw [← hstate.1.loopDepth, ← hstate.2]
      exact houtside
  · refine Yields.strengthen ?_ fun _ hstate => hstate.1
    refine KeepsOrFails.look fun _ => .look fun _ => .ite (.pure _) (.look fun _ => ?_)
    exact fail_keeps (.afterBranch hmem) _ _

omit hnested in
theorem fallThroughStmt_keeps : KeepsOrFails (Reporting tokens depth earlier) fallThroughStmt :=
  .bind (.lift advance_keeps) fun _ => .bind (.lift (accept?_keeps _)) fun _ =>
    .look fun _ => .ite (.pure _)
      (.look fun _ => fail_keeps .misplacedFallThrough _ _)

theorem steppingStmt_keeps : Keeps (Reporting tokens depth earlier) (steppingStmt nested) :=
  .look fun _ => .bind (hnested.stmt _ _ _) fun _ => .look fun _ =>
    .ite (.bind moveNext_keeps fun _ => .pure _) (.pure _)

theorem stmtList_keeps (stops : Kind → Bool) :
    Keeps (Reporting tokens depth earlier) (stmtList nested stops) := by
  refine .bind (.repeatStep (fun found => ?_) _) fun _ => .pure _
  refine .look fun _ => .ite (.pure _) (.ite (.bind advance_keeps fun _ => .pure _) ?_)
  exact .bind (steppingStmt_keeps hnested) fun _ => .pure _

theorem block_keeps : KeepsOrFails (Reporting tokens depth earlier) (block nested) :=
  .bind (expect_keeps (by decide) _) fun opening =>
    .bind (.lift (stmtList_keeps hnested _)) fun _ =>
      .bind (covering_keeps (expect_keeps (by decide) _) opening) fun _ => .pure _

theorem elseBranch_keeps : KeepsOrFails (Reporting tokens depth earlier) (elseBranch nested) := by
  refine .bind (.lift (accept?_keeps _)) fun keyword => ?_
  cases keyword with
  | none => exact .pure _
  | some keyword =>
      refine .look fun _ => .ite ?_ (.ite ?_ ?_)
      · exact .bind (hnested.ifElse _ _ _) fun _ => .pure _
      · exact .bind (block_keeps hnested) fun _ => .pure _
      · exact failExpectedFrom_keeps (by decide) (by decide) keyword

theorem ifStmt_keeps : KeepsOrFails (Reporting tokens depth earlier) (ifStmt nested) := by
  refine .bind (.lift advance_keeps) fun keyword => .look fun _ => .ite ?_ ?_
  · exact failExpectedFrom_keeps (by decide) (by decide) keyword
  · refine .bind (.lift (hnested.expr _ _ _ _)) fun _ => Yields.bind (.lift currentKind_meets)
      fun kind => ?_
    split
    · next hassign =>
        refine Yields.bind (.lift (current_seen kind)) fun op => .of_known fun hop => ?_
        refine fail_keeps (.assignmentInCondition fun hillegal => ?_) _ _
        simp [← hop, hillegal, Kind.isAssignOp] at hassign
    · refine Yields.strengthen ?_ fun _ hstate => hstate.1
      exact KeepsOrFails.bind (block_keeps hnested) fun _ =>
        .bind (elseBranch_keeps hnested) fun _ => .pure _

/-- The body of a loop is inside one loop more, and what follows it is not. -/
theorem loopBody_keeps : KeepsOrFails (Reporting tokens depth earlier) (loopBody nested) := by
  refine .of_each fun start hstart => ?_
  have hleaves (stop : State)
      (hstop : Reporting tokens (depth + 1) start.diagnostics.toList stop) :
      Reporting tokens depth earlier { stop with loopDepth := stop.loopDepth - 1 } := by
    obtain ⟨before, hbefore, hallowed⟩ := hstart.reports
    obtain ⟨added, hadded, hinside⟩ := hstop.reports
    refine ⟨hstop.sameTokens, congrArg (· - 1) hstop.loopDepth, before ++ added, ?_, ?_⟩
    · rw [hadded, hbefore, List.append_assoc]
    · exact List.forall_mem_append.2 ⟨hallowed, fun other hother => (hinside other hother).outside⟩
  apply Yields.between (block_keeps hnested)
  · rintro state rfl
    exact ⟨hstart.sameTokens, congrArg (· + 1) hstart.loopDepth, [], (List.append_nil _).symm,
      List.forall_mem_nil _⟩
  · exact fun _ => hleaves
  · exact fun _ => hleaves

theorem rangeTargets_keeps (keyword : Token) :
    KeepsOrFails (Reporting tokens depth earlier) (rangeTargets nested keyword) := by
  have hvalue : Keeps (Reporting tokens depth earlier) (rangeValue nested) := by
    refine .bind (accept?_keeps _) fun comma => ?_
    cases comma with
    | some comma => exact .bind (hnested.expr _ _ _ _) fun _ => .pure _
    | none => exact .pure _
  refine .look fun _ => .ite (.pure _) (.bind (.lift (hnested.expr _ _ _ _)) fun _ => ?_)
  refine .bind (.lift hvalue) fun _ => .look fun _ => .ite ?_ ?_
  · exact .bind (.lift advance_keeps) fun _ => .pure _
  · exact failExpectedFrom_keeps (by decide) (by decide) keyword

theorem rangeLoop_keeps (keyword : Token) :
    KeepsOrFails (Reporting tokens depth earlier) (rangeLoop nested keyword) :=
  .bind (rangeTargets_keeps hnested keyword) fun _ => .bind (expect_keeps (by decide) _) fun _ =>
    .bind (.lift (hnested.expr _ _ _ _)) fun _ => .bind (loopBody_keeps hnested) fun _ => .pure _

theorem forClause_keeps (clause : ForClause) :
    KeepsOrFails (Reporting tokens depth earlier) (forClause nested clause) :=
  Yields.bind (simpleStmt_begins hnested) fun _ => .of_known fun hfirst =>
    KeepsOrFails.ite (.pure _)
      (fail_keeps (.invalidForClause (by cases clause <;> decide) hfirst) _ _)

theorem threeClauseLoop_keeps (keyword : Token) :
    KeepsOrFails (Reporting tokens depth earlier) (threeClauseLoop nested keyword) := by
  apply KeepsOrFails.bind ((forClause_keeps hnested .init).unlessAt _)
  intro _
  apply KeepsOrFails.bind (expect_keeps (by decide) _)
  intro _
  apply KeepsOrFails.bind (.unlessAt (.lift (hnested.expr _ _ _ _)) _)
  intro _
  apply KeepsOrFails.bind (expect_keeps (by decide) _)
  intro _
  apply KeepsOrFails.bind ((forClause_keeps hnested .post).unlessAt _)
  intro _
  exact .bind (loopBody_keeps hnested) fun _ => .pure _

theorem loop_keeps : KeepsOrFails (Reporting tokens depth earlier) (loop nested) := by
  apply KeepsOrFails.bind (.lift advance_keeps)
  intro keyword
  refine covering_keeps (skipping_keeps (.look fun _ => .ite ?_ (.look fun _ => .ite ?_ ?_)) _) _
  · exact .bind (loopBody_keeps hnested) fun _ => .pure _
  · exact rangeLoop_keeps hnested keyword
  · refine .look fun _ => .ite (threeClauseLoop_keeps hnested keyword) ?_
    exact .bind (.lift (hnested.expr _ _ _ _)) fun _ =>
      .bind (loopBody_keeps hnested) fun _ => .pure _

theorem caseClause_keeps : KeepsOrFails (Reporting tokens depth earlier) (caseClause nested) := by
  have hvalues (keyword : Token) :
      Keeps (Reporting tokens depth earlier) (caseValues nested keyword) :=
    .ite (exprList_keeps hnested) (.pure _)
  exact .bind (.lift advance_keeps) fun keyword => .bind (.lift (hvalues keyword)) fun _ =>
    .bind (expect_keeps (by decide) _) fun _ =>
      .bind (.lift (stmtList_keeps hnested _)) fun _ => .pure _

theorem caseStmt_keeps {kind : Kind} (hkind : kind ≠ .illegal) (found : List Stmt) :
    Meets (fun state => Reporting tokens depth earlier state ∧ kind = state.cursor.kind)
      (caseStmt nested found) fun _ => Reporting tokens depth earlier := by
  refine Meets.bind (current_seen kind) fun start => .of_known fun hstart => ?_
  refine Meets.bind (caseClause_keeps hnested) fun outcome => ?_
  cases outcome with
  | ok clause =>
      exact Keeps.ite (.bind (report_keeps (.repeatedDefault (hstart ▸ hkind)) _ _)
        fun _ => .pure _) (.pure _)
  | error bad => exact Keeps.bind (skip_keeps _) fun _ => .bind (cover_keeps _ _) fun _ => .pure _

omit hnested in
theorem strayCase_keeps : Keeps (Reporting tokens depth earlier) strayCase := by
  apply Keeps.look
  intro _
  refine Meets.bind (expectedHere_keeps (by decide) (by decide)) fun _ =>
    .of_known fun hdiagnostic => ?_
  exact Keeps.bind (reportHere_keeps hdiagnostic) fun _ => .bind moveNext_keeps fun _ =>
    .bind (skip_keeps _) fun _ => .bind (cover_keeps _ _) fun _ => .pure _

theorem caseList_keeps : Keeps (Reporting tokens depth earlier) (caseList nested) := by
  refine .bind (.repeatStep (fun found => ?_) _) fun _ => .pure _
  refine Meets.bind currentKind_meets fun kind => ?_
  split
  · exact Meets.pure fun _ hstate => hstate.1
  split
  · exact Meets.strengthen (Keeps.bind advance_keeps fun _ => .pure _) fun _ hstate => hstate.1
  split
  · next hclause =>
      have hkind : kind ≠ .illegal := by
        rintro rfl
        exact absurd hclause (by decide)
      exact Meets.bind (caseStmt_keeps hnested hkind found) fun _ => Keeps.pure _
  · exact Meets.strengthen (Keeps.bind strayCase_keeps fun _ => .pure _) fun _ hstate => hstate.1

theorem switch_keeps : KeepsOrFails (Reporting tokens depth earlier) (switch nested) := by
  have hfirst : KeepsOrFails (Reporting tokens depth earlier) (switchInit nested) :=
    .look fun _ => .ite (.bind (simpleStmt_keeps hnested) fun _ =>
      .bind (expect_keeps (by decide) _) fun _ => .pure _) (.pure _)
  apply KeepsOrFails.bind (.lift advance_keeps)
  intro keyword
  refine covering_keeps (skipping_keeps ?_ _) _
  apply KeepsOrFails.bind hfirst
  intro _
  apply KeepsOrFails.bind (.unlessAt (.lift (hnested.expr _ _ _ _)) _)
  intro _
  apply KeepsOrFails.bind (expect_keeps (by decide) _)
  intro _
  apply KeepsOrFails.bind (.lift (caseList_keeps hnested))
  intro _
  exact .bind (covering_keeps (expect_keeps (by decide) _) keyword) fun _ => .pure _

theorem stmtInside_keeps : KeepsOrFails (Reporting tokens depth earlier) (stmtInside nested) := by
  refine Yields.bind (.lift currentKind_meets) fun kind => ?_
  have hplain {production : Production Stmt}
      (hproduction : KeepsOrFails (Reporting tokens depth earlier) production) :
      Yields (fun state => Reporting tokens depth earlier state ∧ kind = state.cursor.kind)
        production (fun _ => Reporting tokens depth earlier)
        fun _ => Reporting tokens depth earlier :=
    hproduction.strengthen fun _ hstate => hstate.1
  split
  · exact hplain (.bind (valueDecl_keeps hnested (by decide)) fun _ => .pure _)
  · exact hplain (.bind (valueDecl_keeps hnested (by decide)) fun _ => .pure _)
  · exact hplain (.lift (returnStmt_keeps hnested))
  · exact hplain (ifStmt_keeps hnested)
  · exact hplain (loop_keeps hnested)
  · exact hplain (switch_keeps hnested)
  · exact branchStmt_keeps (by decide)
  · exact branchStmt_keeps (by decide)
  · exact hplain fallThroughStmt_keeps
  · exact hplain (.bind (block_keeps hnested) fun _ => .pure _)
  · refine hplain (.look fun _ => .ite ?_ (simpleStmt_keeps hnested))
    exact .bind (typeDecl_keeps hnested) fun _ => .pure _
  · exact hplain (simpleStmt_keeps hnested)

end Statements

end Reporting

section FirstTokens

/-- What begins with the next token begins with one of its kind. -/
theorem advance_begins {next : Token → Production Expr} {kind : Kind} (hkind : kind ≠ .illegal)
    (hnext : ∀ token, MakesOrFails (·.first = token) (next token)) :
    MakesOrFailsAt (fun state => True ∧ kind = state.cursor.kind) (·.first.kind ≠ .illegal)
      (do next (← advance)) := by
  apply MakesOrFailsAt.bind (.lift (advance_makes_seen kind))
  intro token htoken
  exact (hnext token).weaken fun hfirst => by rwa [hfirst, htoken]

theorem operand_begins : MakesOrFails (·.first.kind ≠ .illegal) (operand nested) := by
  have hparenthesized (opening : Token) : MakesOrFails (·.first = opening) (do
      if (← currentKind) = .rparen then
        let diagnostic ← expectedHere .missingExpression "expression inside '()'"
        fail diagnostic opening (← advance)
      else
        let inner ← nested.expr .lowest
        let closing ← covering opening (expect .rparen "')'")
        return Expr.paren opening inner closing) :=
    .after fun _ => .ite (.after fun _ => .after fun _ => .fail _ _ _)
      (.after fun _ => .after fun _ => .pure rfl)
  have hunary (op : Token) : MakesOrFails (·.first = op)
      (do return Expr.unary op (← nested.expr .suffix)) :=
    .after fun _ => .pure rfl
  apply MakesOrFailsAt.look
  intro kind
  split
  case h_6 => exact advance_begins nofun hparenthesized
  case h_7 | h_8 => exact advance_begins nofun hunary
  case h_9 => exact .of_makes (.after fun _ => .after fun _ => .after fun _ => .throw _)
  all_goals exact advance_begins nofun fun _ => .pure rfl

variable {left : Expr} (hleft : left.first.kind ≠ .illegal)
include hleft

/-- The comparison of a comparison is bad from its operator on. -/
theorem binary_begins (level : Precedence) :
    Makes (·.first.kind ≠ .illegal) (binary nested left level) := by
  apply Makes.after
  intro op
  apply Makes.after
  intro right
  split
  · next hchained =>
      have hreport : Makes (·.first = op) (report (.chainedComparison op) op right.last) :=
        fun _ _ => rfl
      refine .bind hreport fun bad hfirst => .pure fun hillegal => ?_
      have hop : op.kind = .illegal := by rwa [← hfirst]
      simp [hop, Kind.isComparison] at hchained
  · exact .pure hleft

theorem suffix_begins : MakesOrFails (·.first.kind ≠ .illegal) (suffix nested left) :=
  .after fun _ => .ite (.after fun _ => .pure hleft)
    (.ite (.after fun _ => .after fun _ => .pure hleft) (.after fun _ => .pure hleft))

theorem exprPass_begins (least : Precedence) :
    Makes (Gathered (·.first.kind ≠ .illegal)) (exprPass nested least left) := by
  refine .after fun _ => .after fun _ => .ite (.pure hleft) (.ite ?_ ?_)
  · apply Makes.bind_run (suffix_begins hleft)
    · exact fun expr hexpr => .pure hexpr
    · intro bad
      have hcover : Makes (·.first = left.first) (cover left.first bad) := fun _ _ => rfl
      exact .bind hcover fun _ hfirst => .pure (by rwa [Gathered, Expr.first, hfirst])
  · exact .bind (binary_begins hleft _) fun _ hexpr => .pure hexpr

omit hleft in
theorem exprInside_begins (least : Precedence) : Makes Begins (exprInside nested least) := by
  apply Makes.bind_run operand_begins
  · intro left hleft
    exact (Makes.repeatStep (fun _ hleft => exprPass_begins hleft least) hleft).weaken
      fun hfirst _ => hfirst
  · exact fun bad => .pure (begins_bad bad)

end FirstTokens

theorem nested_keepsReporting (levels : Nat) : (Grammar.nested levels).KeepsReporting := by
  induction levels with
  | zero =>
      constructor
      · exact fun _ _ _ _ => .look fun _ => recoverWith_keeps failTooDeep_keeps _ _ _
      · exact fun _ _ _ => .look fun _ => recoverWith_keeps failTooDeep_keeps _ _ _
      · exact fun _ _ _ => failTooDeep_keeps
      · exact fun _ => .after fun _ => .recoverWith .failTooDeep begins_bad _ _
  | succ levels ih =>
      constructor
      · exact fun _ _ _ least => .look fun _ =>
          recoverWith_keeps (descend_keeps (.lift (exprInside_keeps ih least))) _ _ _
      · exact fun _ _ _ => .look fun _ =>
          recoverWith_keeps (descend_keeps (stmtInside_keeps ih)) _ _ _
      · exact fun _ _ _ => descend_keeps (ifStmt_keeps ih)
      · exact fun least => .after fun _ =>
          .recoverWith (.descend (.lift (exprInside_begins least))) begins_bad _ _

/-- While the body of a loop is read, no statement is reported to be outside of every loop,
whatever was read and reported before it. -/
theorem loopBody_reports (levels : Nat) (start : State) :
    ∃ added, ((loopBody (Grammar.nested levels)).run.run start).2.diagnostics.toList =
        start.diagnostics.toList ++ added ∧
      ∀ diagnostic ∈ added, diagnostic.code ≠ .outsideLoop := by
  have hleaves (stop : State) (hstop : Reporting start.cursor.tokens (start.loopDepth + 1)
      start.diagnostics.toList stop) :
      ∃ added, stop.diagnostics.toList = start.diagnostics.toList ++ added ∧
        ∀ diagnostic ∈ added, diagnostic.code ≠ .outsideLoop := by
    obtain ⟨added, hadded, hinside⟩ := hstop.reports
    exact ⟨added, hadded, fun diagnostic hmem => (hinside diagnostic hmem).code_ne⟩
  have hbody : Yields (· = start) (loopBody (Grammar.nested levels))
      (fun _ stop => ∃ added, stop.diagnostics.toList = start.diagnostics.toList ++ added ∧
        ∀ diagnostic ∈ added, diagnostic.code ≠ .outsideLoop)
      (fun _ stop => ∃ added, stop.diagnostics.toList = start.diagnostics.toList ++ added ∧
        ∀ diagnostic ∈ added, diagnostic.code ≠ .outsideLoop) := by
    apply Yields.between (block_keeps (nested_keepsReporting levels))
    · rintro state rfl
      exact ⟨rfl, rfl, [], (List.append_nil _).symm, List.forall_mem_nil _⟩
    · exact fun _ => hleaves
    · exact fun _ => hleaves
  have hstop := hbody start rfl
  generalize (loopBody (Grammar.nested levels)).run.run start = result at hstop ⊢
  obtain ⟨outcome, stop⟩ := result
  cases outcome with
  | ok body => exact hstop
  | error bad => exact hstop

end OriSyntax.Grammar
