import OriSyntax.Proofs.Agreement
import OriSyntax.Proofs.Outcomes
import OriSyntax.Proofs.Termination

/-!
Single runs in which something fails: what is reported, which bad node is made, and where the
recovery leads.
-/

namespace OriSyntax

namespace Cursor

variable {cursor : Cursor} {token : Token} {rest : List Token}

/-- The cursor past a token that was not expected, or at it if recovery needs to see it. -/
def pastUnexpected (cursor : Cursor) : Cursor :=
  if cursor.kind.isClosing || cursor.kind.isKeyword || cursor.kind = .lbrace then cursor
  else cursor.next

theorem ahead_next_of_cons (hahead : cursor.ahead = token :: rest) : cursor.next.ahead = rest := by
  rw [ahead_next, hahead, List.tail_cons]

theorem current_of_cons (hahead : cursor.ahead = token :: rest) : cursor.current = token := by
  rw [current, hahead]
  rfl

theorem kind_ne_eof_of_cons (hahead : cursor.ahead = token :: rest) : cursor.kind ≠ .eof := by
  rw [ne_eq, kind_eq_eof_iff, hahead]
  exact List.cons_ne_nil token rest

theorem reads_next_of_cons (hahead : cursor.ahead = token :: rest) :
    cursor.Reads [token] cursor.next := by
  have hreads := reads_next (kind_ne_eof_of_cons hahead)
  rwa [current_of_cons hahead] at hreads

/-- Behind a token, whether the next one opens a line is told by the two. -/
theorem opensLine_next (hahead : cursor.ahead = token :: rest) :
    cursor.next.opensLine = decide (token.line < cursor.next.current.line) := by
  simp [opensLine, behind_next (kind_ne_eof_of_cons hahead), current_of_cons hahead]

/-- A skip that stops at the first token reads nothing. -/
theorem skip_of_stop {rule : Skip.Rule} (hrule : rule 0 cursor.opensLine cursor.kind = .stop) :
    cursor.skip rule = cursor := by
  unfold skip
  cases hahead : cursor.ahead with
  | nil => rfl
  | cons token rest =>
      rw [kind_of_ahead_eq_cons hahead] at hrule
      rw [skipAlong, hrule]

end Cursor

namespace Grammar

variable {α β : Type} {production : Production α} {start middle stop : State} {value : α}
  {bad : BadNode} {nested : Nested}

/-- The state with one more report. -/
def State.tell (state : State) (diagnostic : Diagnostic) : State :=
  { state with diagnostics := state.diagnostics.push diagnostic }

/-- From `start` the production fails with `bad` and leads to `stop`. -/
def Fails (production : Production α) (start : State) (bad : BadNode) (stop : State) : Prop :=
  Gives production.run start (.error bad) stop

namespace Fails

variable {next : α → Production β}

/-- What would follow a production that fails is left out. -/
theorem of_first (hproduction : Fails production start bad stop) :
    Fails (production >>= next) start bad stop := by
  rw [Fails, ExceptT.run_bind]
  exact Gives.bind hproduction (.pure _ _)

theorem of_next (hproduction : Succeeds production start value middle)
    (hnext : Fails (next value) middle bad stop) : Fails (production >>= next) start bad stop := by
  rw [Fails, ExceptT.run_bind]
  exact Gives.bind hproduction hnext

/-- Looking at the state gives what is seen and changes nothing. -/
theorem look {seen : State → α} (hseen : seen start = value)
    (hnext : Fails (next value) start bad stop) :
    Fails (liftM (do return seen (← get) : Step α) >>= next) start bad stop := by
  rw [← hseen] at hnext
  exact hnext

/-- One level deeper there is room for the production. -/
theorem descend {last : State} (hroom : start.nesting < maxNesting)
    (hproduction : Fails production start.deeper bad last.deeper) :
    Fails (descend production) start bad last := by
  rw [Fails, Gives, descend_of_room hroom, hproduction]
  rfl

end Fails

theorem skipUnexpected_gives (start : State) :
    Gives skipUnexpected start () (start.moveTo start.cursor.pastUnexpected) := by
  apply Gives.look rfl
  unfold Cursor.pastUnexpected
  split <;> rfl

/-- Another token than the expected one is reported. -/
theorem expectAs_fails (code : ErrorCode) {kind : Kind} (what : String)
    (hkind : start.cursor.kind ≠ kind) (hlegal : start.cursor.kind ≠ .illegal) :
    Fails (expectAs code kind what) start
      ⟨start.cursor.current, start.cursor.current, "expected " ++ what⟩
      ((start.tell (.expected code what start.cursor.current)).moveTo
        start.cursor.pastUnexpected) := by
  have hexpected : Succeeds (liftM (expectedHere code what)) start
      (.expected code what start.cursor.current) start := by
    have hlegal : start.cursor.current.kind ≠ .illegal := hlegal
    refine .lift (Gives.look rfl ?_)
    rw [if_neg hlegal]
    exact .pure _ _
  apply Fails.look rfl
  rw [if_neg hkind]
  refine .of_next hexpected (.of_next (.lift rfl) ?_)
  exact .of_next (.lift (skipUnexpected_gives _)) rfl

/-- Beyond the last level a production fails at the next token, which is not read. -/
theorem descend_fails_of_limit (hlimit : maxNesting ≤ start.nesting) :
    Fails (descend production) start
      ⟨start.cursor.current, start.cursor.current,
        (Diagnostic.nestingTooDeep maxNesting start.cursor.current).message⟩
      (start.tell (.nestingTooDeep maxNesting start.cursor.current)) := by
  rw [Fails, Gives, descend_of_limit hlimit]
  rfl

/-- A failure is recovered from behind what is skipped. -/
theorem Gives.recoverWith_of_fails (rule : Skip.Rule) (first : Token) (ofBad : BadNode → α)
    (hproduction : Fails production start bad stop) :
    Gives (Grammar.recoverWith rule first ofBad production) start
      (ofBad ⟨first, laterToken (laterToken bad.last (stop.cursor.skip rule).previous) first,
        bad.reason⟩)
      (stop.moveTo (stop.cursor.skip rule)) :=
  Gives.bind hproduction rfl

theorem Gives.run_bind {step : Step α} {value : α} (hstep : Gives step start value middle)
    (next : α → Step β) : (step >>= next).run start = (next value).run middle := by
  rw [StateT.run_bind, hstep]
  rfl

theorem Succeeds.run_bind {production : Production α} {value : α}
    (hproduction : Succeeds production start value middle) (next : α → Production β) :
    (production >>= next).run.run start = (next value).run.run middle := by
  rw [ExceptT.run_bind, StateT.run_bind, hproduction]
  rfl

theorem succeeds_attempt {production : Production α} {outcome : Except BadNode α}
    (hproduction : Gives production.run start outcome middle) :
    Succeeds (attempt production) start outcome middle :=
  .lift hproduction

section Congruence

variable {production' : Production α} {step step' : Step α} {start' : State}

/-- What follows two productions that run in the same way does so, too. -/
theorem run_bind_congr (hruns : production.run.run start = production'.run.run start')
    (next : α → Production β) :
    (production >>= next).run.run start = (production' >>= next).run.run start' := by
  rw [ExceptT.run_bind, ExceptT.run_bind, StateT.run_bind, StateT.run_bind, hruns]

theorem onFailure_run_congr (repair : BadNode → Step BadNode)
    (hruns : production.run.run start = production'.run.run start') :
    (onFailure production repair).run.run start =
      (onFailure production' repair).run.run start' := by
  change (StateT.run (production.run >>= _) start) = StateT.run (production'.run >>= _) start'
  rw [StateT.run_bind, StateT.run_bind, hruns]

theorem recoverWith_run_congr (rule : Skip.Rule) (first : Token) (ofBad : BadNode → α)
    (hruns : production.run.run start = production'.run.run start') :
    (recoverWith rule first ofBad production).run start =
      (recoverWith rule first ofBad production').run start' := by
  rw [recoverWith, recoverWith, StateT.run_bind, StateT.run_bind, hruns]

theorem lift_run_congr (hruns : step.run start = step'.run start') :
    (liftM step : Production α).run.run start = (liftM step' : Production α).run.run start' := by
  change (Except.ok (step.run start).1, (step.run start).2) = _
  rw [hruns]
  rfl

end Congruence

/-- A loop goes on from behind a pass that is not the last one. -/
theorem repeatStep_run_of_round {pass : β → Step (ForInStep β)} (hgains : Gains pass)
    {found next : β} (hround : Round pass (found, start) (next, middle)) :
    (repeatStep pass found).run start = (repeatStep pass next).run middle := by
  obtain ⟨last, result, stop, hrounds, hdone⟩ := exists_last_pass hgains next middle
  have hnext : Gives (repeatStep pass next) middle result stop := hdone.repeatStep hgains hrounds
  have hfirst : Gives (repeatStep pass found) start result stop :=
    hdone.repeatStep hgains (.head hround hrounds)
  exact hfirst.trans hnext.symm

theorem repeatStep_run_of_rounds {pass : β → Step (ForInStep β)} (hgains : Gains pass)
    {found next : β}
    (hrounds : Relation.ReflTransGen (Round pass) (found, start) (next, middle)) :
    (repeatStep pass found).run start = (repeatStep pass next).run middle := by
  generalize hhere : (found, start) = here at hrounds
  induction hrounds using Relation.ReflTransGen.head_induction_on generalizing found start with
  | refl =>
      cases hhere
      rfl
  | @head first second hround _ ih =>
      subst hhere
      exact (repeatStep_run_of_round hgains hround).trans (ih rfl)

/-- A statement that reads something is found by a pass over a sequence. -/
theorem stmtPass_round {stops : Kind → Bool} {stmt : Stmt} {run : List Token}
    (heof : start.cursor.kind ≠ .eof) (hstops : stops start.cursor.kind = false)
    (hsemicolon : start.cursor.kind ≠ .semicolon) (hstmt : Gives nested.stmt start stmt stop)
    (hreads : start.cursor.Reads run stop.cursor) (hrun : run ≠ []) (found : List Stmt) :
    Round (stmtPass nested stops) (found, start) (stmt :: found, stop) := by
  have hmoved : stop.cursor.position ≠ start.cursor.position := by
    have hposition := hreads.position
    have hlength := List.length_pos_iff.2 hrun
    omega
  have hstep : Gives (steppingStmt nested) start stmt stop := by
    apply Gives.look rfl
    apply Gives.bind hstmt
    apply Gives.look rfl
    apply Gives.of_neg hmoved
    exact .pure _ _
  apply Gives.look rfl
  apply Gives.of_neg (by simp [heof, hstops])
  apply Gives.of_neg hsemicolon
  exact .bind hstep (.pure _ _)

end Grammar

end OriSyntax
