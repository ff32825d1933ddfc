import OriSyntax.Proofs.Covering

/-!
What a production accounts for.  The value of a production has pieces that cover what
was read, and every bad node among them has a diagnostic of its own.  A production that
fails has reported why, and closed the braces that it opened.
-/

namespace OriSyntax.Grammar

variable {α β : Type}

/-- The token stands on a later line than the one before it. -/
def BeginsLine (tokens : List Token) (token : Token) : Prop :=
  ∃ before previous after, tokens = before ++ previous :: token :: after ∧
    previous.line < token.line

/-- The diagnostic tells that an opening brace was given up without its body: it stands
where a clause should, or it opens a line at which too much is nested. -/
def GivesUpBrace (tokens : List Token) (diagnostic : Diagnostic) : Prop :=
  diagnostic.got.kind = .lbrace ∧
    (diagnostic.message = "expected 'case' or 'default'" ∨
      diagnostic.code = .nestingTooDeep ∧ BeginsLine tokens diagnostic.got)

namespace State

/-- Tokens stand in order, and no comparison was found to be chained. -/
structure Ordered (state : State) : Prop where
  cursor : state.cursor.Ordered
  unchained : ∀ diagnostic ∈ state.diagnostics.toList,
    diagnostic.code ≠ .chainedComparison

/-- Delimiters are closed in the right order, and no brace was given up alone. -/
structure Calm (state : State) : Prop where
  nests : (openAfter [] state.cursor.tokens).isSome
  keeps : ∀ diagnostic ∈ state.diagnostics.toList,
    ¬ GivesUpBrace state.cursor.tokens diagnostic

/-- `stop` is reached from `start` by reading and reporting. -/
structure Reaches (start stop : State) : Prop where
  reads : ∃ run, start.cursor.Reads run stop.cursor
  reports : start.diagnostics.toList <+: stop.diagnostics.toList

namespace Reaches

variable {start middle stop : State}

theorem refl (start : State) : start.Reaches start :=
  ⟨⟨[], .refl _⟩, List.prefix_rfl⟩

theorem trans (hfirst : start.Reaches middle) (hsecond : middle.Reaches stop) :
    start.Reaches stop := by
  obtain ⟨run, hrun⟩ := hfirst.reads
  obtain ⟨rest, hrest⟩ := hsecond.reads
  exact ⟨⟨run ++ rest, hrun.trans hrest⟩, hfirst.reports.trans hsecond.reports⟩

theorem tokens (hreaches : start.Reaches stop) : stop.cursor.tokens = start.cursor.tokens := by
  obtain ⟨run, hrun⟩ := hreaches.reads
  exact hrun.tokens

theorem ordered_iff (hreaches : start.Reaches stop) :
    start.cursor.Ordered ↔ stop.cursor.Ordered := by
  rw [Cursor.Ordered, Cursor.Ordered, hreaches.tokens]

theorem current_le (hreaches : start.Reaches stop) (hordered : stop.cursor.Ordered) :
    start.cursor.current.position ≤ stop.cursor.current.position := by
  obtain ⟨run, hrun⟩ := hreaches.reads
  exact hrun.current_le (hreaches.ordered_iff.2 hordered)

theorem ordered (hreaches : start.Reaches stop) (hstop : stop.Ordered) : start.Ordered where
  cursor := hreaches.ordered_iff.2 hstop.cursor
  unchained diagnostic hdiagnostic :=
    hstop.unchained diagnostic (hreaches.reports.subset hdiagnostic)

theorem calm (hreaches : start.Reaches stop) (hstop : stop.Calm) : start.Calm where
  nests := hreaches.tokens ▸ hstop.nests
  keeps diagnostic hdiagnostic :=
    hreaches.tokens ▸ hstop.keeps diagnostic (hreaches.reports.subset hdiagnostic)

end Reaches

theorem Follows.reaches {start stop : State} (hfollows : start.Follows stop) :
    start.Reaches stop :=
  ⟨hfollows.reads, hfollows.reports⟩

/-- The delimiters ahead are matched on some stack. -/
theorem Calm.exists_stack {state : State} (hcalm : state.Calm) :
    ∃ stack, (openAfter stack state.cursor.ahead).isSome :=
  Cursor.exists_stack hcalm.nests

/-- `stop` is reached from `start` within one body: braces opened on the way are closed,
unless the end of the file was reached. -/
structure SameBody (start stop : State) : Prop where
  reads : ∃ run, start.cursor.Reads run stop.cursor ∧
    (stop.Calm → stop.cursor.kind ≠ .eof → Brace.Level (braces run))
  reports : start.diagnostics.toList <+: stop.diagnostics.toList

namespace SameBody

variable {start middle stop : State}

theorem reaches (hbody : start.SameBody stop) : start.Reaches stop := by
  obtain ⟨run, hrun, -⟩ := hbody.reads
  exact ⟨⟨run, hrun⟩, hbody.reports⟩

theorem refl (start : State) : start.SameBody start :=
  ⟨⟨[], .refl _, fun _ _ => .nil⟩, List.prefix_rfl⟩

theorem trans (hfirst : start.SameBody middle) (hsecond : middle.SameBody stop) :
    start.SameBody stop := by
  obtain ⟨run, hrun, hlevel⟩ := hfirst.reads
  obtain ⟨rest, hrest, hrestLevel⟩ := hsecond.reads
  refine ⟨⟨run ++ rest, hrun.trans hrest, fun hcalm hend => ?_⟩,
    hfirst.reports.trans hsecond.reports⟩
  rw [braces_append]
  apply Brace.Level.append
  · exact hlevel (hsecond.reaches.calm hcalm) (hrest.kind_ne_eof hend)
  · exact hrestLevel hcalm hend

/-- At the end of the file every body is over. -/
theorem of_eof (hreaches : start.Reaches stop) (hend : stop.cursor.kind = .eof) :
    start.SameBody stop := by
  obtain ⟨run, hrun⟩ := hreaches.reads
  exact ⟨⟨run, hrun, fun _ hkind => absurd hend hkind⟩, hreaches.reports⟩

end SameBody

/-- Since `start` something was reported with this message. -/
def Tells (start : State) (message : String) (stop : State) : Prop :=
  ∃ reported, stop.diagnostics.toList = start.diagnostics.toList ++ reported ∧
    message ∈ reported.map Diagnostic.message

theorem Tells.before {start middle stop : State} {message : String}
    (htells : middle.Tells message stop) (hreaches : start.Reaches middle) :
    start.Tells message stop := by
  obtain ⟨reported, hstop, hmessage⟩ := htells
  obtain ⟨earlier, hearlier⟩ := hreaches.reports
  refine ⟨earlier ++ reported, ?_, ?_⟩
  · rw [hstop, ← hearlier, List.append_assoc]
  · rw [List.map_append]
    exact List.mem_append_right _ hmessage

theorem Tells.after {start middle stop : State} {message : String}
    (htells : start.Tells message middle) (hreaches : middle.Reaches stop) :
    start.Tells message stop := by
  obtain ⟨reported, hmiddle, hmessage⟩ := htells
  obtain ⟨later, hlater⟩ := hreaches.reports
  refine ⟨reported ++ later, ?_, ?_⟩
  · rw [← hlater, hmiddle, List.append_assoc]
  · rw [List.map_append]
    exact List.mem_append_left _ hmessage

end State

/-- Each bad node among the pieces has a diagnostic of its own since `start`, and if
there is none, nothing was reported. -/
def Explained (start : State) (pieces : List Piece) (stop : State) : Prop :=
  ∃ reported, stop.diagnostics.toList = start.diagnostics.toList ++ reported ∧
    ((badNodesOf pieces).map BadNode.reason).Sublist (reported.map Diagnostic.message) ∧
    (badNodesOf pieces = [] → reported = [])

/-- The pieces account for what was read and reported between two states. -/
structure Accounted (start : State) (pieces : List Piece) (stop : State) : Prop where
  covers : Covers stop.Ordered stop.Calm start.cursor pieces stop.cursor
  explained : Explained start pieces stop

/-- The pieces account for what was read, and close their braces. -/
structure Settled (start : State) (pieces : List Piece) (stop : State) : Prop where
  accounted : Accounted start pieces stop
  closed : Closed pieces

/-- A production that failed has told why, left the body in which it began as it was, and
looked no further than the next token. -/
structure Failed (start : State) (bad : BadNode) (stop : State) : Prop where
  sameBody : start.SameBody stop
  tells : start.Tells bad.reason stop
  last : stop.cursor.Ordered → bad.last.position ≤ stop.cursor.current.position

variable {start middle stop : State} {pieces rest : List Piece} {bad : BadNode}

theorem Explained.trans (hfirst : Explained start pieces middle)
    (hsecond : Explained middle rest stop) : Explained start (pieces ++ rest) stop := by
  obtain ⟨reported, hmiddle, hreasons, hnone⟩ := hfirst
  obtain ⟨later, hstop, hlater, hnoneLater⟩ := hsecond
  refine ⟨reported ++ later, ?_, ?_, fun hbad => ?_⟩
  · rw [hstop, hmiddle, List.append_assoc]
  · rw [badNodesOf_append, List.map_append, List.map_append]
    exact hreasons.append hlater
  · rw [badNodesOf_append] at hbad
    obtain ⟨hbadFirst, hbadSecond⟩ := List.append_eq_nil_iff.1 hbad
    rw [hnone hbadFirst, hnoneLater hbadSecond, List.append_nil]

/-- A bad node stands for all that was reported with its own reason. -/
theorem State.Tells.explained (htells : start.Tells bad.reason stop) :
    Explained start [.bad bad] stop := by
  obtain ⟨reported, hstop, hreason⟩ := htells
  refine ⟨reported, hstop, ?_, nofun⟩
  exact List.singleton_sublist.2 hreason

namespace Accounted

theorem refl (start : State) : Accounted start [] start where
  covers := .nil _
  explained := ⟨[], (List.append_nil _).symm, List.Sublist.refl _, fun _ => rfl⟩

theorem reaches (haccounted : Accounted start pieces stop) : start.Reaches stop := by
  obtain ⟨reported, hstop, -, -⟩ := haccounted.explained
  exact ⟨haccounted.covers.exists_reads, ⟨reported, hstop.symm⟩⟩

theorem trans (hfirst : Accounted start pieces middle)
    (hsecond : Accounted middle rest stop) : Accounted start (pieces ++ rest) stop where
  covers := by
    have hreaches := hsecond.reaches
    exact (hfirst.covers.mono hreaches.ordered hreaches.calm).trans hsecond.covers
  explained := hfirst.explained.trans hsecond.explained

/-- Reading a token that a piece stores. -/
theorem next {piece : Piece} (haccounted : Accounted start pieces stop)
    (hstores : piece.Stores stop.cursor.current) :
    Accounted start (pieces ++ [piece]) { stop with cursor := stop.cursor.next } := by
  refine haccounted.trans ⟨.stored hstores (.nil _), [], (List.append_nil _).symm, ?_, ?_⟩
  · rw [hstores.badNodesOf_cons]
    exact List.Sublist.refl _
  · exact fun _ => rfl

/-- Reading a separator. -/
theorem nextSeparator (haccounted : Accounted start pieces stop)
    (hkind : stop.cursor.kind.isSeparator) :
    Accounted start pieces { stop with cursor := stop.cursor.next } := by
  have hnext : Accounted stop [] { stop with cursor := stop.cursor.next } :=
    ⟨.separator hkind (.nil _), [], (List.append_nil _).symm, List.Sublist.refl _,
      fun _ => rfl⟩
  simpa using haccounted.trans hnext

end Accounted

/-- The last token of the pieces was read already, or is the next one. -/
theorem Accounted.last_le (haccounted : Accounted start pieces stop) {last : Token}
    (hlast : lastTokenOf pieces = some last) (hordered : stop.cursor.Ordered) :
    last.position ≤ stop.cursor.current.position := by
  have hstart := haccounted.reaches.ordered_iff.2 hordered
  exact (haccounted.covers.inOrder hstart).lastTokenOf_le hlast

/-- So was every token that a piece stores. -/
theorem Accounted.token_le (haccounted : Accounted start pieces stop) {token : Token}
    (htoken : .token token ∈ pieces ∨ .opens token ∈ pieces) (hordered : stop.cursor.Ordered) :
    token.position ≤ stop.cursor.current.position := by
  have hstart := haccounted.reaches.ordered_iff.2 hordered
  rcases htoken with htoken | htoken
  · exact (haccounted.covers.inOrder hstart).last_le htoken
  · exact (haccounted.covers.inOrder hstart).last_le htoken

theorem Accounted.sameBody (haccounted : Accounted start pieces stop)
    (hclosed : Closed pieces) : start.SameBody stop := by
  obtain ⟨run, hrun⟩ := haccounted.covers.exists_reads
  refine ⟨⟨run, hrun, fun hcalm hend => ?_⟩, haccounted.reaches.reports⟩
  obtain ⟨run', hrun', hdepth⟩ := haccounted.covers.depthAfter_eq hcalm hend
  rw [Brace.Level, hrun.unique hrun', hdepth]
  exact hclosed

namespace Settled

theorem refl (start : State) : Settled start [] start := ⟨.refl start, closed_nil⟩

theorem sameBody (hsettled : Settled start pieces stop) : start.SameBody stop :=
  hsettled.accounted.sameBody hsettled.closed

theorem trans (hfirst : Settled start pieces middle) (hsecond : Settled middle rest stop) :
    Settled start (pieces ++ rest) stop :=
  ⟨hfirst.accounted.trans hsecond.accounted, hfirst.closed.append hsecond.closed⟩

end Settled

namespace Failed

theorem before (hfailed : Failed middle bad stop) (hbody : start.SameBody middle) :
    Failed start bad stop :=
  ⟨hbody.trans hfailed.sameBody, hfailed.tells.before hbody.reaches, hfailed.last⟩

theorem after (hfailed : Failed start bad middle) (hbody : middle.SameBody stop) :
    Failed start bad stop where
  sameBody := hfailed.sameBody.trans hbody
  tells := hfailed.tells.after hbody.reaches
  last hordered := Position.le_trans (hfailed.last (hbody.reaches.ordered_iff.2 hordered))
    (hbody.reaches.current_le hordered)

end Failed

theorem le_laterToken_left (first second : Token) :
    first.position ≤ (laterToken first second).position := by
  unfold laterToken
  split
  · next hlt => exact Position.le_of_lt hlt
  · exact Position.le_refl _

theorem le_laterToken_right (first second : Token) :
    second.position ≤ (laterToken first second).position := by
  unfold laterToken
  split
  · exact Position.le_refl _
  · next hlt => exact Position.not_lt.1 hlt

/-- A bad node that was stretched from `first` on hides all that was read since. -/
theorem hides_of_cover {first last : Token} {reason : String}
    (hordered : stop.cursor.Ordered)
    (hfirst : ∀ token ∈ start.cursor.ahead, token.kind.isSeparator = false →
      first.position ≤ token.position)
    (hhere : stop.cursor = start.cursor → start.cursor.current.position ≤ first.position) :
    Hides start.cursor stop.cursor
      ⟨first, laterToken (laterToken last stop.cursor.previous) first, reason⟩ where
  first := hfirst
  last token htoken _ := by
    apply Position.le_trans (Cursor.le_previous_of_mem_behind hordered htoken)
    exact Position.le_trans (le_laterToken_right _ _) (le_laterToken_left _ _)
  here hstay := Position.le_trans (hhere hstay) (le_laterToken_right _ _)

/-- A bad node at the token where a production stands, if no other token was read. -/
theorem hides_here {reason : String} (hordered : start.cursor.Ordered)
    (hstop : stop.cursor = start.cursor ∨ stop.cursor = start.cursor.next) :
    Hides start.cursor stop.cursor
      ⟨start.cursor.current, start.cursor.current, reason⟩ where
  first token htoken _ := Cursor.current_le_of_mem_ahead hordered htoken
  last token htoken _ := by
    by_cases hkind : start.cursor.kind = .eof
    · rw [Cursor.next_of_ahead_eq_nil (Cursor.kind_eq_eof_iff.1 hkind), or_self] at hstop
      rw [hstop] at htoken
      exact Cursor.le_current_of_mem_behind hordered htoken
    · rcases hstop with hstop | hstop
      · rw [hstop] at htoken
        exact Cursor.le_current_of_mem_behind hordered htoken
      · rw [hstop, Cursor.behind_next hkind] at htoken
        rcases List.mem_cons.1 htoken with rfl | htoken
        · exact Position.le_refl _
        · exact Cursor.le_current_of_mem_behind hordered htoken
  here _ := Position.le_refl _

theorem laterToken_le {first second : Token} {bound : Position}
    (hfirst : first.position ≤ bound) (hsecond : second.position ≤ bound) :
    (laterToken first second).position ≤ bound := by
  unfold laterToken
  split
  · exact hsecond
  · exact hfirst

/-- A bad node that was stretched from `first` on ends no later than the next token. -/
theorem within_of_cover {first : Token} (hlast : bad.last.position ≤ stop.cursor.current.position)
    (hordered : stop.cursor.Ordered)
    (hstart : start.cursor.current.position ≤ first.position)
    (hfirst : first.position ≤ stop.cursor.current.position) :
    Within start.cursor stop.cursor
      ⟨first, laterToken (laterToken bad.last stop.cursor.previous) first, bad.reason⟩ where
  first := hstart
  span := le_laterToken_right _ _
  last := laterToken_le (laterToken_le hlast (Cursor.previous_le_current hordered)) hfirst

theorem within_here {reason : String} (hreaches : start.Reaches stop)
    (hordered : start.cursor.Ordered) :
    Within start.cursor stop.cursor
      ⟨start.cursor.current, start.cursor.current, reason⟩ where
  first := Position.le_refl _
  span := Position.le_refl _
  last := hreaches.current_le (hreaches.ordered_iff.1 hordered)

theorem Failed.accounted {node : BadNode} (hfailed : Failed start bad stop)
    (hreason : node.reason = bad.reason)
    (hhides : stop.Ordered → Hides start.cursor stop.cursor node)
    (hwithin : start.cursor.Ordered → Within start.cursor stop.cursor node) :
    Accounted start [.bad node] stop := by
  obtain ⟨run, hrun, hlevel⟩ := hfailed.sameBody.reads
  refine ⟨.bad hrun hhides hwithin hlevel (.nil _), ?_⟩
  apply State.Tells.explained
  rw [hreason]
  exact hfailed.tells

/-- A bad node is a failure that is accounted for. -/
theorem Accounted.failed (haccounted : Accounted start [.bad bad] stop) :
    Failed start bad stop where
  sameBody := haccounted.sameBody closed_nil
  tells := by
    obtain ⟨reported, hstop, hreasons, -⟩ := haccounted.explained
    exact ⟨reported, hstop, List.singleton_sublist.1 hreasons⟩
  last := haccounted.last_le rfl

/-- Reporting a diagnostic about tokens up to the next one. -/
theorem Failed.report (state : State) (diagnostic : Diagnostic) (first : Token) {last : Token}
    (hlast : state.cursor.Ordered → last.position ≤ state.cursor.current.position) :
    Failed state ⟨first, last, diagnostic.message⟩
      { state with diagnostics := state.diagnostics.push diagnostic } where
  sameBody := ⟨⟨[], .refl _, fun _ _ => .nil⟩, ⟨[diagnostic], (Array.toList_push ..).symm⟩⟩
  tells := ⟨[diagnostic], Array.toList_push .., List.mem_singleton_self _⟩
  last := hlast

/-- Reporting a diagnostic about the next token. -/
theorem Failed.reportHere (state : State) (diagnostic : Diagnostic) :
    Failed state ⟨state.cursor.current, state.cursor.current, diagnostic.message⟩
      { state with diagnostics := state.diagnostics.push diagnostic } :=
  .report state diagnostic _ fun _ => Position.le_refl _

/-- What is accounted for may be given up for a bad node over all of it. -/
theorem Settled.replaced {first last : Token} (hsettled : Settled start pieces stop)
    (hfirst : firstTokenOf pieces = some first) (hlast : lastTokenOf pieces = some last)
    (diagnostic : Diagnostic) :
    Accounted start [.bad ⟨first, last, diagnostic.message⟩]
      { stop with diagnostics := stop.diagnostics.push diagnostic } := by
  have hreport := Failed.report stop diagnostic first (hsettled.accounted.last_le hlast)
  refine (hreport.before hsettled.sameBody).accounted rfl (fun hordered => ?_) fun hstart => ?_
  · have hstop := hreport.sameBody.reaches.ordered hordered
    have hstart := hsettled.accounted.reaches.ordered hstop
    exact hsettled.accounted.covers.hides hstop hstart.cursor _ hfirst hlast
  · exact hsettled.accounted.covers.within hstart _ hfirst hlast

/-- The same, from the first token on. -/
theorem Settled.replaced_here {last : Token} (hsettled : Settled start pieces stop)
    (hlast : lastTokenOf pieces = some last) (diagnostic : Diagnostic) :
    Accounted start [.bad ⟨start.cursor.current, last, diagnostic.message⟩]
      { stop with diagnostics := stop.diagnostics.push diagnostic } := by
  have hreport := Failed.report stop diagnostic start.cursor.current
    (hsettled.accounted.last_le hlast)
  refine (hreport.before hsettled.sameBody).accounted rfl (fun hordered => ?_) fun hstart => ?_
  · have hstop := hreport.sameBody.reaches.ordered hordered
    have hstart := hsettled.accounted.reaches.ordered hstop
    refine ⟨fun token htoken _ => Cursor.current_le_of_mem_ahead hstart.cursor htoken, ?_, ?_⟩
    · exact hsettled.accounted.covers.le_last hstop hstart.cursor hlast
    · exact hsettled.accounted.covers.here_le_last hstop hlast
  · have hpieces := hsettled.accounted.covers.inOrder hstart
    exact ⟨Position.le_refl _, hpieces.le_lastTokenOf hlast, hpieces.lastTokenOf_le hlast⟩

/-- A bad node behind other pieces may be handed on instead of them. -/
theorem Settled.failed (hsettled : Settled start (pieces ++ [.bad bad]) stop) :
    Failed start bad stop where
  sameBody := hsettled.sameBody
  tells := by
    obtain ⟨reported, hstop, hreasons, -⟩ := hsettled.accounted.explained
    refine ⟨reported, hstop, hreasons.subset ?_⟩
    rw [badNodesOf_append, List.map_append]
    exact List.mem_append_right _ List.mem_cons_self
  last := hsettled.accounted.last_le (by simp [Piece.last])

/-- Where `here` holds, the pieces of the outcome account for what the step reads. -/
structure Accounts (here : Cursor → Prop) (step : Step α) (pieces : α → List Piece) :
    Prop where
  closed : ∀ value, Closed (pieces value)
  keeps : ∀ start before, Meets
    (fun state => Accounted start before state ∧ here state.cursor) step
    fun value => Accounted start (before ++ pieces value)

/-- Where `here` holds, the pieces of the outcome account for what the production reads
if it succeeds, and it has told why if it fails. -/
def AccountsOrFails (here : Cursor → Prop) (production : Production α)
    (pieces : α → List Piece) : Prop :=
  ∀ start before, Yields (fun state => Settled start before state ∧ here state.cursor)
    production (fun value => Settled start (before ++ pieces value)) (Failed start)

/-- No matter where. -/
def anywhere : Cursor → Prop := fun _ => True

section Contracts

variable {here : Cursor → Prop} {step : Step α} {production : Production α}
  {valuePieces : α → List Piece}

/-- It is enough to account for what is read since the step began. -/
theorem Accounts.of_start (hclosed : ∀ value, Closed (valuePieces value))
    (hstep : ∀ start : State, here start.cursor → Meets (· = start) step fun value =>
      Accounted start (valuePieces value)) : Accounts here step valuePieces where
  closed := hclosed
  keeps start before := by
    intro state hstate
    rcases hstate with ⟨hbefore, hhere⟩
    exact hbefore.trans (hstep state hhere state rfl)

theorem AccountsOrFails.of_start (hproduction : ∀ start : State, here start.cursor →
      Yields (· = start) production (fun value => Settled start (valuePieces value))
        (Failed start)) : AccountsOrFails here production valuePieces := by
  intro start before
  apply Yields.of_each
  intro state hstate
  obtain ⟨hbefore, hhere⟩ := hstate
  refine (hproduction state hhere).weaken (fun value stop hvalue => ?_)
    fun bad stop hfailed => ?_
  · exact hbefore.trans hvalue
  · exact hfailed.before hbefore.sameBody

theorem AccountsOrFails.of_anywhere (hproduction : ∀ start before,
      Yields (Settled start before) production
        (fun value => Settled start (before ++ valuePieces value)) (Failed start)) :
    AccountsOrFails anywhere production valuePieces :=
  fun start before => (hproduction start before).strengthen fun _ hstate => hstate.1

/-- The contract where something is known of the place. -/
theorem Accounts.meets_at (hstep : Accounts here step valuePieces) {known : State → Prop}
    (hknown : ∀ state, known state → here state.cursor) :
    Meets (fun state => Accounted start pieces state ∧ known state) step
      fun value => Accounted start (pieces ++ valuePieces value) :=
  (hstep.keeps start pieces).strengthen fun state hstate =>
    ⟨hstate.1, hknown state hstate.2⟩

theorem Accounts.meets (hstep : Accounts anywhere step valuePieces) :
    Meets (Accounted start pieces) step
      fun value => Accounted start (pieces ++ valuePieces value) :=
  (hstep.keeps start pieces).strengthen fun _ hstate => ⟨hstate, trivial⟩

/-- The contract where something is known of the place. -/
theorem AccountsOrFails.yields_at (hproduction : AccountsOrFails here production valuePieces)
    {known : State → Prop} (hknown : ∀ state, known state → here state.cursor) :
    Yields (fun state => Settled start pieces state ∧ known state) production
      (fun value => Settled start (pieces ++ valuePieces value)) (Failed start) :=
  (hproduction start pieces).strengthen fun state hstate =>
    ⟨hstate.1, hknown state hstate.2⟩

theorem AccountsOrFails.yields (hproduction : AccountsOrFails anywhere production valuePieces) :
    Yields (Settled start pieces) production
      (fun value => Settled start (pieces ++ valuePieces value)) (Failed start) :=
  (hproduction start pieces).strengthen fun _ hstate => ⟨hstate, trivial⟩

/-- A step opens no brace that it does not close. -/
theorem Accounts.settles_at (hstep : Accounts here step valuePieces) {known : State → Prop}
    (hknown : ∀ state, known state → here state.cursor) :
    Meets (fun state => Settled start pieces state ∧ known state) step
      fun value => Settled start (pieces ++ valuePieces value) := by
  intro state hstate
  rcases hstate with ⟨hstate, hplace⟩
  refine ⟨hstep.keeps start pieces state ⟨hstate.accounted, hknown state hplace⟩, ?_⟩
  exact hstate.closed.append (hstep.closed _)

theorem Accounts.settles (hstep : Accounts anywhere step valuePieces) :
    Meets (Settled start pieces) step
      fun value => Settled start (pieces ++ valuePieces value) := by
  intro state hstate
  refine ⟨hstep.keeps start pieces state ⟨hstate.accounted, trivial⟩, ?_⟩
  exact hstate.closed.append (hstep.closed _)

theorem Accounts.lift (hstep : Accounts here step valuePieces) :
    AccountsOrFails here (liftM step : Production α) valuePieces :=
  fun _ _ => .lift (hstep.settles_at fun _ hhere => hhere)

end Contracts

theorem advance_accounts :
    Accounts (fun cursor => cursor.kind.isStored) advance fun token => [.token token] where
  closed _ := closed_nil.token _
  keeps start before := by
    intro state hstate
    rcases hstate with ⟨hbefore, hkind⟩
    exact hbefore.next ⟨rfl, hkind⟩

theorem advance_accounts_separator :
    Accounts (fun cursor => cursor.kind.isSeparator) advance fun _ => [] where
  closed _ := closed_nil
  keeps start before := by
    intro state hstate
    rcases hstate with ⟨hbefore, hkind⟩
    rw [List.append_nil]
    exact hbefore.nextSeparator hkind

/-- The first token that is read. -/
theorem advance_meets_first (start : State) (hkind : start.cursor.kind.isStored) :
    Meets (· = start) advance fun token state =>
      Settled start [.token token] state ∧ token = start.cursor.current := by
  intro state hstate
  rcases hstate with rfl
  refine ⟨⟨?_, closed_nil.token _⟩, rfl⟩
  exact (Accounted.refl _).next ⟨rfl, hkind⟩

theorem accept?_accounts {kind : Kind} (hkind : kind.isStored) :
    Accounts anywhere (accept? kind) (piecesOf? fun token => [.token token]) where
  closed token := by cases token <;> exact closed_nil
  keeps start before := by
    refine .bind currentKind_meets fun found => ?_
    split
    · next hfound =>
        refine .bind (Meets.strengthen (advance_accounts.keeps start before) ?_) fun token =>
          .pure fun _ hstate => hstate
        intro state hstate
        rcases hstate with ⟨⟨hbefore, -⟩, rfl⟩
        exact ⟨hbefore, hfound ▸ hkind⟩
    · apply Meets.pure
      intro state hstate
      rw [piecesOf?, List.append_nil]
      exact hstate.1.1

theorem accept?_accounts_separator {kind : Kind} (hkind : kind.isSeparator) :
    Accounts anywhere (accept? kind) fun _ => [] where
  closed _ := closed_nil
  keeps start before := by
    refine .bind currentKind_meets fun found => ?_
    split
    · next hfound =>
        refine .bind (Meets.strengthen (advance_accounts_separator.keeps start before) ?_)
          fun token => .pure fun _ hstate => hstate
        intro state hstate
        rcases hstate with ⟨⟨hbefore, -⟩, rfl⟩
        exact ⟨hbefore, hfound ▸ hkind⟩
    · apply Meets.pure
      intro state hstate
      rw [List.append_nil]
      exact hstate.1.1

section Reporting

variable {pre : State → Prop} {succeeded : α → State → Prop}

theorem fail_yields (diagnostic : Diagnostic) (first last : Token)
    (hpre : ∀ state, pre state → start.SameBody state)
    (hlast : ∀ state, pre state → state.cursor.Ordered →
      last.position ≤ state.cursor.current.position) :
    Yields pre (fail diagnostic first last) succeeded (Failed start) :=
  fun state hstate =>
    (Failed.report state diagnostic first (hlast state hstate)).before (hpre state hstate)

/-- A failure at the next token, whatever it began with. -/
theorem failUpTo_yields (diagnostic : Diagnostic) (first : Token) {last : Token}
    (hpre : ∀ state, pre state → start.SameBody state) :
    Yields (fun state => pre state ∧ last = state.cursor.current) (fail diagnostic first last)
      succeeded (Failed start) := by
  apply fail_yields diagnostic first last (fun state hstate => hpre state hstate.1)
  intro state hstate _
  exact hstate.2 ▸ Position.le_refl _

theorem failHere_yields (diagnostic : Diagnostic)
    (hpre : ∀ state, pre state → start.SameBody state) :
    Yields pre (failHere diagnostic) succeeded (Failed start) :=
  fun state hstate => (Failed.reportHere state diagnostic).before (hpre state hstate)

theorem failExpected_yields (code : ErrorCode) (what : String)
    (hpre : ∀ state, pre state → start.SameBody state) :
    Yields pre (do failHere (← expectedHere code what)) succeeded (Failed start) :=
  .bind (.lift (expectedHere_meets code what)) fun diagnostic =>
    failHere_yields diagnostic fun state hstate => hpre state hstate.1

theorem failTooDeep_yields (hpre : ∀ state, pre state → start.SameBody state) :
    Yields pre failTooDeep succeeded (Failed start) :=
  .bind (.lift current_meets) fun _ =>
    failHere_yields _ fun state hstate => hpre state hstate.1

/-- A token that is no brace may be stepped over. -/
theorem State.SameBody.next {state : State} (hkind : state.cursor.kind.brace = .other) :
    state.SameBody { state with cursor := state.cursor.next } := by
  refine ⟨?_, List.prefix_rfl⟩
  by_cases heof : state.cursor.kind = .eof
  · have hstay := Cursor.next_of_ahead_eq_nil (Cursor.kind_eq_eof_iff.1 heof)
    refine ⟨[], ?_, fun _ _ => .nil⟩
    rw [hstay]
    exact .refl _
  · refine ⟨_, Cursor.reads_next heof, fun _ _ => ?_⟩
    have hother : state.cursor.current.kind.brace = .other := hkind
    rw [braces_cons, hother]
    exact .other_cons .nil

theorem reportHere_meets (start : State) (diagnostic : Diagnostic) :
    Meets (· = start) (reportHere diagnostic) fun bad state =>
      bad = ⟨start.cursor.current, start.cursor.current, diagnostic.message⟩ ∧
        state = { start with diagnostics := start.diagnostics.push diagnostic } := by
  intro state hstate
  rcases hstate with rfl
  exact ⟨rfl, rfl⟩

/-- What stands behind a report at a token that was perhaps stepped over. -/
theorem stepOverUnless_meets {needed : Kind → Bool} (hopening : needed .lbrace)
    (hclosing : needed .rbrace) (start : State) (diagnostic : Diagnostic) :
    Meets (· = { start with diagnostics := start.diagnostics.push diagnostic })
      (stepOverUnless needed) fun _ => Accounted start
        [.bad ⟨start.cursor.current, start.cursor.current, diagnostic.message⟩] := by
  have hreport := Failed.reportHere start diagnostic
  refine .bind currentKind_meets fun kind => ?_
  split
  · apply Meets.pure
    intro state hstate
    rcases hstate with ⟨rfl, -⟩
    refine hreport.accounted rfl (fun hordered => ?_) (within_here hreport.sameBody.reaches)
    exact hides_here (hreport.sameBody.reaches.ordered hordered).cursor (.inl rfl)
  · next hneeded =>
      intro state hstate
      rcases hstate with ⟨rfl, rfl⟩
      have hother : start.cursor.kind.brace = .other := by
        apply Kind.brace_eq_other
        · intro hkind
          exact hneeded (hkind ▸ hopening)
        · intro hkind
          exact hneeded (hkind ▸ hclosing)
      have hstep := hreport.after (.next hother)
      refine hstep.accounted rfl (fun hordered => ?_) (within_here hstep.sameBody.reaches)
      exact hides_here (hstep.sameBody.reaches.ordered hordered).cursor (.inr rfl)

/-- Reading a token of one kind, or failing at another. -/
theorem expectAs_yields {succeeded : Token → State → Prop} (code : ErrorCode) (kind : Kind)
    (what : String)
    (hread : ∀ state, pre state → state.cursor.kind = kind →
      succeeded state.cursor.current { state with cursor := state.cursor.next })
    (hother : ∀ state, pre state → state.cursor.kind ≠ kind → start.SameBody state) :
    Yields pre (expectAs code kind what) succeeded (Failed start) := by
  apply Yields.bind (.lift currentKind_meets)
  intro found
  split
  · next hfound =>
      intro state hstate
      rcases hstate with ⟨hstate, rfl⟩
      exact hread state hstate hfound
  · next hfound =>
      apply Yields.of_each
      intro state hstate
      obtain ⟨hstate, rfl⟩ := hstate
      apply Yields.bind (.lift (expectedHere_meets code what))
      intro diagnostic
      refine .bind (.lift ((reportHere_meets state diagnostic).strengthen fun _ hstate =>
        hstate.1)) fun bad => .of_each fun _ hreported => ?_
      obtain ⟨rfl, rfl⟩ := hreported
      apply Yields.bind (.lift (stepOverUnless_meets rfl rfl state diagnostic))
      intro _
      apply Yields.throw
      intro stop hstop
      exact hstop.failed.before (hother state hstate hfound)

end Reporting

theorem expectAs_accounts (code : ErrorCode) {kind : Kind} (what : String)
    (hkind : kind.isStored) :
    AccountsOrFails anywhere (expectAs code kind what) fun token => [.token token] := by
  intro start before
  refine expectAs_yields code kind what (fun state hstate hfound => ?_) fun state hstate _ =>
    hstate.1.sameBody
  refine ⟨hstate.1.accounted.next ⟨rfl, ?_⟩, hstate.1.closed.append (closed_nil.token _)⟩
  exact (congrArg Kind.isStored hfound).trans hkind

theorem expectAs_accounts_separator (code : ErrorCode) {kind : Kind} (what : String)
    (hkind : kind.isSeparator) :
    AccountsOrFails anywhere (expectAs code kind what) fun _ => [] := by
  intro start before
  refine expectAs_yields code kind what (fun state hstate hfound => ?_) fun state hstate _ =>
    hstate.1.sameBody
  rw [List.append_nil]
  exact ⟨hstate.1.accounted.nextSeparator (hfound ▸ hkind), hstate.1.closed⟩

theorem cover_meets {pre : State → Prop} (first : Token) (bad : BadNode) :
    Meets pre (cover first bad) fun node state => pre state ∧ node =
      ⟨first, laterToken (laterToken bad.last state.cursor.previous) first, bad.reason⟩ :=
  fun _ hstate => ⟨hstate, rfl⟩

theorem skip_meets {rule : Skip.Rule} (hrule : Skip.KeepsLevel rule) :
    Meets (Failed start bad) (skip rule) fun _ => Failed start bad := by
  intro state hfailed
  refine hfailed.after ⟨?_, List.prefix_rfl⟩
  obtain ⟨run, hrun⟩ := Cursor.exists_reads_skip rule state.cursor
  refine ⟨run, hrun, fun hcalm hend => ?_⟩
  have hreaches : state.Reaches { state with cursor := state.cursor.skip rule } :=
    ⟨⟨run, hrun⟩, List.prefix_rfl⟩
  obtain ⟨stack, hstack⟩ := (hreaches.calm hcalm).exists_stack
  exact hrule _ stack run hstack hrun hend

section Recovering

variable {here : Cursor → Prop} {production : Production α}
  {valuePieces : α → List Piece}

/-- A bad node that is stretched from a token before it looks no further than before. -/
theorem Failed.covered {first : Token} (hfailed : Failed start bad stop)
    (hfirst : stop.cursor.Ordered → first.position ≤ stop.cursor.current.position) :
    Failed start ⟨first, laterToken (laterToken bad.last stop.cursor.previous) first, bad.reason⟩
      stop where
  sameBody := hfailed.sameBody
  tells := hfailed.tells
  last hordered := laterToken_le
    (laterToken_le (hfailed.last hordered) (Cursor.previous_le_current hordered))
    (hfirst hordered)

/-- A failure may be stretched from a token on that was read before. -/
theorem covering_yields {pre : State → Prop} {succeeded : α → State → Prop} {first : Token}
    (horderly : Orderly production.run)
    (hfirst : ∀ state, pre state → state.cursor.Ordered →
      first.position ≤ state.cursor.current.position)
    (hproduction : Yields pre production succeeded (Failed start)) :
    Yields pre (covering first production) succeeded (Failed start) := by
  apply Yields.of_each
  intro middle hmiddle
  have hfollows : Yields (· = middle) production succeeded fun bad stop =>
      Failed start bad stop ∧ middle.Follows stop := by
    have hends : Yields (· = middle) production succeeded (Failed start) :=
      hproduction.strengthen fun _ hstate => hstate ▸ hmiddle
    refine (Meets.and hends (horderly.run_follows middle)).weaken fun outcome stop hstop => ?_
    cases outcome with
    | ok value => exact hstop.1
    | error bad => exact hstop
  apply Yields.onFailure hfollows
  intro bad
  refine (cover_meets first bad).weaken ?_
  rintro node state ⟨⟨hfailed, hread⟩, rfl⟩
  apply hfailed.covered
  intro hordered
  have hplace := hread.reaches
  exact Position.le_trans (hfirst middle hmiddle (hplace.ordered_iff.2 hordered))
    (hplace.current_le hordered)

theorem skipping_yields {pre : State → Prop} {succeeded : α → State → Prop}
    {rule : Skip.Rule} (hrule : Skip.KeepsLevel rule)
    (hproduction : Yields pre production succeeded (Failed start)) :
    Yields pre (skipping rule production) succeeded (Failed start) := by
  apply Yields.onFailure hproduction
  intro bad
  exact .bind (skip_meets hrule) fun _ => .pure fun _ hfailed => hfailed

/-- What was given up since the first token of a construct, stretched from there on. -/
theorem Failed.accounted_cover (hfailed : Failed start bad stop) :
    Accounted start [.bad ⟨start.cursor.current,
      laterToken (laterToken bad.last stop.cursor.previous) start.cursor.current,
      bad.reason⟩] stop := by
  have hreaches := hfailed.sameBody.reaches
  refine hfailed.accounted rfl (fun hordered => ?_) fun hstart => ?_
  · refine hides_of_cover hordered.cursor (fun token htoken _ => ?_) fun _ => Position.le_refl _
    exact Cursor.current_le_of_mem_ahead (hreaches.ordered hordered).cursor htoken
  · have hstop := hreaches.ordered_iff.1 hstart
    exact within_of_cover (hfailed.last hstop) hstop (Position.le_refl _)
      (hreaches.current_le hstop)

/-- A failure stretched over all of a construct is accounted for. -/
theorem covering_yields_first {pre : State → Prop} {succeeded : α → State → Prop}
    (hproduction : Yields pre production succeeded (Failed start)) :
    Yields pre (covering start.cursor.current production) succeeded
      fun bad => Accounted start [.bad bad] := by
  apply Yields.onFailure hproduction
  intro bad
  refine (cover_meets _ bad).weaken ?_
  intro node state hstate
  rcases hstate with ⟨hfailed, rfl⟩
  exact hfailed.accounted_cover

/-- A failure stretched over all of a construct may be handed on. -/
theorem covering_yields_start {pre : State → Prop} {succeeded : α → State → Prop}
    {first : Token} (hfirst : first = start.cursor.current)
    (hproduction : Yields pre production succeeded (Failed start)) :
    Yields pre (covering first production) succeeded (Failed start) := by
  rw [hfirst]
  exact (covering_yields_first hproduction).weaken (fun _ _ hvalue => hvalue)
    fun _ _ hbad => hbad.failed

/-- What a production gives up is hidden in a bad node from its first token on. -/
theorem recoverWith_meets {rule : Skip.Rule} {ofBad : BadNode → α}
    (hrule : Skip.KeepsLevel rule) (hofBad : ∀ bad, valuePieces (ofBad bad) = [.bad bad])
    (hproduction : AccountsOrFails here production valuePieces) (start : State)
    (hhere : here start.cursor) :
    Meets (· = start) (recoverWith rule start.cursor.current ofBad production)
      fun value => Accounted start (valuePieces value) := by
  have hstart : Yields (· = start) production
      (fun value => Accounted start (valuePieces value)) (Failed start) := by
    refine (hproduction start []).mono ?_ (fun _ _ hvalue => hvalue.accounted)
      fun _ _ hfailed => hfailed
    intro state hstate
    rcases hstate with rfl
    exact ⟨.refl _, hhere⟩
  refine .recoverWith hstart fun bad => .bind (skip_meets hrule) fun _ => ?_
  refine .bind (cover_meets _ bad) fun node => .pure ?_
  intro stop hstop
  rcases hstop with ⟨hfailed, rfl⟩
  rw [hofBad]
  exact hfailed.accounted_cover

theorem unlessAt_accounts (kind : Kind)
    (hproduction : AccountsOrFails anywhere production valuePieces) :
    AccountsOrFails anywhere (unlessAt kind production) (piecesOf? valuePieces) := by
  intro start before
  apply Yields.bind (.lift currentKind_meets)
  intro found
  split
  · apply Yields.pure
    intro state hstate
    rw [piecesOf?, List.append_nil]
    exact hstate.1.1
  · refine .bind (Yields.strengthen hproduction.yields fun _ hstate => hstate.1.1)
      fun value => .pure fun _ hvalue => hvalue

/-- Two states that differ in their context only. -/
def State.SameText (first second : State) : Prop :=
  first.cursor = second.cursor ∧ first.diagnostics = second.diagnostics

theorem State.SameText.reaches {first second : State} (hsame : first.SameText second) :
    first.Reaches second := by
  refine ⟨⟨[], ?_⟩, ?_⟩
  · rw [hsame.1]
    exact .refl _
  · exact hsame.2 ▸ List.prefix_rfl

theorem Settled.congr {start' stop' : State} (hsettled : Settled start pieces stop)
    (hstart : start.SameText start') (hstop : stop.SameText stop') :
    Settled start' pieces stop' := by
  refine ⟨⟨?_, ?_⟩, hsettled.closed⟩
  · rw [← hstart.1, ← hstop.1]
    exact hsettled.accounted.covers.mono hstop.reaches.ordered hstop.reaches.calm
  · rw [Explained, ← hstart.2, ← hstop.2]
    exact hsettled.accounted.explained

theorem Failed.congr {start' stop' : State} (hfailed : Failed start bad stop)
    (hstart : start.SameText start') (hstop : stop.SameText stop') :
    Failed start' bad stop' := by
  obtain ⟨run, hrun, hlevel⟩ := hfailed.sameBody.reads
  refine ⟨⟨⟨run, ?_, fun hcalm hend => ?_⟩, ?_⟩, ?_, ?_⟩
  · rw [← hstart.1, ← hstop.1]
    exact hrun
  · exact hlevel (hstop.reaches.calm hcalm) (hstop.1 ▸ hend)
  · rw [← hstart.2, ← hstop.2]
    exact hfailed.sameBody.reports
  · rw [State.Tells, ← hstart.2, ← hstop.2]
    exact hfailed.tells
  · exact hstop.1 ▸ hfailed.last

theorem between_accounts {enter leave : State → State}
    (henter : ∀ state : State, (enter state).SameText state)
    (hleave : ∀ state : State, state.SameText (leave state))
    (hproduction : AccountsOrFails here production valuePieces) :
    AccountsOrFails here (between enter leave production) valuePieces := by
  apply AccountsOrFails.of_start
  intro start hhere
  refine .between (hproduction (enter start) []) ?_ (fun value stop hvalue => ?_)
    fun bad stop hfailed => ?_
  · intro state hstate
    rcases hstate with rfl
    refine ⟨.refl _, ?_⟩
    rw [(henter state).1]
    exact hhere
  · exact hvalue.congr (henter start) (hleave stop)
  · exact hfailed.congr (henter start) (hleave stop)

theorem descend_accounts (hproduction : AccountsOrFails here production valuePieces) :
    AccountsOrFails here (descend production) valuePieces := by
  apply AccountsOrFails.of_start
  intro start hhere
  apply Yields.bind (.lift get_meets)
  intro state
  split
  · apply failTooDeep_yields
    intro state hstate
    rcases hstate with ⟨rfl, -⟩
    exact .refl _
  · refine Yields.strengthen (between_accounts ?_ ?_ hproduction start []) ?_
    · exact fun _ => ⟨rfl, rfl⟩
    · exact fun _ => ⟨rfl, rfl⟩
    · intro state hstate
      rcases hstate with ⟨rfl, -⟩
      exact ⟨.refl _, hhere⟩

end Recovering

end OriSyntax.Grammar
