import OriSyntax.Proofs.Delimiters
import OriSyntax.Proofs.DeclComplete
import OriSyntax.Proofs.Entering
import OriSyntax.Proofs.Removal

/-!
Blocks beyond the nesting limit.  A block that is nested too deeply is reported once and read
past with the rest of its statement; behind it the file is read as if neither were there.
-/

namespace OriSyntax

/-- Behind `previous`, the token ends a statement: a semicolon, a closing brace, or the first
token of another line. -/
def EndsStmt (previous token : Token) : Prop :=
  token.kind ∈ [.semicolon, .rbrace] ∨ previous.line < token.line

instance (previous token : Token) : Decidable (EndsStmt previous token) :=
  inferInstanceAs (Decidable (_ ∨ _))

/-- Behind `previous`, the tokens of `line` are the rest of a statement that ends before
`first`; within braces they may be any. -/
structure RestOfStmt (previous : Token) (line : List Token) (first : Token) : Prop where
  level : Brace.Level (braces line)
  goesOn : ∀ read token later, line = read ++ token :: later → Brace.Level (braces read) →
    ¬ EndsStmt (read.getLastD previous) token
  ends : EndsStmt (line.getLastD previous) first

/-- Nothing is left of a statement behind which another token ends it. -/
theorem RestOfStmt.nil {previous first : Token} (hends : EndsStmt previous first) :
    RestOfStmt previous [] first where
  level := .nil
  goesOn read token later hline := by simp at hline
  ends := hends

/-- Without braces, what stands on one line up to a semicolon is left of one statement. -/
theorem RestOfStmt.of_plain {previous first : Token} {line : List Token}
    (hline : ∀ token ∈ line, token.kind ∉ [.lbrace, .rbrace, .semicolon] ∧
      token.line = previous.line)
    (hends : EndsStmt (line.getLastD previous) first) : RestOfStmt previous line first where
  level := by
    clear hends
    induction line with
    | nil => exact .nil
    | cons token line ih =>
        obtain ⟨htoken, hrest⟩ := List.forall_mem_cons.1 hline
        rw [braces_cons, Kind.brace_eq_other (by simp_all) (by simp_all)]
        exact (ih hrest).other_cons
  goesOn read token later hread _ := by
    subst hread
    have hlast : (read.getLastD previous).line = previous.line := by
      rw [List.getLastD_eq_getLast?]
      cases hread : read.getLast? with
      | none => rfl
      | some last =>
          exact (hline last (List.mem_append_left _ (List.mem_of_getLast? hread))).2
    obtain ⟨hkind, htoken⟩ := hline token (by simp)
    rintro (hends | hends)
    · simp_all
    · omega
  ends := hends

/-- Inside a block its brace is open. -/
theorem not_level_of_opening {opening : Token} {read later : List Token}
    (hopening : opening.kind = .lbrace) (hinside : Brace.Level (braces (read ++ later))) :
    ¬ Brace.Level (braces (opening :: read)) := by
  rw [braces_append, Brace.Level, Brace.depthAfter_append] at hinside
  cases hreached : Brace.depthAfter 0 (braces read) with
  | none => simp [hreached] at hinside
  | some reached =>
      have hadd := Brace.depthAfter_add 1 hreached
      intro hlevel
      simp [Brace.Level, hopening, Kind.brace, hadd] at hlevel

/-- The last token of a block and of what follows it. -/
theorem getLast?_block (opening closing : Token) (inside line : List Token) :
    (opening :: inside ++ closing :: line).getLast? = some (line.getLastD closing) := by
  simp [List.getLast?_append, List.getLast?_cons]

/-- A row that begins with a block is cut in front of the block, inside it, or behind it. -/
theorem cut_of_block {opening closing token : Token} {inside line read later : List Token}
    (hrow : opening :: inside ++ closing :: line = read ++ token :: later) :
    (read = [] ∧ token = opening) ∨
      (∃ front back, read = opening :: front ∧ inside = front ++ back) ∨
        ∃ behind, read = opening :: inside ++ closing :: behind ∧
          line = behind ++ token :: later := by
  cases read with
  | nil => exact .inl ⟨rfl, (List.cons.inj hrow).1.symm⟩
  | cons head front =>
      obtain ⟨rfl, hcut⟩ := List.cons.inj hrow
      rcases List.append_eq_append_iff.1 hcut with ⟨behind, rfl, hbehind⟩ | ⟨back, hback, -⟩
      · cases behind with
        | nil => exact .inr (.inl ⟨inside ++ [], [], rfl, by simp⟩)
        | cons head behind =>
            obtain ⟨rfl, hline⟩ := List.cons.inj hbehind
            exact .inr (.inr ⟨behind, rfl, hline⟩)
      · exact .inr (.inl ⟨front, back, rfl, hback⟩)

/-- A block that does not open a line, and what is left of its statement. -/
theorem RestOfStmt.block {before opening closing first : Token} {inside line : List Token}
    (hopening : opening.kind = .lbrace) (hlayout : opening.line ≤ before.line)
    (hinside : Brace.Level (braces inside)) (hclosing : closing.kind = .rbrace)
    (hline : RestOfStmt closing line first) :
    RestOfStmt before (opening :: inside ++ closing :: line) first := by
  have hblock : Brace.Level (braces (opening :: inside ++ [closing])) := by
    simpa [hopening, hclosing, Kind.brace] using hinside.enclosed
  have hbraces (line : List Token) : braces (opening :: inside ++ closing :: line) =
      braces (opening :: inside ++ [closing]) ++ braces line := by
    rw [← braces_append, List.append_assoc, List.singleton_append]
  have hlast (line : List Token) :
      (opening :: inside ++ closing :: line).getLastD before = line.getLastD closing := by
    rw [List.getLastD_eq_getLast?, getLast?_block]
    rfl
  refine ⟨?_, fun read token later hrow hlevel => ?_, ?_⟩
  · rw [hbraces]
    exact hblock.append hline.level
  · rcases cut_of_block hrow with ⟨rfl, rfl⟩ | ⟨front, back, rfl, rfl⟩ | ⟨behind, rfl, hbehind⟩
    · simp [EndsStmt, hopening, hlayout]
    · exact absurd hlevel (not_level_of_opening hopening hinside)
    · rw [hbraces, Brace.Level, Brace.depthAfter_append, hblock] at hlevel
      rw [hlast]
      exact hline.goesOn behind token later hbehind hlevel
  · rw [hlast]
    exact hline.ends

namespace Cursor

variable {cursor : Cursor} {previous first : Token} {line rest : List Token}

/-- Braces are counted as they open and close. -/
theorem countBraces_of_depthAfter {depth reached : Nat} {kind : Kind} {row : List Brace}
    (hrow : Brace.depthAfter depth (kind.brace :: row) = some reached) :
    ∃ deeper, Skip.countBraces depth kind = .proceed deeper ∧
      ∀ row, Brace.depthAfter depth (kind.brace :: row) = Brace.depthAfter deeper row := by
  unfold Skip.countBraces
  split
  · next hkind => exact ⟨_, rfl, fun row => by simp [hkind, Kind.brace]⟩
  split
  · next hkind =>
      subst hkind
      cases depth with
      | zero => simp [Kind.brace, Brace.depthAfter] at hrow
      | succ depth => exact ⟨depth, rfl, fun row => Brace.depthAfter_closing depth row⟩
  · next hopening hclosing =>
      exact ⟨depth, rfl, fun row => by simp [Kind.brace_eq_other hopening hclosing]⟩

/-- The last token of a run is the one read last. -/
theorem Reads.head?_behind {start stop : Cursor} {run : List Token} {last : Token}
    (hreads : start.Reads run stop) (hlast : run.getLast? = some last) :
    stop.behind.head? = some last := by
  rw [hreads.behind, List.head?_append, List.head?_reverse, hlast]
  rfl

/-- Outside braces the skip of a broken statement stops at what ends one. -/
theorem statement_eq {token : Token} (hbehind : cursor.behind.head? = some previous)
    (hahead : cursor.ahead = token :: rest) (depth : Nat) :
    Skip.statement depth cursor.opensLine token.kind =
      if depth = 0 ∧ EndsStmt previous token then .stop
      else Skip.countBraces depth token.kind := by
  simp [Skip.statement, opensLine, hbehind, current_of_cons hahead, KindSet.stmtEnd,
    KindSet.contains_ofList, EndsStmt]

/-- A broken statement is read past up to the token that ends it. -/
theorem reads_skip_statement (hbehind : cursor.behind.head? = some previous)
    (hahead : cursor.ahead = line ++ first :: rest) (hline : RestOfStmt previous line first) :
    cursor.Reads line (cursor.skip .statement) := by
  -- The induction is on what is left of the line, with any number of braces open.
  suffices halong : ∀ line depth (cursor : Cursor) previous,
      cursor.behind.head? = some previous → cursor.ahead = line ++ first :: rest →
      Brace.depthAfter depth (braces line) = some 0 →
      (∀ read token later, line = read ++ token :: later →
        Brace.depthAfter depth (braces read) = some 0 →
          ¬ EndsStmt (read.getLastD previous) token) →
      EndsStmt (line.getLastD previous) first →
        cursor.Reads line (skipAlong .statement (line ++ first :: rest) depth cursor) by
    rw [skip, hahead]
    exact halong line 0 cursor previous hbehind hahead hline.level hline.goesOn hline.ends
  intro line
  induction line with
  | nil =>
      intro depth cursor previous hbehind hahead hlevel _ hends
      obtain rfl : depth = 0 := by simpa using hlevel
      rw [List.nil_append, skipAlong, statement_eq hbehind hahead, if_pos ⟨rfl, hends⟩]
      exact .refl cursor
  | cons token line ih =>
      intro depth cursor previous hbehind hahead hlevel hgoes hends
      rw [braces_cons] at hlevel
      obtain ⟨deeper, hcount, hdeeper⟩ := countBraces_of_depthAfter hlevel
      have hbetween : ¬ (depth = 0 ∧ EndsStmt previous token) := by
        rintro ⟨rfl, htoken⟩
        exact hgoes [] token line rfl rfl htoken
      rw [List.cons_append, skipAlong, statement_eq hbehind hahead, if_neg hbetween, hcount]
      have hinside := kind_ne_eof_of_cons hahead
      refine (reads_next_of_cons hahead).trans (ih deeper cursor.next token ?_
        (ahead_next_of_cons hahead) ((hdeeper _).symm.trans hlevel)
        (fun read other later hrow hread => ?_) ?_)
      · rw [behind_next hinside, current_of_cons hahead]
        rfl
      · have hother := hgoes (token :: read) other later (congrArg (token :: ·) hrow)
          ((hdeeper _).trans hread)
        rwa [List.getLastD_cons] at hother
      · rwa [List.getLastD_cons] at hends

end Cursor

/-- Of a token and one that is later or not, the later one is not passed by the first. -/
theorem laterToken_laterToken (first second : Token) :
    Grammar.laterToken (Grammar.laterToken first second) first =
      Grammar.laterToken first second := by
  unfold Grammar.laterToken
  split
  · next hlater =>
      refine if_neg fun hback => ?_
      rw [Position.lt_def] at hlater hback
      omega
  · simp

theorem laterToken_of_earlier_line {first second : Token} (hline : second.line < first.line) :
    Grammar.laterToken first second = first := by
  refine if_neg fun hlater => ?_
  rw [Position.lt_def] at hlater
  simp only [Token.position] at hlater
  omega

namespace Grammar

variable {here there gone : State} {levels : Nat}

/-- The bad node of what is nested too deeply, of which the last token is `last`. -/
def tooDeep (first last : Token) : BadNode :=
  ⟨first, laterToken first last, (Diagnostic.nestingTooDeep maxNesting first).message⟩

/-- What is nested too deeply is reported at its first token, and the rest of the statement is
read past. -/
theorem nested_stmt_at_limit (levels : Nat) (hlimit : maxNesting ≤ here.nesting) :
    Gives (nested levels).stmt here
      (.bad (tooDeep here.cursor.current (here.cursor.skip .statement).previous))
      ((here.tell (.nestingTooDeep maxNesting here.cursor.current)).moveTo
        (here.cursor.skip .statement)) := by
  have hstmt {production : Production Stmt} (hfails : Fails production here
      ⟨here.cursor.current, here.cursor.current,
        (Diagnostic.nestingTooDeep maxNesting here.cursor.current).message⟩
      (here.tell (.nestingTooDeep maxNesting here.cursor.current))) :
      Gives (stmtOf production) here
        (.bad (tooDeep here.cursor.current (here.cursor.skip .statement).previous))
        ((here.tell (.nestingTooDeep maxNesting here.cursor.current)).moveTo
          (here.cursor.skip .statement)) := by
    have hrecovers := Gives.recoverWith_of_fails .statement here.cursor.current Stmt.bad hfails
    rw [laterToken_laterToken] at hrecovers
    exact .look rfl hrecovers
  cases levels with
  | zero => exact hstmt rfl
  | succ levels => exact hstmt (descend_fails_of_limit hlimit)

/-- What is nested too deeply and opens a line is read past token by token. -/
theorem steppingStmt_at_limit (levels : Nat) (hlimit : maxNesting ≤ here.nesting)
    {previous : Token} (hbehind : here.cursor.behind.head? = some previous)
    (hline : previous.line < here.cursor.current.line) :
    Gives (steppingStmt (nested levels)) here
      (.bad (tooDeep here.cursor.current here.cursor.current))
      ((here.tell (.nestingTooDeep maxNesting here.cursor.current)).moveTo here.cursor.next) := by
  have hopens : here.cursor.opensLine := by simp [Cursor.opensLine, hbehind, hline]
  have hstays : here.cursor.skip .statement = here.cursor := by
    apply Cursor.skip_of_stop
    simp [Skip.statement, hopens]
  have hprevious : here.cursor.previous = previous := by simp [Cursor.previous, hbehind]
  have hstmt := nested_stmt_at_limit levels hlimit
  rw [hstays, hprevious, tooDeep, laterToken_of_earlier_line hline] at hstmt
  have hnode : tooDeep here.cursor.current here.cursor.current = ⟨here.cursor.current,
      here.cursor.current, (Diagnostic.nestingTooDeep maxNesting here.cursor.current).message⟩ := by
    simp [tooDeep, laterToken]
  rw [hnode]
  refine .look rfl (.bind hstmt (.look rfl (.of_pos rfl ?_)))
  exact .bind rfl (.pure _ _)

/-- Where a statement is ended, a list beyond the limit goes on in the same way in both runs,
also if they look back at different tokens. -/
theorem steppingStmt_accords_at_limit {first previous previous' : Token} {rest : List Token}
    (hsame : there.SameAhead gone) (hlimit : maxNesting ≤ there.nesting)
    (hahead : there.cursor.ahead = first :: rest)
    (hbehind : there.cursor.behind.head? = some previous) (hline : previous.line < first.line)
    (hbehind' : gone.cursor.behind.head? = some previous') (hline' : previous'.line < first.line) :
    Accords (fun state state' => state = there ∧ state' = gone) (steppingStmt (nested levels))
      (steppingStmt (nested levels)) Eq State.Alongside := by
  rintro state state' ⟨rfl, rfl⟩
  have hcurrent : state.cursor.current = first := Cursor.current_of_cons hahead
  have hcurrent' : state'.cursor.current = first := hsame.current.trans hcurrent
  have hstep := steppingStmt_at_limit levels hlimit hbehind (hcurrent ▸ hline)
  have hstep' := steppingStmt_at_limit levels (hsame.nesting ▸ hlimit) hbehind'
    (hcurrent' ▸ hline')
  have hinside : Inside state := Cursor.kind_ne_eof_of_cons hahead
  rw [hcurrent] at hstep
  rw [hcurrent'] at hstep'
  rw [hstep, hstep']
  exact ⟨rfl, (hsame.tell _).next hinside, [_], Array.toList_push, Array.toList_push⟩

theorem Layer.stops_rbrace (layer : Layer) : layer.stops .rbrace := by
  induction layer with
  | elseIf keyword condition body inner ih => exact ih
  | _ => rfl

theorem Enclosing.stops_rbrace (context : Enclosing) : context.stops .rbrace := by
  cases context with
  | function head => rfl
  | stmt outer found first layer => exact layer.stops_rbrace

/-- Behind a statement that is bad in one run and absent from the other, what is left of a list
beyond the limit is the same. -/
theorem restOfStmts_accords_at_limit {context : Enclosing} {found : List Stmt} {bad : BadNode}
    {first previous previous' : Token} {rest : List Token} (hsame : there.SameAhead gone)
    (hlimit : maxNesting ≤ there.nesting) (hahead : there.cursor.ahead = first :: rest)
    (hbehind : there.cursor.behind.head? = some previous) (hends : EndsStmt previous first)
    (hbehind' : gone.cursor.behind.head? = some previous')
    (hordered : previous'.line ≤ previous.line) :
    Accords (fun state state' => state = there ∧ state' = gone)
      (restOfStmts (nested levels) context.stops (.bad bad :: found))
      (restOfStmts (nested levels) context.stops found)
      (Stmt.LeftOut bad (Stmt.Without bad)) (Ended context.stops) := by
  have hfound : Stmt.FoundWithout bad (.bad bad :: found) found := by
    simpa [Stmt.FoundWithout] using Stmt.LeftOut.here found.reverse []
  refine (restOfStmts_accords ?_ ?_ (fun stmt _ _ hfound => hfound.cons stmt) hfound).weaken
    fun _ _ hvalue => hvalue.reverse
  · rintro state state' ⟨rfl, rfl⟩
    exact ⟨hsame, Cursor.kind_ne_eof_of_cons hahead⟩
  · rintro state state' ⟨⟨rfl, rfl⟩, hstops, hsemicolon⟩
    rw [Cursor.kind_of_ahead_eq_cons hahead] at hstops hsemicolon
    have hline : previous.line < first.line := by
      refine hends.resolve_left fun hkind => ?_
      simp only [List.mem_cons, List.not_mem_nil, or_false] at hkind
      rcases hkind with hkind | hkind
      · exact hsemicolon hkind
      · exact absurd context.stops_rbrace (by simp [← hkind, hstops])
    exact steppingStmt_accords_at_limit hsame hlimit hahead hbehind hline hbehind'
      (Nat.lt_of_le_of_lt hordered hline) state state' ⟨rfl, rfl⟩

/-- The package clause, and a function up to its opening brace. -/
def deepHeader : List Token := [⟨.packageKw, "package", 1, 1⟩, ⟨.ident, "p", 1, 9⟩,
  ⟨.funcKw, "func", 2, 1⟩, ⟨.ident, "f", 2, 6⟩, ⟨.lparen, "(", 2, 7⟩, ⟨.rparen, ")", 2, 8⟩,
  ⟨.lbrace, "\x7b", 2, 10⟩]

/-- What encloses the body of the function. -/
def deepFunction : Enclosing := .function {
  package := .ok (⟨.packageKw, "package", 1, 1⟩, ⟨.ident, "p", 1, 9⟩)
  found := []
  keyword := ⟨.funcKw, "func", 2, 1⟩
  name := ⟨.ident, "f", 2, 6⟩
  params := .ok ⟨⟨.lparen, "(", 2, 7⟩, [], ⟨.rparen, ")", 2, 8⟩⟩
  results := .ok none
  opening := ⟨.lbrace, "\x7b", 2, 10⟩
  outside := 0 }

theorem paramList_succeeds_empty {start : State} {left right : Token} {rest : List Token}
    (hahead : start.cursor.ahead = left :: right :: rest) (hleft : left.kind = .lparen)
    (hright : right.kind = .rparen) :
    Succeeds (paramList true) start ⟨left, [], right⟩ (start.moveTo start.cursor.next.next) := by
  have hahead' := Cursor.ahead_next_of_cons hahead
  have hwell : ParamList.WellFormed true ⟨left, [], right⟩ := ⟨hleft, by simp, hright⟩
  have hfaces : start.cursor.Faces [.token left, .token right] start.cursor.next.next :=
    ⟨Cursor.kind_ne_eof_of_cons hahead, Cursor.current_of_cons hahead, nofun,
      Cursor.kind_ne_eof_of_cons hahead', Cursor.current_of_cons hahead', nofun, rfl⟩
  exact paramList_succeeds hwell hfaces

theorem exists_reaches_deepFunction {tokens rest : List Token}
    (hahead : (initialState tokens).cursor.ahead = deepHeader ++ rest) :
    ∃ here : State, deepFunction.Reaches maxNesting tokens [] here ∧
      (initialState tokens).cursor.Reads deepHeader here.cursor ∧ here.nesting = 0 ∧
      here.loopDepth = 0 ∧ here.diagnostics = #[] := by
  have hahead₁ := Cursor.ahead_next_of_cons hahead
  have hahead₂ := Cursor.ahead_next_of_cons hahead₁
  have hahead₃ := Cursor.ahead_next_of_cons hahead₂
  have hahead₄ := Cursor.ahead_next_of_cons hahead₃
  have hahead₅ := Cursor.ahead_next_of_cons hahead₄
  have hahead₆ := Cursor.ahead_next_of_cons hahead₅
  let before := (initialState tokens).moveTo
    (initialState tokens).cursor.next.next.next.next.next.next
  have hpackage := packageClause_succeeds (Cursor.current_of_cons hahead) rfl
    (Cursor.current_of_cons hahead₁) rfl
  have hname : ReadsNext (expectName "function name")
      ((initialState tokens).moveTo (initialState tokens).cursor.next.next.next) :=
    readsNext_expectAs _ _ (Cursor.kind_of_ahead_eq_cons hahead₃)
  have hparams : Succeeds (paramList true)
      ((initialState tokens).moveTo (initialState tokens).cursor.next.next.next.next) _ before :=
    paramList_succeeds_empty hahead₄ rfl rfl
  have hresults : Succeeds results before none before :=
    results_none (.inl (Cursor.kind_of_ahead_eq_cons hahead₆))
  have hreaches := Enclosing.reaches_function (.intro hpackage .refl
    (Cursor.kind_of_ahead_eq_cons hahead₂) hname hparams hresults
    (Cursor.kind_of_ahead_eq_cons hahead₆))
  refine ⟨before.inBody, ?_, ?_, rfl, rfl, rfl⟩
  · simp only [State.cursor_moveTo, before, Cursor.current_of_cons hahead₂,
      Cursor.current_of_cons hahead₃, Cursor.current_of_cons hahead₆] at hreaches
    exact hreaches
  · exact (Cursor.reads_next_of_cons hahead).trans ((Cursor.reads_next_of_cons hahead₁).trans
      ((Cursor.reads_next_of_cons hahead₂).trans ((Cursor.reads_next_of_cons hahead₃).trans
        ((Cursor.reads_next_of_cons hahead₄).trans ((Cursor.reads_next_of_cons hahead₅).trans
          (Cursor.reads_next_of_cons hahead₆))))))

/-- Blocks up to the limit, one right behind the other. -/
def deepOpenings : List Token :=
  (List.range maxNesting).map fun offset => ⟨.lbrace, "\x7b", 2, 11 + offset⟩

/-- The braces that close them and the function. -/
def deepClosings : List Token :=
  ⟨.rbrace, "\x7d", 5, 1⟩ ::
    (List.range maxNesting).map fun offset => ⟨.rbrace, "\x7d", 5, 2 + offset⟩

/-- A file with these blocks, and what is in the innermost one. -/
def deepTokens (middle : List Token) : List Token :=
  deepHeader ++ (deepOpenings ++ (middle ++ deepClosings))

/-- What encloses the innermost block. -/
def deepContext : Enclosing := deepFunction.blocks deepOpenings

theorem exists_reaches_deepContext (middle : List Token)
    (hmiddle : ∀ token ∈ middle, token.kind.isWritten) :
    ∃ here : State, deepContext.Reaches 0 (deepTokens middle) [] here ∧
      here.nesting = maxNesting ∧ here.loopDepth = 0 ∧ here.diagnostics = #[] ∧
      here.cursor.behind.head? = some ⟨.lbrace, "\x7b", 2, 1010⟩ ∧
      here.cursor.ahead = middle ++ deepClosings ∧
      here.cursor.eof = Cursor.closingToken deepClosings := by
  have hclosings : ∀ token ∈ deepClosings, token.kind.isWritten := by
    simp [deepClosings, Kind.isWritten]
  have hbefore : ∀ token ∈ deepHeader ++ (deepOpenings ++ middle), token.kind.isWritten := by
    have hheader : ∀ token ∈ deepHeader, token.kind.isWritten := by decide
    have hopenings : ∀ token ∈ deepOpenings, token.kind.isWritten := by
      simp [deepOpenings, Kind.isWritten]
    exact List.forall_mem_append.2 ⟨hheader, List.forall_mem_append.2 ⟨hopenings, hmiddle⟩⟩
  have htokens : deepTokens middle = deepHeader ++ (deepOpenings ++ middle) ++ deepClosings := by
    simp [deepTokens]
  have hahead : (initialState (deepTokens middle)).cursor.ahead = deepTokens middle := by
    apply Cursor.ahead_ofTokens_of_written
    rw [htokens]
    exact List.forall_mem_append.2 ⟨hbefore, hclosings⟩
  obtain ⟨body, hbody, hheader, hnesting, hloops, htold⟩ := exists_reaches_deepFunction hahead
  have hbodyAhead : body.cursor.ahead = deepOpenings ++ (middle ++ deepClosings) :=
    List.append_cancel_left (hheader.ahead.symm.trans hahead)
  have hlength : deepOpenings.length = maxNesting := by simp [deepOpenings]
  have hbody : deepFunction.Reaches (0 + deepOpenings.length) (deepTokens middle) [] body := by
    rw [hlength, Nat.zero_add]
    exact hbody
  obtain ⟨here, hhere, hopenings, hnesting', hloops', htold'⟩ :=
    hbody.blocks hbodyAhead (by simp [deepOpenings]) (by omega)
  have hreads := hheader.trans hopenings
  refine ⟨here, hhere, ?_, hloops'.trans hloops, htold'.trans htold, ?_, ?_, ?_⟩
  · omega
  · refine hopenings.head?_behind ?_
    simp [deepOpenings, List.getLast?_range, maxNesting]
  · exact List.append_cancel_left (hopenings.ahead.symm.trans hbodyAhead)
  · rw [hreads.eof]
    change (Cursor.ofTokens (deepTokens middle)).eof = _
    rw [htokens, Cursor.eof_ofTokens_append_of_written hbefore hclosings (List.cons_ne_nil _ _)]

section Block

variable {before opening closing first : Token} {inside line rest : List Token}
  (hbefore : here.cursor.behind.head? = some before)
  (hahead : here.cursor.ahead = opening :: inside ++ closing :: line ++ first :: rest)
  (hopening : opening.kind = .lbrace) (hlayout : opening.line ≤ before.line)
  (hinside : Brace.Level (braces inside)) (hclosing : closing.kind = .rbrace)
  (hline : RestOfStmt closing line first)
include hbefore hahead hopening hlayout hinside hclosing hline

/-- The pass over a block beyond the limit reads what is left of its statement, too. -/
theorem stmtPass_round_of_deep_block {stops : Kind → Bool} (levels : Nat)
    (hlimit : maxNesting ≤ here.nesting) (hstops : stops .lbrace = false) (found : List Stmt) :
    here.cursor.Reads (opening :: inside ++ closing :: line) (here.cursor.skip .statement) ∧
      Round (stmtPass (nested levels) stops) (found, here)
        (.bad (tooDeep opening (line.getLastD closing)) :: found,
          (here.tell (.nestingTooDeep maxNesting opening)).moveTo
            (here.cursor.skip .statement)) := by
  have hreads := Cursor.reads_skip_statement hbefore hahead
    (.block hopening hlayout hinside hclosing hline)
  have hcurrent : here.cursor.current = opening := Cursor.current_of_cons hahead
  have hkind : here.cursor.kind = .lbrace := (congrArg Token.kind hcurrent).trans hopening
  have hprevious : (here.cursor.skip .statement).previous = line.getLastD closing := by
    rw [Cursor.previous, hreads.head?_behind (getLast?_block opening closing inside line)]
    rfl
  have hstmt := nested_stmt_at_limit levels hlimit
  rw [hcurrent, hprevious] at hstmt
  exact ⟨hreads, stmtPass_round (hkind ▸ by decide) (hkind ▸ hstops) (hkind ▸ by decide) hstmt
    hreads (by simp) found⟩

/-- A block beyond the limit that stands on the line of the token before it is reported once and
becomes one bad statement, with what is left of its statement behind the brace that closes it.
From there on the file is read as if neither were there. -/
theorem parse_of_deep_block {context : Enclosing} {tokens : List Token} {found : List Stmt}
    (hreaches : context.Reaches levels tokens found here) (hnesting : here.nesting = maxNesting)
    (hordered : before.line ≤ (line.getLastD closing).line) :
    ∃ bad there,
      bad = tooDeep opening (line.getLastD closing) ∧
      Round (stmtPass (nested levels) context.stops) (found, here) (.bad bad :: found, there) ∧
      there.cursor.ahead = first :: rest ∧
      there.diagnostics = here.diagnostics.push (.nestingTooDeep maxNesting opening) ∧
      ∀ tokens' gone, context.Reaches levels tokens' found gone → gone.nesting = here.nesting →
        gone.loopDepth = here.loopDepth → gone.cursor.behind.head? = some before →
        gone.cursor.ahead = first :: rest → gone.cursor.eof = here.cursor.eof →
          File.Without bad (parse tokens).file (parse tokens').file ∧
          ∃ more, (parse tokens).diagnostics =
              here.diagnostics.toList ++ .nestingTooDeep maxNesting opening :: more ∧
            (parse tokens').diagnostics = gone.diagnostics.toList ++ more := by
  have hlimit : maxNesting ≤ here.nesting := Nat.le_of_eq hnesting.symm
  obtain ⟨hreads, hround⟩ := stmtPass_round_of_deep_block hbefore hahead hopening hlayout hinside
    hclosing hline levels hlimit (context.stops_eq_false (by decide)) found
  have hlast := hreads.head?_behind (getLast?_block opening closing inside line)
  have hrest : (here.cursor.skip .statement).ahead = first :: rest :=
    List.append_cancel_left (hreads.ahead.symm.trans hahead)
  refine ⟨_, _, rfl, hround, hrest, rfl, fun tokens' gone hreaches' hgone hloops hbehind hahead'
    heof => ?_⟩
  have hsame : ((here.tell (.nestingTooDeep maxNesting opening)).moveTo
      (here.cursor.skip .statement)).SameAhead gone := {
    begun := by simp [hreads.behind]
    ahead := hahead'.trans hrest.symm
    eof := heof.trans hreads.eof.symm
    nesting := hgone
    loopDepth := hloops }
  obtain ⟨hfile, -, more, hmore, hmore'⟩ := context.plug_accords
    (restOfStmts_accords_at_limit hsame hlimit hrest hlast hline.ends hbehind hordered) _ _
    ⟨rfl, rfl⟩
  rw [(hreaches.round hround).parse_eq, hreaches'.parse_eq]
  refine ⟨hfile, more, hmore.trans ?_, hmore'⟩
  change (here.diagnostics.push _).toList ++ more = _
  rw [Array.toList_push, List.append_assoc]
  rfl

end Block

/-- The opening brace of a block beyond the limit. -/
def deepOpening : Token := ⟨.lbrace, "\x7b", 2, 1012⟩

/-- What stands in the block and closes it two lines further down. -/
def deepLines : List Token := [⟨.ident, "x", 3, 2⟩, ⟨.rbrace, "\x7d", 4, 1⟩]

/-- A block that goes over three lines, in the innermost of the others. -/
theorem parse_of_deep_block_lines :
    ∃ bad, bad = tooDeep deepOpening ⟨.rbrace, "\x7d", 4, 1⟩ ∧
      File.Without bad (parse (deepTokens (deepOpening :: deepLines))).file
        (parse (deepTokens [])).file ∧
      (parse (deepTokens (deepOpening :: deepLines))).diagnostics =
        .nestingTooDeep maxNesting deepOpening :: (parse (deepTokens [])).diagnostics := by
  obtain ⟨here, hreaches, hnesting, hloops, htold, hbefore, hahead, heof⟩ :=
    exists_reaches_deepContext (deepOpening :: deepLines) (by decide)
  obtain ⟨gone, hreaches', hnesting', hloops', htold', hbefore', hahead', heof'⟩ :=
    exists_reaches_deepContext [] (by simp)
  have hblock : here.cursor.ahead = deepOpening :: [⟨.ident, "x", 3, 2⟩] ++
      ⟨.rbrace, "\x7d", 4, 1⟩ :: [] ++ deepClosings := hahead
  obtain ⟨bad, there, hbad, -, -, -, hbehind⟩ := parse_of_deep_block hbefore hblock rfl (by decide)
    (by decide) rfl (.nil (by decide)) hreaches hnesting (by decide)
  obtain ⟨hfile, more, hmore, hmore'⟩ := hbehind (deepTokens []) gone hreaches'
    (hnesting'.trans hnesting.symm) (hloops'.trans hloops.symm) hbefore' hahead'
    (heof'.trans heof.symm)
  rw [htold'] at hmore'
  rw [htold] at hmore
  exact ⟨bad, hbad, hfile, by rw [hmore, hmore']; rfl⟩

/-- A call on the line of the block. -/
def deepCall : List Token :=
  [⟨.ident, "b", 2, 1015⟩, ⟨.lparen, "(", 2, 1016⟩, ⟨.rparen, ")", 2, 1017⟩]

/-- A block with nothing in it, and the call behind it. -/
def deepLine : List Token := deepOpening :: ⟨.rbrace, "\x7d", 2, 1013⟩ :: deepCall

/-- The call is lost with the block, though another statement could begin there. -/
theorem deep_block_takes_rest_of_line :
    ∃ here : State, deepContext.Reaches 0 (deepTokens deepLine) [] here ∧
      here.nesting = maxNesting ∧ here.cursor.ahead = deepLine ++ deepClosings ∧
      ∀ next there, Round (stmtPass (nested 0) deepContext.stops) ([], here) (next, there) →
        there.cursor.ahead = deepClosings ∧ there.cursor.ahead ≠ deepCall ++ deepClosings := by
  obtain ⟨here, hreaches, hnesting, -, -, hbefore, hahead, -⟩ :=
    exists_reaches_deepContext deepLine (by decide)
  have hline : RestOfStmt ⟨.rbrace, "\x7d", 2, 1013⟩ deepCall ⟨.rbrace, "\x7d", 5, 1⟩ :=
    .of_plain (by decide) (by decide)
  have hblock : here.cursor.ahead =
      deepOpening :: [] ++ ⟨.rbrace, "\x7d", 2, 1013⟩ :: deepCall ++ deepClosings := hahead
  obtain ⟨hreads, hround⟩ := stmtPass_round_of_deep_block hbefore hblock rfl (by decide)
    (by decide) rfl hline 0 (Nat.le_of_eq hnesting.symm) (deepContext.stops_eq_false (by decide)) []
  refine ⟨here, hreaches, hnesting, hahead, fun next there hother => ?_⟩
  obtain rfl := (Prod.ext_iff.1 (hround.symm.trans hother)).2
  have hbehind : (here.cursor.skip .statement).ahead = deepClosings :=
    List.append_cancel_left (hreads.ahead.symm.trans hblock)
  refine ⟨hbehind, fun hcall => ?_⟩
  have hfirst := congrArg List.head? (hbehind.symm.trans hcall)
  exact absurd hfirst (by decide)

end Grammar

end OriSyntax
