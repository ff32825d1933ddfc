import OriSyntax.Grammar.File
import OriSyntax.Proofs.LineBreaks
import OriSyntax.Proofs.Reports

/-!
What is reported for a whole file.  At file scope no loop is around, and each item reports what
may be reported in a file of its tokens; so every diagnostic of a file has a message of one line,
whatever its source is.
-/

namespace OriSyntax

namespace Grammar

variable {tokens : List Token} {earlier : List Diagnostic}

theorem outermost_keepsReporting : outermost.KeepsReporting := nested_keepsReporting maxNesting

theorem packageClause_keeps : KeepsOrFails (Reporting tokens 0 earlier) packageClause := by
  refine .look fun _ => .ite ?_ (failExpected_keeps (by decide) (by decide))
  exact .bind (.lift advance_keeps) fun keyword =>
    .bind (covering_keeps (expectName_keeps (by decide)) keyword) fun _ => .pure _

/-- Outside of every loop nothing changes when the count is set to zero. -/
theorem funcBody_keeps : KeepsOrFails (Reporting tokens 0 earlier) funcBody := by
  have hget : Meets (Reporting tokens 0 earlier) get fun found state =>
      Reporting tokens 0 earlier state ∧ found.loopDepth = 0 :=
    fun _ hstate => ⟨hstate, hstate.loopDepth⟩
  refine Yields.bind (.lift hget) fun outside => .of_known fun houtside => ?_
  apply Yields.between (block_keeps outermost_keepsReporting)
  · exact fun _ hstate => ⟨hstate.sameTokens, rfl, hstate.reports⟩
  · exact fun _ _ hstop => ⟨hstop.sameTokens, houtside, hstop.reports⟩
  · exact fun _ _ hstop => ⟨hstop.sameTokens, houtside, hstop.reports⟩

theorem funcDecl_keeps : KeepsOrFails (Reporting tokens 0 earlier) funcDecl := by
  have hattempt {α : Type} {production : Production α}
      (hproduction : KeepsOrFails (Reporting tokens 0 earlier) production) :
      KeepsOrFails (Reporting tokens 0 earlier) (attempt production) :=
    .lift (Meets.weaken hproduction fun outcome _ hstate => by cases outcome <;> exact hstate)
  have hsettle {α : Type} (outcome : Except BadNode α) :
      KeepsOrFails (Reporting tokens 0 earlier) (settle outcome) :=
    .settle fun _ hstate => by cases outcome <;> exact hstate
  apply KeepsOrFails.bind (.lift advance_keeps)
  intro keyword
  apply KeepsOrFails.bind (expectName_keeps (by decide))
  intro name
  apply KeepsOrFails.bind (hattempt (paramList_keeps _))
  intro params
  apply KeepsOrFails.bind (hattempt results_keeps)
  intro results
  apply KeepsOrFails.bind (hattempt funcBody_keeps)
  intro body
  exact .bind (covering_keeps (hsettle _) _) fun _ => .bind (hsettle _) fun _ =>
    .bind (hsettle _) fun _ => .pure _

theorem implementsDecl_keeps : KeepsOrFails (Reporting tokens 0 earlier) implementsDecl :=
  .bind (.lift advance_keeps) fun _ => .bind (.lift advance_keeps) fun _ =>
    .bind (qualifiedName_keeps (by decide)) fun _ => .pure _

/-- A variable is rejected at its keyword. -/
theorem fileVariable_keeps :
    Yields (fun state => Reporting tokens 0 earlier state ∧ Facing .varKw state) fileVariable
      (fun _ => Reporting tokens 0 earlier) fun _ => Reporting tokens 0 earlier := by
  have hkeyword : MakesOrFailsAt (Facing .varKw) (·.keyword.kind = .varKw)
      (valueDecl outermost "variable name") := by
    apply MakesOrFailsAt.bind (.lift (advance_makes_kind .varKw))
    intro keyword hkeyword
    exact .after fun _ => .after fun _ => .after fun _ => .after fun _ => .pure hkeyword
  have hread : KeepsOrFails (Reporting tokens 0 earlier)
      (valueDecl outermost "variable name") :=
    valueDecl_keeps outermost_keepsReporting (by decide)
  refine Yields.bind (Yields.and_succeeded (hread.strengthen fun _ hstate => hstate.1)
    ((hkeyword.strengthen fun _ hstate => hstate.2).weaken fun hdecl => hdecl))
    fun decl => .of_known fun hvar => ?_
  have hlegal : decl.keyword.kind ≠ .illegal := by simp [hvar]
  exact KeepsOrFails.bind (.lift (report_keeps (.variableAtFileScope hlegal) _ _))
    fun _ => .pure _

theorem strayItem_keeps {α : Type} :
    KeepsOrFails (Reporting tokens 0 earlier) (strayItem : Production α) := by
  refine Yields.bind (.lift current_reads) fun start => .of_known fun hmem => ?_
  have hreport : Keeps (Reporting tokens 0 earlier) (reportHere
      (if start.kind = .illegal then .illegal start else .unexpectedAtFileScope start)) := by
    split
    · exact reportHere_keeps .illegal
    · next hlegal => exact reportHere_keeps (.unexpectedAtFileScope hmem hlegal)
  exact KeepsOrFails.bind (.lift hreport) fun _ => .bind (.lift moveNext_keeps) fun _ => .throw _

theorem item_keeps : Keeps (Reporting tokens 0 earlier) item := by
  refine Meets.bind current_meets fun start => ?_
  have hrecovering {production : Production Item} {ofBad : BadNode → Item}
      (hproduction : KeepsOrFails (Reporting tokens 0 earlier) production) :
      Meets (fun state => Reporting tokens 0 earlier state ∧ start = state.cursor.current)
        (recoverWith (.toSet .declStart) start ofBad production)
        fun _ => Reporting tokens 0 earlier :=
    Meets.strengthen (recoverWith_keeps hproduction _ _ _) fun _ hstate => hstate.1
  dsimp only
  split
  · exact hrecovering (.bind (valueDecl_keeps outermost_keepsReporting
      (by decide : OneLine "constant name")) fun _ => .pure _)
  · next hkind =>
      have hfacing (state : State) (hstate : Reporting tokens 0 earlier state ∧
          start = state.cursor.current) :
          Reporting tokens 0 earlier state ∧ Facing .varKw state :=
        ⟨hstate.1, (congrArg Token.kind hstate.2).symm.trans hkind⟩
      refine Meets.recoverWith (Yields.bind (fileVariable_keeps.strengthen hfacing)
        fun _ => KeepsOrFails.pure _) fun _ => ?_
      exact Keeps.bind (skip_keeps _) fun _ => .bind (cover_keeps _ _) fun _ => .pure _
  · exact hrecovering (.bind funcDecl_keeps fun _ => .pure _)
  · exact hrecovering (.bind (typeDecl_keeps outermost_keepsReporting) fun _ => .pure _)
  · refine Meets.bind (kindAt_meets 1) fun _ => Meets.strengthen ?_ fun _ hstate => hstate.1
    split
    · exact hrecovering (.bind implementsDecl_keeps fun _ => .pure _)
    · exact hrecovering strayItem_keeps
  · exact hrecovering strayItem_keeps

theorem items_keep : Keeps (Reporting tokens 0 earlier) items := by
  refine .bind (.repeatStep (fun found => ?_) _) fun _ => .pure _
  refine .look fun _ => .ite (.pure _) (.ite (.bind advance_keeps fun _ => .pure _) ?_)
  exact .bind item_keeps fun _ => .pure _

theorem file_keeps : Keeps (Reporting tokens 0 earlier) file := by
  refine Meets.bind packageClause_keeps fun outcome => ?_
  cases outcome with
  | ok clause => exact Keeps.bind items_keep fun _ => .pure _
  | error bad => exact Keeps.bind items_keep fun _ => .pure _

end Grammar

theorem reportable_of_mem_parse {tokens : List Token} {diagnostic : Diagnostic}
    (hdiagnostic : diagnostic ∈ (parse tokens).diagnostics) :
    Reportable (Cursor.ofTokens tokens).tokens 0 diagnostic := by
  have hstart : Grammar.Reporting (Cursor.ofTokens tokens).tokens 0 []
      { cursor := .ofTokens tokens } := ⟨rfl, rfl, [], rfl, List.forall_mem_nil _⟩
  obtain ⟨added, hadded, hall⟩ := (Grammar.file_keeps _ hstart).reports
  apply hall
  rw [List.nil_append] at hadded
  rw [← hadded]
  exact hdiagnostic

/-- Reading adds at most a mark of the end, which has no text. -/
theorem Cursor.oneLine_of_mem_tokens {tokens : List Token}
    (htokens : ∀ token ∈ tokens, OneLine token.value) {token : Token}
    (hmem : token ∈ (Cursor.ofTokens tokens).tokens) : OneLine token.value := by
  let code := tokens.filter (·.kind ≠ .comment)
  have hcode : ∀ token ∈ code, OneLine token.value :=
    fun token htoken => htokens token (List.mem_of_mem_filter htoken)
  have heof : (Cursor.ofTokens tokens).eof =
      (code.find? (·.kind = .eof)).getD (Cursor.closingToken code) := rfl
  obtain hahead | hlast := List.mem_append.1 hmem
  · exact hcode token ((List.takeWhile_sublist _).subset hahead)
  rw [List.mem_singleton.1 hlast, heof]
  cases hclosing : code.find? (·.kind = .eof) with
  | none => exact (by decide : OneLine "")
  | some closing => exact hcode closing (List.mem_of_find?_eq_some hclosing)

/-- The message of a diagnostic is one line, even where a token is quoted in it. -/
theorem Source.oneLine_message {source : String} {diagnostic : Diagnostic}
    (hdiagnostic : diagnostic ∈ (Source.parse source).diagnostics) :
    OneLine diagnostic.message :=
  (reportable_of_mem_parse hdiagnostic).oneLine fun _ hmem =>
    Cursor.oneLine_of_mem_tokens (fun _ htoken => (tokens_lexes source).newline_notMem_value htoken)
      hmem

end OriSyntax
