import OriSyntax.Proofs.Braces

/-!
Skipped lists.  A list that broke off is skipped past the parenthesis that closes it.
A brace ends the skip unless it stands inside a parenthesis that was opened on the way,
so the skip leaves the block around the list just when such a parenthesis is still open
at the brace that closes the block.
-/

namespace OriSyntax

/-- A row closes a brace that was not open just when some closing brace stands behind
a part of the row that leaves no brace open. -/
theorem Brace.depthAfter_eq_none_iff {depth : Nat} {row : List Brace} :
    Brace.depthAfter depth row = none ↔
      ∃ before after, row = before ++ .closing :: after ∧
        Brace.depthAfter depth before = some 0 := by
  constructor
  · intro hnone
    induction row generalizing depth with
    | nil => simp at hnone
    | cons brace row ih =>
        cases brace with
        | opening =>
            obtain ⟨before, after, rfl, hbefore⟩ := ih (by simpa using hnone)
            exact ⟨.opening :: before, after, rfl, by simpa using hbefore⟩
        | other =>
            obtain ⟨before, after, rfl, hbefore⟩ := ih (by simpa using hnone)
            exact ⟨.other :: before, after, rfl, by simpa using hbefore⟩
        | closing =>
            cases depth with
            | zero => exact ⟨[], row, rfl, rfl⟩
            | succ depth =>
                obtain ⟨before, after, rfl, hbefore⟩ := ih (by simpa using hnone)
                exact ⟨.closing :: before, after, rfl, by simpa using hbefore⟩
  · rintro ⟨before, after, rfl, hbefore⟩
    rw [Brace.depthAfter_append, hbefore]
    rfl

theorem Kind.brace_eq_closing_iff {kind : Kind} : kind.brace = .closing ↔ kind = .rbrace := by
  cases kind <;> simp [Kind.brace]

/-- The same for the braces among tokens. -/
theorem depthAfter_braces_eq_none_iff {tokens : List Token} :
    Brace.depthAfter 0 (braces tokens) = none ↔
      ∃ inside closing rest, tokens = inside ++ closing :: rest ∧
        closing.kind = .rbrace ∧ Brace.Level (braces inside) := by
  rw [Brace.depthAfter_eq_none_iff]
  constructor
  · rintro ⟨before, after, hrow, hbefore⟩
    obtain ⟨inside, last, rfl, rfl, hlast⟩ := List.map_eq_append_iff.1 hrow
    obtain ⟨closing, rest, rfl, hclosing, -⟩ := List.map_eq_cons_iff.1 hlast
    exact ⟨inside, closing, rest, rfl, Kind.brace_eq_closing_iff.1 hclosing, hbefore⟩
  · rintro ⟨inside, closing, rest, rfl, hclosing, hinside⟩
    exact ⟨braces inside, braces rest, by simp [hclosing, Kind.brace], hinside⟩

/-- Kinds that end a list, or belong to what surrounds it. -/
def Kind.endsList (kind : Kind) : Bool := kind ∈ [.rparen, .lbrace, .rbrace, .semicolon]

/-- If `outside` parentheses are open before the tokens, some are open behind them. -/
def ParenOpen (outside : Nat) (tokens : List Token) : Prop :=
  (tokens.map Token.kind).count .rparen < outside + (tokens.map Token.kind).count .lparen

instance (outside : Nat) (tokens : List Token) : Decidable (ParenOpen outside tokens) :=
  inferInstanceAs (Decidable (_ < _))

/-- Whatever could end a list stands inside a parenthesis: one of `outside` that are open
before the row, or one that the row opens. -/
def Sheltered (outside : Nat) (row : List Token) : Prop :=
  ∀ before token after, row = before ++ token :: after → token.kind.endsList →
    ParenOpen outside before

namespace Sheltered

variable {outside : Nat} {token : Token} {row : List Token}

theorem nil : Sheltered outside [] := by
  intro before token after hrow
  simp at hrow

/-- What the first token must be, and what is open behind it. -/
theorem cons_iff : Sheltered outside (token :: row) ↔
    (token.kind.endsList → 0 < outside) ∧
      ∀ before other after, row = before ++ other :: after → other.kind.endsList →
        ParenOpen outside (token :: before) := by
  constructor
  · intro hrow
    refine ⟨fun htoken => ?_, fun before other after hsplit hother => ?_⟩
    · simpa [ParenOpen] using hrow [] token row rfl htoken
    · exact hrow (token :: before) other after (by simp [hsplit]) hother
  · rintro ⟨hfirst, hrest⟩ before other after hsplit hother
    cases before with
    | nil =>
        obtain ⟨rfl, rfl⟩ := List.cons.inj hsplit
        simpa [ParenOpen] using hfirst hother
    | cons first before =>
        obtain ⟨rfl, rfl⟩ := List.cons.inj hsplit
        exact hrest before other after rfl hother

/-- Where the rule for lists goes on, the rest of the row is as sheltered as the row. -/
theorem cons_iff_of_proceed {line : Bool} {deeper : Nat}
    (hrule : Skip.list outside line token.kind = .proceed deeper) :
    Sheltered outside (token :: row) ↔ Sheltered deeper row := by
  have hfirst : token.kind.endsList → 0 < outside := by
    grind [Skip.list, Kind.endsList]
  have hopen (before : List Token) :
      ParenOpen outside (token :: before) ↔ ParenOpen deeper before := by
    unfold ParenOpen
    grind [Skip.list]
  rw [cons_iff]
  simp only [hopen]
  exact ⟨fun hrow => hrow.2, fun hrow => ⟨hfirst, hrow⟩⟩

/-- Where the rule for lists ends the skip, nothing shelters the token. -/
theorem not_cons {line : Bool}
    (hrule : ∀ deeper, Skip.list outside line token.kind ≠ .proceed deeper) :
    ¬ Sheltered outside (token :: row) := by
  rw [cons_iff]
  rintro ⟨hfirst, -⟩
  grind [Skip.list, Kind.endsList]

end Sheltered

namespace Cursor

variable {cursor stop : Cursor} {token : Token} {run rest : List Token}

theorem reads_cons_iff (hahead : cursor.ahead = token :: rest) :
    cursor.Reads (token :: run) stop ↔ cursor.next.Reads run stop := by
  have hkind : cursor.kind ≠ .eof := by simp [kind_eq_eof_iff, hahead]
  have hfirst : cursor.Reads [token] cursor.next := by
    simpa [current, hahead] using reads_next hkind
  refine ⟨fun hreads => ?_, fun hreads => hfirst.trans hreads⟩
  refine ⟨?_, ?_, ?_⟩
  · have hall := hfirst.ahead.symm.trans hreads.ahead
    exact List.cons.inj hall |>.2
  · rw [hreads.behind, hfirst.behind]
    simp
  · rw [hreads.eof, hfirst.eof]

/-- A skip that goes on reads what it would read from the next token on. -/
theorem skipAlong_reads_cons_iff {rule : Skip.Rule} {depth deeper : Nat}
    (hahead : cursor.ahead = token :: rest)
    (hrule : rule depth cursor.opensLine token.kind = .proceed deeper) :
    cursor.Reads (token :: run) (skipAlong rule (token :: rest) depth cursor) ↔
      cursor.next.Reads run (skipAlong rule rest deeper cursor.next) := by
  rw [skipAlong, hrule]
  exact reads_cons_iff hahead

/-- A skip that does not go on reads one token at most. -/
theorem not_reads_skipAlong {rule : Skip.Rule} {depth : Nat}
    (hahead : cursor.ahead = token :: rest)
    (hrule : ∀ deeper, rule depth cursor.opensLine token.kind ≠ .proceed deeper)
    (hstays : rule depth cursor.opensLine token.kind = .stop ∨ run ≠ []) :
    ¬ cursor.Reads (token :: run) (skipAlong rule (token :: rest) depth cursor) := by
  intro hreads
  rw [skipAlong] at hreads
  cases hanswer : rule depth cursor.opensLine token.kind with
  | stop =>
      rw [hanswer] at hreads
      exact List.cons_ne_nil _ _ (hreads.unique (.refl cursor))
  | finish =>
      rw [hanswer] at hreads
      have hrun := ((reads_cons_iff hahead).1 hreads).unique (.refl cursor.next)
      simp [hanswer, hrun] at hstays
  | proceed deeper => exact hrule deeper hanswer

/-- The skip of a list reads a closing brace just when no token up to it ends the skip:
each one that could stands inside a parenthesis opened on the way. -/
theorem skipAlong_list_reads_iff {closing : Token} (hclosing : closing.kind = .rbrace)
    {inside : List Token} {depth : Nat} (hahead : cursor.ahead = inside ++ closing :: rest) :
    (∃ after, cursor.Reads (inside ++ closing :: after)
        (skipAlong .list (inside ++ closing :: rest) depth cursor)) ↔
      Sheltered depth (inside ++ [closing]) := by
  induction inside generalizing depth cursor with
  | nil =>
      simp only [List.nil_append]
      cases hrule : Skip.list depth cursor.opensLine closing.kind with
      | proceed deeper =>
          rw [Sheltered.cons_iff_of_proceed hrule]
          refine ⟨fun _ => .nil, fun _ => ?_⟩
          obtain ⟨run, hrun⟩ := exists_reads_skipAlong .list rest deeper cursor.next
          exact ⟨run, (skipAlong_reads_cons_iff hahead hrule).2 hrun⟩
      | finish => grind [Skip.list]
      | stop =>
          have hends (deeper : Nat) :
              Skip.list depth cursor.opensLine closing.kind ≠ .proceed deeper := by
            simp [hrule]
          refine iff_of_false ?_ (Sheltered.not_cons hends)
          rintro ⟨after, hreads⟩
          exact not_reads_skipAlong hahead hends (.inl hrule) hreads
  | cons token inside ih =>
      have hnext : cursor.next.ahead = inside ++ closing :: rest := by
        simp [ahead_next, hahead]
      by_cases hgoes : ∃ deeper, Skip.list depth cursor.opensLine token.kind = .proceed deeper
      · obtain ⟨deeper, hrule⟩ := hgoes
        rw [List.cons_append] at hahead
        simp only [List.cons_append, skipAlong_reads_cons_iff hahead hrule]
        rw [Sheltered.cons_iff_of_proceed hrule]
        exact ih hnext
      · have hends := not_exists.1 hgoes
        refine iff_of_false ?_ (Sheltered.not_cons hends)
        rintro ⟨after, hreads⟩
        exact not_reads_skipAlong hahead hends (.inr (by simp)) hreads

theorem skip_list_reads_iff {inside : List Token} {closing : Token}
    (hahead : cursor.ahead = inside ++ closing :: rest) (hclosing : closing.kind = .rbrace) :
    (∃ after, cursor.Reads (inside ++ closing :: after) (cursor.skip .list)) ↔
      Sheltered 0 (inside ++ [closing]) := by
  rw [skip, hahead]
  exact skipAlong_list_reads_iff hclosing hahead

/-- The skip of a list reads a brace that closes what surrounds the tokens it reads just
when everything up to the first such brace that could end the list, the brace included,
stands inside a parenthesis that the skip has read and not seen closed. -/
theorem skip_list_leavesBlock_iff (cursor : Cursor) :
    ∃ run, cursor.Reads run (cursor.skip .list) ∧
      (Brace.depthAfter 0 (braces run) = none ↔
        ∃ inside closing rest, cursor.ahead = inside ++ closing :: rest ∧
          closing.kind = .rbrace ∧ Brace.Level (braces inside) ∧
          Sheltered 0 (inside ++ [closing])) := by
  obtain ⟨run, hrun⟩ := exists_reads_skipAlong .list cursor.ahead 0 cursor
  refine ⟨run, hrun, ?_⟩
  rw [depthAfter_braces_eq_none_iff]
  constructor
  · rintro ⟨inside, closing, after, rfl, hclosing, hinside⟩
    have hahead : cursor.ahead = inside ++ closing :: (after ++ (cursor.skip .list).ahead) := by
      rw [hrun.ahead]
      simp [skip]
    exact ⟨inside, closing, _, hahead, hclosing, hinside,
      (skip_list_reads_iff hahead hclosing).1 ⟨after, hrun⟩⟩
  · rintro ⟨inside, closing, rest, hahead, hclosing, hinside, hsheltered⟩
    obtain ⟨after, hreads⟩ := (skip_list_reads_iff hahead hclosing).2 hsheltered
    exact ⟨inside, closing, after, hrun.unique hreads, hclosing, hinside⟩

/-- A call with a parenthesis left open in its arguments, in the body of a function that
another function follows. -/
def openArgumentTokens : List Token :=
  [⟨.packageKw, "package", 1, 1⟩, ⟨.ident, "p", 1, 9⟩, ⟨.funcKw, "func", 2, 1⟩,
    ⟨.ident, "f", 2, 6⟩, ⟨.lparen, "(", 2, 7⟩, ⟨.rparen, ")", 2, 8⟩,
    ⟨.lbrace, "\x7b", 2, 10⟩, ⟨.ident, "g", 2, 12⟩, ⟨.lparen, "(", 2, 13⟩,
    ⟨.ident, "a", 2, 14⟩, ⟨.ident, "b", 2, 16⟩, ⟨.lparen, "(", 2, 18⟩,
    ⟨.ident, "c", 2, 19⟩, ⟨.rbrace, "\x7d", 2, 21⟩, ⟨.funcKw, "func", 3, 1⟩,
    ⟨.ident, "h", 3, 6⟩, ⟨.lparen, "(", 3, 7⟩, ⟨.rparen, ")", 3, 8⟩,
    ⟨.lbrace, "\x7b", 3, 10⟩, ⟨.rbrace, "\x7d", 3, 12⟩]

/-- The skip that begins behind the first argument reads the brace that closes the body,
and the rest of the file: no body of the file keeps its braces. -/
theorem skip_list_leavesBlock_openArgumentTokens :
    (∃ run, (Cursor.next^[10] (.ofTokens openArgumentTokens)).Reads run
        ((Cursor.next^[10] (.ofTokens openArgumentTokens)).skip .list) ∧
      Brace.depthAfter 0 (braces run) = none) ∧
      (parse openArgumentTokens).file.bracePairs = [] := by
  refine ⟨⟨openArgumentTokens.drop 10, ⟨?_, ?_, ?_⟩, ?_⟩, ?_⟩
  all_goals decide +kernel

end Cursor

end OriSyntax
