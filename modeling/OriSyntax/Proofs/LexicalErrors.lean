import OriSyntax.Proofs.DeepBlocks
import OriSyntax.Proofs.FileReports

/-!
Illegal tokens and what is reported at them.  Save where the commas of a list or what follows a
branch is complained about, an illegal token is reported with the cause that its text tells; but
beyond the limit of nesting no token is looked at, so there the limit is reported instead.
-/

namespace OriSyntax

open Source

/-- What is reported at an illegal token is that it is illegal, or that it is nested too deeply,
if it is not about the commas of a list or about what follows a branch. -/
theorem Source.illegal_of_mem_parse {source : String} {diagnostic : Diagnostic}
    (hdiagnostic : diagnostic ∈ (Source.parse source).diagnostics)
    (hgot : diagnostic.got.kind = .illegal) (hlist : diagnostic.code ≠ .malformedList)
    (hbranch : diagnostic.code ≠ .misplacedBranch) :
    diagnostic = .illegal diagnostic.got ∨
      diagnostic = .nestingTooDeep Grammar.maxNesting diagnostic.got := by
  obtain hillegal | hcode | hcode | hdeep := (reportable_of_mem_parse hdiagnostic).lexical hgot
  · exact .inl hillegal
  · exact absurd hcode hlist
  · exact absurd hcode hbranch
  · exact .inr hdeep

/-- A string that is not closed, where a value is expected. -/
def openString : Token := ⟨.illegal, "\"x", 2, 11⟩

theorem illegal_of_mem_parse_openString :
    .illegal openString ∈ (Source.parse "package p\nconst c = \"x").diagnostics ∧
      (Diagnostic.illegal openString = .illegal openString ∨
        Diagnostic.illegal openString = .nestingTooDeep Grammar.maxNesting openString) := by
  have hmem : .illegal openString ∈ (Source.parse "package p\nconst c = \"x").diagnostics := by
    decide +kernel
  exact ⟨hmem, Source.illegal_of_mem_parse hmem rfl (by decide) (by decide)⟩

/-- Tokens of one character each on a line, one right behind the other. -/
def inRow (kind : Kind) (c : Char) (line before count : Nat) : List Token :=
  (List.range count).map fun offset => ⟨kind, String.ofList [c], line, column (before + offset)⟩

/-- A character that is a token whatever follows it. -/
structure StandsAlone (kind : Kind) (c : Char) : Prop where
  head : ∀ rest, Lexeme.head c rest = ⟨kind, [c]⟩
  code : kind ≠ .comment
  visible : ¬ Lexeme.isBlank c
  oneByte : c.utf8Size = 1

theorem StandsAlone.lineTokens_cons {kind : Kind} {c : Char} (halone : StandsAlone kind c)
    (line before : Nat) (rest : List Char) : lineTokens line before (c :: rest) =
      ⟨kind, String.ofList [c], line, column before⟩ :: lineTokens line (before + 1) rest := by
  have htail : Lexeme.tail c rest = rest := by
    have hwhole := Lexeme.head_append_tail c rest
    rw [halone.head] at hwhole
    exact (List.cons.inj hwhole).2
  rw [lineTokens_lexeme _ _ halone.visible, htail, halone.head]
  simp [Lexeme.value, halone.code, halone.oneByte]

theorem StandsAlone.lineTokens_replicate {kind : Kind} {c : Char} (halone : StandsAlone kind c)
    (line before count : Nat) (rest : List Char) :
    lineTokens line before (List.replicate count c ++ rest) =
      inRow kind c line before count ++ lineTokens line (before + count) rest := by
  induction count generalizing before with
  | zero => rfl
  | succ count ih =>
      rw [List.replicate_succ, List.cons_append, halone.lineTokens_cons, ih, inRow, inRow,
        List.range_succ_eq_map, List.map_cons, List.map_map]
      simp [Function.comp_def, Nat.add_assoc, Nat.add_comm 1]

theorem standsAlone_lbrace : StandsAlone .lbrace '\x7b' :=
  ⟨fun _ => rfl, nofun, by decide, by decide⟩

set_option maxRecDepth 2000 in
theorem standsAlone_rbrace : StandsAlone .rbrace '\x7d' :=
  ⟨fun _ => rfl, nofun, by decide, by decide⟩

set_option maxRecDepth 2000 in
theorem standsAlone_illegal : StandsAlone .illegal '@' :=
  ⟨fun _ => rfl, nofun, by decide, by decide⟩

namespace Grammar

/-- A function with so many blocks in each other, and in the innermost one what is no token. -/
def illegalInBlocks (count : Nat) : String := String.ofList ("package p".toList ++ '\n' ::
  ("func f() \x7b".toList ++ '\n' :: (List.replicate count '\x7b' ++
    '@' :: List.replicate (count + 1) '\x7d')))

theorem toList_illegalInBlocks (count : Nat) : (illegalInBlocks count).toList =
    "package p".toList ++ '\n' :: ("func f() \x7b".toList ++ '\n' ::
      (List.replicate count '\x7b' ++ '@' :: List.replicate (count + 1) '\x7d')) :=
  String.toList_ofList

/-- What is no token. -/
def illegalToken (count : Nat) : Token := ⟨.illegal, "@", 3, column count⟩

/-- The tokens of the last line behind the opening braces. -/
def illegalAndClosings (count : Nat) : List Token :=
  illegalToken count :: inRow .rbrace '\x7d' 3 (count + 1) (count + 1)

theorem exists_tokens_illegalInBlocks (count : Nat) : ∃ eof, eof.kind = .eof ∧
    tokens (illegalInBlocks count) = deepHeader ++
      (inRow .lbrace '\x7b' 3 0 count ++ illegalAndClosings count) ++ [eof] := by
  have hclause : '\n' ∉ "package p".toList := by decide +kernel
  have hfunction : '\n' ∉ "func f() \x7b".toList := by decide +kernel
  have hlast : '\n' ∉ List.replicate count '\x7b' ++ '@' :: List.replicate (count + 1) '\x7d' := by
    simp
  have hheader : lineTokens 1 0 "package p".toList ++
      lineTokens 2 0 "func f() \x7b".toList = deepHeader := by
    decide +kernel
  have hclosings : lineTokens 3 (count + 1) (List.replicate (count + 1) '\x7d') =
      inRow .rbrace '\x7d' 3 (count + 1) (count + 1) := by
    simpa using standsAlone_rbrace.lineTokens_replicate 3 (count + 1) (count + 1) []
  refine ⟨⟨.eof, "", 3, column (Lexeme.byteLength (List.replicate count '\x7b' ++
    '@' :: List.replicate (count + 1) '\x7d'))⟩, rfl, ?_⟩
  rw [tokens_eq, toList_illegalInBlocks, tokensFrom_line 1 hclause, tokensFrom_line 2 hfunction,
    tokensFrom_last 3 hlast, standsAlone_lbrace.lineTokens_replicate, Nat.zero_add,
    standsAlone_illegal.lineTokens_cons, hclosings, ← hheader]
  simp only [List.append_assoc]
  rfl

/-- What was reported when a bad statement was read beyond the limit is reported for the file. -/
theorem Enclosing.Reaches.mem_parse_of_bad {context : Enclosing} {levels : Nat}
    {tokens rest : List Token} {found : List Stmt} {bad : BadNode} {here : State}
    {previous first : Token} (hreaches : context.Reaches levels tokens (.bad bad :: found) here)
    (hlimit : maxNesting ≤ here.nesting) (hahead : here.cursor.ahead = first :: rest)
    (hbehind : here.cursor.behind.head? = some previous) (hends : EndsStmt previous first)
    {diagnostic : Diagnostic} (hdiagnostic : diagnostic ∈ here.diagnostics.toList) :
    diagnostic ∈ (parse tokens).diagnostics := by
  -- Two runs that meet again tell the same from there on; here both are the same run.
  have hsame : here.SameAhead here := ⟨by rintro hnil; simp [hnil] at hbehind, rfl, rfl, rfl, rfl⟩
  have hlist : Accords (fun state state' => state = here ∧ state' = here)
      (restOfStmts (nested levels) context.stops (.bad bad :: found))
      (restOfStmts (nested levels) context.stops found) _ _ :=
    restOfStmts_accords_at_limit hsame hlimit hahead hbehind hends hbehind (Nat.le_refl _)
  have hfile : Accords _ (context.plug levels _) (context.plug levels _) _ _ :=
    context.plug_accords hlist
  obtain ⟨-, -, more, hmore, -⟩ := hfile here here ⟨rfl, rfl⟩
  have hparse : (parse tokens).diagnostics = here.diagnostics.toList ++ more := by
    rw [hreaches.parse_eq]
    exact hmore
  rw [hparse]
  exact List.mem_append_left more hdiagnostic

/-- The last of the opening braces. -/
def lastOpening : Token := ⟨.lbrace, "\x7b", 3, column 999⟩

theorem exists_reaches_illegalInBlocks : ∃ here : State,
    (deepFunction.blocks (inRow .lbrace '\x7b' 3 0 maxNesting)).Reaches 0
      (tokens (illegalInBlocks maxNesting)) [] here ∧
    maxNesting ≤ here.nesting ∧ here.cursor.behind.head? = some lastOpening ∧
    here.cursor.ahead = illegalAndClosings maxNesting := by
  let openings := inRow .lbrace '\x7b' 3 0 maxNesting
  have hlength : openings.length = maxNesting := by simp [openings, inRow]
  have hkinds : ∀ opening ∈ openings, opening.kind = .lbrace := by simp [openings, inRow]
  have hlast : openings.getLast? = some lastOpening := by
    simp [openings, inRow, lastOpening, List.getLast?_range, maxNesting]
  obtain ⟨eof, heof, htokens⟩ := exists_tokens_illegalInBlocks maxNesting
  have hwritten : ∀ token ∈ deepHeader ++ (openings ++ illegalAndClosings maxNesting),
      token.kind.isWritten := by
    have hheader : ∀ token ∈ deepHeader, token.kind.isWritten := by decide
    refine List.forall_mem_append.2 ⟨hheader, List.forall_mem_append.2 ⟨?_, ?_⟩⟩
    · exact fun token htoken => hkinds token htoken ▸ rfl
    · simp [illegalAndClosings, illegalToken, inRow, Kind.isWritten]
  have hahead : (initialState (tokens (illegalInBlocks maxNesting))).cursor.ahead =
      deepHeader ++ (openings ++ illegalAndClosings maxNesting) := by
    rw [htokens]
    exact Cursor.ahead_ofTokens_append hwritten (by simpa using heof)
  obtain ⟨body, hbody, hheader, hnesting, -, -⟩ := exists_reaches_deepFunction hahead
  have hbodyAhead : body.cursor.ahead = openings ++ illegalAndClosings maxNesting :=
    List.append_cancel_left (hheader.ahead.symm.trans hahead)
  have hbody : deepFunction.Reaches (0 + openings.length)
      (tokens (illegalInBlocks maxNesting)) [] body := by
    rw [hlength, Nat.zero_add]
    exact hbody
  obtain ⟨here, hhere, hopenings, hnesting', -, -⟩ := hbody.blocks hbodyAhead hkinds (by omega)
  exact ⟨here, hhere, by omega, hopenings.head?_behind hlast,
    List.append_cancel_left (hopenings.ahead.symm.trans hbodyAhead)⟩

/-- In the innermost of as many blocks as may be, the token is one level too deep. -/
theorem nestingTooDeep_mem_illegalInBlocks :
    .nestingTooDeep maxNesting (illegalToken maxNesting) ∈
      (Source.parse (illegalInBlocks maxNesting)).diagnostics := by
  let context := deepFunction.blocks (inRow .lbrace '\x7b' 3 0 maxNesting)
  obtain ⟨here, hreaches, hlimit, hbehind, hclosings⟩ := exists_reaches_illegalInBlocks
  obtain ⟨rest, hahead⟩ : ∃ rest, here.cursor.ahead = [illegalToken maxNesting] ++
      ⟨.rbrace, "\x7d", 3, column (maxNesting + 1)⟩ :: rest := by
    rw [hclosings, illegalAndClosings, inRow, List.range_succ_eq_map, List.map_cons]
    exact ⟨_, rfl⟩
  have hline : RestOfStmt lastOpening [illegalToken maxNesting]
      ⟨.rbrace, "\x7d", 3, column (maxNesting + 1)⟩ :=
    .of_plain (by simp [illegalToken, lastOpening]) (.inl (by simp))
  have hreads := Cursor.reads_skip_statement hbehind hahead hline
  have hrest := List.append_cancel_left (hreads.ahead.symm.trans hahead)
  have hkind : here.cursor.kind = .illegal := Cursor.kind_of_ahead_eq_cons hahead
  have hstops : context.stops here.cursor.kind = false :=
    context.stops_eq_false (by simp [hkind])
  have hstmt := nested_stmt_at_limit 0 hlimit
  rw [Cursor.current_of_cons hahead] at hstmt
  have hround := stmtPass_round (by simp [hkind]) hstops (by simp [hkind]) hstmt hreads
    (List.cons_ne_nil _ _) []
  exact (hreaches.round hround).mem_parse_of_bad hlimit hrest (hreads.head?_behind rfl)
    hline.ends (by simp [State.tell, State.moveTo])

/-- There the illegal token does not keep its own code. -/
theorem not_forall_illegal_illegalInBlocks :
    ¬ ∀ diagnostic ∈ (Source.parse (illegalInBlocks maxNesting)).diagnostics,
      diagnostic.got.kind = .illegal → diagnostic = .illegal diagnostic.got := by
  intro hall
  have hcode := congrArg Diagnostic.code (hall _ nestingTooDeep_mem_illegalInBlocks rfl)
  exact absurd hcode (by decide)

end Grammar

end OriSyntax
