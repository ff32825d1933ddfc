import OriSyntax.Proofs.Lossless

/-!
Braces that a tree stores.  If delimiters are nested properly in the text, the two braces
of each body match each other there, unless an opening brace was given up alone.
-/

namespace OriSyntax

open Grammar

/-- The braces of a body. -/
def Enclosed.braces {α : Type} (enclosed : Enclosed α) : Token × Token :=
  (enclosed.opening, enclosed.closing)

mutual

/-- The braces of the bodies in a statement. -/
def Stmt.bracePairs : Stmt → List (Token × Token)
  | .block body => Stmt.bracePairsOfBlock body
  | .ifElse _ _ body otherwise => Stmt.bracePairsOfBlock body ++ Stmt.bracePairs? otherwise
  | .forLoop _ first _ after body =>
      Stmt.bracePairs? first ++ Stmt.bracePairs? after ++ Stmt.bracePairsOfBlock body
  | .rangeLoop _ _ _ _ _ _ body => Stmt.bracePairsOfBlock body
  | .switch _ first _ cases => Stmt.bracePairs? first ++ Stmt.bracePairsOfBlock cases
  | .clause _ _ _ body => Stmt.bracePairsOfAll body
  | .decl decl => decl.bracePairs
  | .const _ | .var _ | .assign .. | .incDec .. | .effect _ | .returns .. | .breakLoop _
  | .continueLoop _ | .fallThrough _ | .bad _ => []

/-- The braces of a body and of the bodies in it. -/
def Stmt.bracePairsOfBlock : Enclosed Stmt → List (Token × Token)
  | ⟨opening, stmts, closing⟩ => (opening, closing) :: Stmt.bracePairsOfAll stmts

/-- The braces of the bodies in a statement that may be missing. -/
def Stmt.bracePairs? : Option Stmt → List (Token × Token)
  | none => []
  | some stmt => stmt.bracePairs

/-- The braces of the bodies in statements in a row. -/
def Stmt.bracePairsOfAll : List Stmt → List (Token × Token)
  | [] => []
  | stmt :: rest => stmt.bracePairs ++ Stmt.bracePairsOfAll rest

/-- The braces of the bodies in a function. -/
def FuncDecl.bracePairs : FuncDecl → List (Token × Token)
  | ⟨_, _, _, _, body⟩ => Stmt.bracePairsOfBlock body

/-- The braces of the bodies in a declaration. -/
def Decl.bracePairs : Decl → List (Token × Token)
  | .func decl => decl.bracePairs
  | .struct decl => [decl.body.braces]
  | .interface decl => [decl.body.braces]
  | .enum decl => [decl.body.braces]
  | .sum decl => [decl.body.braces]
  | .implements _ | .bad _ => []

end

/-- The braces of the bodies in a top-level item. -/
def Item.bracePairs : Item → List (Token × Token)
  | .const stmt => stmt.bracePairs
  | .decl inner => inner.bracePairs
  | .struct type => [type.body.braces]
  | .interface type => [type.body.braces]
  | .enum type => [type.body.braces]
  | .sum type => [type.body.braces]
  | .implements _ => []

/-- The braces that a file stores, body by body. -/
def File.bracePairs (file : File) : List (Token × Token) := file.items.flatMap Item.bracePairs

/-- Among the pieces two braces enclose others that are closed. -/
def Encloses (pieces : List Piece) (pair : Token × Token) : Prop :=
  ∃ inside, .opens pair.1 :: inside ++ [.closes pair.2] <:+: pieces ∧ Closed inside

namespace Encloses

variable {pieces all : List Piece} {pair : Token × Token}

theorem of_infix (hencloses : Encloses pieces pair) (hpieces : pieces <:+: all) :
    Encloses all pair := by
  obtain ⟨inside, hinside, hclosed⟩ := hencloses
  exact ⟨inside, hinside.trans hpieces, hclosed⟩

theorem append_left (hencloses : Encloses pieces pair) (before : List Piece) :
    Encloses (before ++ pieces) pair :=
  hencloses.of_infix (List.suffix_append _ _).isInfix

theorem append_right (hencloses : Encloses pieces pair) (after : List Piece) :
    Encloses (pieces ++ after) pair :=
  hencloses.of_infix (List.prefix_append _ _).isInfix

end Encloses

theorem TypeDecl.encloses {α : Type} {pieces : α → List Piece} {decl : TypeDecl α}
    (hpieces : ∀ member, Flat (pieces member)) :
    Encloses (decl.pieces pieces) decl.body.braces := by
  have hbody : Encloses (decl.body.bodyPieces pieces) decl.body.braces :=
    ⟨_, List.infix_rfl, .flatMap fun member _ => (hpieces member).closed⟩
  exact hbody.append_left [.token decl.typeKeyword, .token decl.name, .token decl.keyword]

mutual

theorem Stmt.encloses (stmt : Stmt) {pair : Token × Token} (hpair : pair ∈ stmt.bracePairs) :
    Encloses stmt.pieces pair := by
  match stmt with
  | .block body => exact Stmt.encloses_block body hpair
  | .ifElse keyword condition body otherwise =>
      rcases List.mem_append.1 hpair with hpair | hpair
      · exact ((Stmt.encloses_block body hpair).append_left _).append_right _
      · exact (Stmt.encloses? otherwise hpair).append_left _
  | .forLoop keyword first condition after body =>
      rcases List.mem_append.1 hpair with hpair | hpair
      · rcases List.mem_append.1 hpair with hpair | hpair
        · exact ((((Stmt.encloses? first hpair).append_left [.token keyword]).append_right
            _).append_right _).append_right _
        · exact ((Stmt.encloses? after hpair).append_left _).append_right _
      · exact (Stmt.encloses_block body hpair).append_left _
  | .rangeLoop keyword key value op rangeKeyword subject body =>
      exact (Stmt.encloses_block body hpair).append_left _
  | .switch keyword first tag cases =>
      rcases List.mem_append.1 hpair with hpair | hpair
      · exact (((Stmt.encloses? first hpair).append_left [.token keyword]).append_right
          _).append_right _
      · exact (Stmt.encloses_block cases hpair).append_left _
  | .clause keyword values colon body =>
      exact ((Stmt.encloses_all body hpair).append_left [.token colon]).append_left _
  | .decl inner => exact inner.encloses hpair
  | .const _ | .var _ | .assign .. | .incDec .. | .effect _ | .returns .. | .breakLoop _
  | .continueLoop _ | .fallThrough _ | .bad _ => exact nomatch hpair

theorem Stmt.encloses_block (block : Enclosed Stmt) {pair : Token × Token}
    (hpair : pair ∈ Stmt.bracePairsOfBlock block) :
    Encloses (Stmt.piecesOfBlock block) pair := by
  match block with
  | ⟨opening, stmts, closing⟩ =>
      rcases List.mem_cons.1 hpair with rfl | hpair
      · exact ⟨_, List.infix_rfl, Stmt.closed_piecesOfAll stmts⟩
      · exact ((Stmt.encloses_all stmts hpair).append_left [.opens opening]).append_right _

theorem Stmt.encloses? (stmt : Option Stmt) {pair : Token × Token}
    (hpair : pair ∈ Stmt.bracePairs? stmt) : Encloses (Stmt.pieces? stmt) pair := by
  match stmt with
  | none => exact nomatch hpair
  | some stmt => exact stmt.encloses hpair

theorem Stmt.encloses_all (stmts : List Stmt) {pair : Token × Token}
    (hpair : pair ∈ Stmt.bracePairsOfAll stmts) : Encloses (Stmt.piecesOfAll stmts) pair := by
  match stmts with
  | [] => exact nomatch hpair
  | stmt :: rest =>
      rcases List.mem_append.1 hpair with hpair | hpair
      · exact (stmt.encloses hpair).append_right _
      · exact (Stmt.encloses_all rest hpair).append_left _

theorem FuncDecl.encloses (decl : FuncDecl) {pair : Token × Token}
    (hpair : pair ∈ decl.bracePairs) : Encloses decl.pieces pair := by
  match decl with
  | ⟨keyword, name, params, results, body⟩ =>
      exact (Stmt.encloses_block body hpair).append_left _

theorem Decl.encloses (decl : Decl) {pair : Token × Token} (hpair : pair ∈ decl.bracePairs) :
    Encloses decl.pieces pair := by
  match decl with
  | .func inner => exact inner.encloses hpair
  | .struct inner =>
      obtain rfl := List.mem_singleton.1 hpair
      exact TypeDecl.encloses FieldDecl.flat_pieces
  | .interface inner =>
      obtain rfl := List.mem_singleton.1 hpair
      exact TypeDecl.encloses InterfaceMember.flat_pieces
  | .enum inner =>
      obtain rfl := List.mem_singleton.1 hpair
      exact TypeDecl.encloses fun _ => by simp
  | .sum inner =>
      obtain rfl := List.mem_singleton.1 hpair
      exact TypeDecl.encloses SumVariant.flat_pieces
  | .implements _ | .bad _ => exact nomatch hpair

end

theorem Item.encloses (item : Item) {pair : Token × Token} (hpair : pair ∈ item.bracePairs) :
    Encloses item.pieces pair := by
  cases item with
  | const stmt => exact stmt.encloses hpair
  | decl inner => exact inner.encloses hpair
  | struct inner => exact Decl.encloses (.struct inner) hpair
  | interface inner => exact Decl.encloses (.interface inner) hpair
  | enum inner => exact Decl.encloses (.enum inner) hpair
  | sum inner => exact Decl.encloses (.sum inner) hpair
  | implements inner => exact nomatch hpair

/-- No body stands in a bad node. -/
theorem not_encloses_bad (bad : BadNode) (pair : Token × Token) : ¬ Encloses [.bad bad] pair := by
  intro hcase
  rcases hcase with ⟨inside, hinfix, -⟩
  have hopens : Piece.opens pair.1 ∈ [Piece.bad bad] := hinfix.subset (by simp)
  simp at hopens

/-- Two braces of the text match if the delimiters between them are nested properly. -/
def Matches (tokens : List Token) (pair : Token × Token) : Prop :=
  pair.1.kind = .lbrace ∧ pair.2.kind = .rbrace ∧ ∃ before inside after,
    tokens = before ++ pair.1 :: inside ++ pair.2 :: after ∧ ProperlyNested inside

theorem eq_take_append_cons_drop {tokens : List Token} {place : Nat} {token : Token}
    (htoken : tokens[place]? = some token) :
    tokens = tokens.take place ++ token :: tokens.drop (place + 1) := by
  obtain ⟨hplace, rfl⟩ := List.getElem?_eq_some_iff.1 htoken
  rw [← List.drop_eq_getElem_cons hplace, List.take_append_drop]

/-- The same, by the places of the two braces. -/
theorem matches_iff {tokens : List Token} {pair : Token × Token} :
    Matches tokens pair ↔ pair.1.kind = .lbrace ∧ pair.2.kind = .rbrace ∧
      ∃ last < tokens.length, ∃ first < last,
        tokens[first]? = some pair.1 ∧ tokens[last]? = some pair.2 ∧
          ProperlyNested ((tokens.take last).drop (first + 1)) := by
  refine and_congr_right fun _ => and_congr_right fun _ => ⟨?_, ?_⟩
  · intro hcase
    rcases hcase with ⟨before, inside, after, rfl, hnested⟩
    refine ⟨(before ++ pair.1 :: inside).length, ?_, before.length, ?_, ?_, ?_, ?_⟩
    · simp
    · simp
    · simp
    · simp
    · rw [List.take_left, List.append_cons, List.drop_left' (by simp)]
      exact hnested
  · intro hcase
    rcases hcase with ⟨last, hlast, first, hfirst, hopening, hclosing, hnested⟩
    have hinner : (tokens.take last)[first]? = some pair.1 := by
      rw [List.getElem?_take_of_lt hfirst, hopening]
    refine ⟨(tokens.take last).take first, _, tokens.drop (last + 1), ?_, hnested⟩
    rw [← eq_take_append_cons_drop hinner]
    exact eq_take_append_cons_drop hclosing

instance (tokens : List Token) (pair : Token × Token) : Decidable (Matches tokens pair) :=
  decidable_of_iff _ matches_iff.symm

/-- Behind an open brace that is not closed in a row, the rest of the stack is untouched.
The braces of the row tell that it is not closed. -/
theorem openAfter_inner {stack inner reached : List Kind} {run : List Token} {depth : Nat}
    (hrun : openAfter (inner ++ .lbrace :: stack) run = some reached)
    (hdepth : Brace.depthAfter (inner.count .lbrace) (braces run) = some depth) :
    ∃ left, openAfter inner run = some left ∧ reached = left ++ .lbrace :: stack ∧
      left.count .lbrace = depth := by
  induction run generalizing inner with
  | nil => exact ⟨inner, rfl, (Option.some.inj hrun).symm, Option.some.inj hdepth⟩
  | cons token rest ih =>
      rw [openAfter_cons] at hrun
      obtain ⟨behind, hbehind, hrest⟩ := Option.bind_eq_some_iff.1 hrun
      rw [braces_cons] at hdepth
      rcases Kind.openBehind_cases hbehind with
        ⟨hkind, rfl⟩ | ⟨opener, hopener, hstack⟩ | ⟨hkind, hopener, rfl⟩
      · rw [Kind.depthAfter_opener hkind] at hdepth
        rw [openAfter_cons, Kind.openBehind_opener hkind]
        exact ih hrest hdepth
      · cases inner with
        | nil =>
            -- It would close the brace below, which no brace of the row does.
            obtain ⟨rfl, rfl⟩ := List.cons.inj hstack
            rw [Kind.eq_rbrace_of_opener? hopener] at hdepth
            exact nomatch hdepth
        | cons top inner =>
            obtain ⟨rfl, rfl⟩ := List.cons.inj hstack
            rw [Kind.depthAfter_closer hopener] at hdepth
            rw [openAfter_cons, Kind.openBehind_closer hopener]
            exact ih hrest hdepth
      · rw [Kind.depthAfter_neither hkind hopener] at hdepth
        rw [openAfter_cons, Kind.openBehind_neither hkind hopener]
        exact ih hrest hdepth

/-- Between two braces of which the second closes what the first opens, delimiters are
nested properly if braces are. -/
theorem properlyNested_of_level {stack : List Kind} {opening closing : Token}
    {run rest : List Token} (hopening : opening.kind = .lbrace) (hclosing : closing.kind = .rbrace)
    (hnests : (openAfter stack (opening :: run ++ closing :: rest)).isSome)
    (hlevel : Brace.Level (braces run)) : ProperlyNested run := by
  obtain ⟨reached, hreached, hrest⟩ := openAfter_rest hnests
  have hopen : openAfter ([] ++ .lbrace :: stack) run = some reached := by
    rw [openAfter_cons, Kind.openBehind_opener (by rw [hopening]; rfl), hopening] at hreached
    exact hreached
  obtain ⟨left, hleft, rfl, hcount⟩ := openAfter_inner hopen hlevel
  cases left with
  | nil => exact hleft
  | cons top left =>
      by_cases htop : top = .lbrace
      · simp [htop] at hcount
      · simp [hclosing, Kind.openBehind, Kind.opener?, htop] at hrest

/-- Comments open and close nothing. -/
theorem openAfter_filter_comment (stack : List Kind) (tokens : List Token) :
    openAfter stack (tokens.filter (·.kind ≠ .comment)) = openAfter stack tokens := by
  induction tokens generalizing stack with
  | nil => rfl
  | cons token rest ih =>
      by_cases hcomment : token.kind = .comment
      · have hneither : token.kind.openBehind stack = some stack := by
          rw [hcomment]
          rfl
        rw [List.filter_cons_of_neg (by simp [hcomment]), ih, openAfter_cons, hneither]
        rfl
      · rw [List.filter_cons_of_pos (by simp [hcomment]), openAfter_cons, openAfter_cons]
        simp only [ih]

/-- Braces that match where comments were left out match in the text. -/
theorem Matches.of_ahead {tokens : List Token} {pair : Token × Token}
    (hmatches : Matches (Cursor.ofTokens tokens).ahead pair) : Matches tokens pair := by
  obtain ⟨hopening, hclosing, before, run, after, hahead, hnested⟩ := hmatches
  refine ⟨hopening, hclosing, ?_⟩
  rw [Cursor.ahead_ofTokens, List.append_assoc, List.filter_eq_append_iff] at hahead
  obtain ⟨first, second, htokens, -, hsecond⟩ := hahead
  rw [List.cons_append, List.filter_eq_cons_iff] at hsecond
  obtain ⟨gap, third, rfl, -, -, hthird⟩ := hsecond
  obtain ⟨inside, fourth, rfl, hinside, hfourth⟩ := List.filter_eq_append_iff.1 hthird
  obtain ⟨comments, last, rfl, hcomments, -, -⟩ := List.filter_eq_cons_iff.1 hfourth
  refine ⟨first ++ gap, inside ++ comments, last ++ tokens.dropWhile (·.kind ≠ .eof), ?_, ?_⟩
  · have hsplit : tokens.takeWhile (·.kind ≠ .eof) ++ tokens.dropWhile (·.kind ≠ .eof) =
        tokens := List.takeWhile_append_dropWhile
    rw [htokens] at hsplit
    simpa using hsplit.symm
  · have hnone : comments.filter (·.kind ≠ .comment) = [] := List.filter_eq_nil_iff.2 hcomments
    rw [ProperlyNested, ← openAfter_filter_comment, List.filter_append, hinside, hnone,
      List.append_nil]
    exact hnested

theorem Matches.append_left {tokens : List Token} {pair : Token × Token}
    (hmatches : Matches tokens pair) (earlier : List Token) :
    Matches (earlier ++ tokens) pair := by
  obtain ⟨hopening, hclosing, before, inside, after, rfl, hnested⟩ := hmatches
  exact ⟨hopening, hclosing, earlier ++ before, inside, after, by simp, hnested⟩

/-- Where braces given up are closed, the bodies among the pieces match in the text. -/
theorem Covers.matches {ordered calm : Prop} {start stop : Cursor} {pieces : List Piece}
    {pair : Token × Token} {stack : List Kind}
    (hcovers : Covers ordered calm start pieces stop) (hcalm : calm)
    (hnests : (openAfter stack start.ahead).isSome) (hencloses : Encloses pieces pair) :
    Matches start.ahead pair := by
  obtain ⟨inside, ⟨before, after, rfl⟩, hclosed⟩ := hencloses
  rw [List.append_assoc, List.append_assoc, List.cons_append, List.singleton_append] at hcovers
  obtain ⟨here, hbefore, hrest⟩ := hcovers.split
  obtain ⟨opening, hgap, hopening, hrest⟩ := hrest.exists_stored rfl
  obtain ⟨behind, hinside, hrest⟩ := hrest.split
  obtain ⟨closing, hlater, hclosing, -⟩ := hrest.exists_stored rfl
  obtain ⟨run, hrun, hdepth⟩ := (hinside.trans hlater).depthAfter_eq hcalm hclosing.ne_eof
  have hlevel : Brace.Level (braces run) := by
    rw [List.append_nil] at hdepth
    rw [Brace.Level, hdepth]
    exact hclosed
  obtain ⟨earlier, hearlier⟩ := (hbefore.trans hgap).exists_reads
  have hahead : start.ahead = earlier ++ opening.current :: run ++ closing.current ::
      closing.next.ahead := by
    rw [hearlier.ahead, Cursor.ahead_eq_cons hopening.ne_eof, hrun.ahead,
      Cursor.ahead_eq_cons hclosing.ne_eof]
    simp
  obtain ⟨hopens, hopeningKind⟩ := hopening
  obtain ⟨hcloses, hclosingKind⟩ := hclosing
  rw [hahead, List.append_assoc] at hnests
  obtain ⟨reached, -, hnests⟩ := openAfter_rest hnests
  refine ⟨hopens ▸ hopeningKind, hcloses ▸ hclosingKind, earlier, run, closing.next.ahead, ?_, ?_⟩
  · rw [hopens, hcloses]
    exact hahead
  · exact properlyNested_of_level hopeningKind hclosingKind hnests hlevel

theorem openAfter_tokens_ofTokens {tokens : List Token} (hnested : ProperlyNested tokens) :
    (openAfter [] (Cursor.ofTokens tokens).tokens).isSome := by
  have hsplit : tokens.takeWhile (·.kind ≠ .eof) ++ tokens.dropWhile (·.kind ≠ .eof) = tokens :=
    List.takeWhile_append_dropWhile
  have hnests : (openAfter [] tokens).isSome := by rw [hnested, Option.isSome_some]
  rw [← hsplit] at hnests
  obtain ⟨reached, hreached, -⟩ := openAfter_rest hnests
  have hend : (Cursor.ofTokens tokens).eof.kind.openBehind reached = some reached := by
    rw [(Cursor.ofTokens tokens).eof_kind]
    rfl
  change (openAfter [] ([] ++ (Cursor.ofTokens tokens).ahead ++
    [(Cursor.ofTokens tokens).eof])).isSome
  rw [List.nil_append, openAfter_append, Cursor.ahead_ofTokens, openAfter_filter_comment, hreached,
    Option.bind_some, openAfter_cons, hend]
  rfl

/-- If delimiters are nested properly and no opening brace is given up alone, the braces
of each body in the tree match each other in the text. -/
theorem bracePairs_match (tokens : List Token) (hnested : ProperlyNested tokens)
    (hkept : ∀ diagnostic ∈ (parse tokens).diagnostics,
      ¬ GivesUpBrace (Cursor.ofTokens tokens).tokens diagnostic) :
    ∀ pair ∈ (parse tokens).file.bracePairs, Matches tokens pair := by
  obtain ⟨stop, hfiled, hend, hdiagnostics⟩ := parse_filed tokens
  intro pair hpair
  obtain ⟨item, hitem, hpair⟩ := List.mem_flatMap.1 hpair
  have hencloses := item.encloses hpair
  rcases hfiled.whole hitem with ⟨bad, hbad⟩ | ⟨first, last, hfirst, hlast, hcovers⟩
  · rw [hbad] at hencloses
    exact absurd hencloses (not_encloses_bad bad pair)
  · have hnests := openAfter_tokens_ofTokens hnested
    have htokens : stop.cursor.tokens = (Cursor.ofTokens tokens).tokens := by
      obtain ⟨items, -, hall, -⟩ := hfiled.exists_items
      obtain ⟨run, hrun⟩ := hall.exists_reads
      exact hrun.tokens
    have hcalm : stop.Calm := by
      refine ⟨htokens ▸ hnests, fun diagnostic hdiagnostic => ?_⟩
      rw [htokens]
      exact hkept diagnostic (hdiagnostics ▸ hdiagnostic)
    obtain ⟨stack, hstack⟩ := Cursor.exists_stack (hfirst.tokens ▸ hnests)
    obtain ⟨run, hrun⟩ := hfirst.reads
    have hmatches := (hcovers.matches hcalm hstack hencloses).append_left run
    rw [← hrun.ahead] at hmatches
    exact hmatches.of_ahead

theorem bracePairs_match_brokenTokens :
    (parse brokenTokens).diagnostics ≠ [] ∧ (parse brokenTokens).file.bracePairs ≠ [] ∧
      ∀ pair ∈ (parse brokenTokens).file.bracePairs, Matches brokenTokens pair := by
  have hgot : ∀ diagnostic ∈ (parse brokenTokens).diagnostics,
      diagnostic.got.kind ≠ .lbrace := by decide +kernel
  refine ⟨by decide +kernel, by decide +kernel, bracePairs_match brokenTokens ?_ ?_⟩
  · decide
  · exact fun diagnostic hdiagnostic hgives => hgot diagnostic hdiagnostic hgives.1

/-- A body where a clause of a `switch` should stand. -/
def strayBodyTokens : List Token :=
  [⟨.packageKw, "package", 1, 1⟩, ⟨.ident, "p", 1, 9⟩, ⟨.funcKw, "func", 2, 1⟩,
    ⟨.ident, "f", 2, 6⟩, ⟨.lparen, "(", 2, 7⟩, ⟨.rparen, ")", 2, 8⟩,
    ⟨.lbrace, "\x7b", 2, 10⟩, ⟨.switchKw, "switch", 2, 12⟩, ⟨.ident, "x", 2, 19⟩,
    ⟨.lbrace, "\x7b", 2, 21⟩, ⟨.lbrace, "\x7b", 2, 23⟩, ⟨.ident, "a", 2, 25⟩,
    ⟨.lparen, "(", 2, 26⟩, ⟨.rparen, ")", 2, 27⟩, ⟨.rbrace, "\x7d", 2, 29⟩,
    ⟨.rbrace, "\x7d", 2, 31⟩, ⟨.rbrace, "\x7d", 2, 33⟩]

/-- The opening brace of the stray body is given up alone, so its closing brace ends the
`switch`, and that of the `switch` ends the function. -/
theorem bracePairs_mismatch_strayBodyTokens :
    ProperlyNested strayBodyTokens ∧ strayBodyTokens.length < maxNesting ∧
      (parse strayBodyTokens).file.bracePairs ≠ [] ∧
        ∀ pair ∈ (parse strayBodyTokens).file.bracePairs, ¬ Matches strayBodyTokens pair := by
  refine ⟨by decide, by decide, by decide +kernel, by decide +kernel⟩

end OriSyntax
