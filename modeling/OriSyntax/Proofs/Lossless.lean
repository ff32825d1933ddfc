import Mathlib.Data.Fin.Basic
import Mathlib.Data.List.Perm.Subperm
import Mathlib.Data.List.TakeWhile
import OriSyntax.Grammar.File
import OriSyntax.Proofs.FileAccounts

/-!
Nothing is lost when a file is read.  Every mistake is a bad node of the tree and has a
diagnostic of its own.  Without mistakes the tree stores the tokens of the file, and with
them each token is stored or lies within the span of a bad node.
-/

namespace OriSyntax

open Grammar

/-- The tokens that a tree should store: those before the end of the file that are neither
comments nor separators. -/
def significant (tokens : List Token) : List Token :=
  (tokens.takeWhile (·.kind ≠ .eof)).filter
    (·.kind ∉ [.comment, .semicolon, .comma, .elseKw])

theorem Token.le_endPosition {token : Token} (hfits : token.column ≤ maxCoordinate) :
    token.position ≤ token.endPosition := by
  unfold Token.endPosition
  split
  · next habsent =>
      have hnowhere : token.position = .nowhere := by simpa [Token.isAbsent] using habsent
      rw [hnowhere]
      exact Position.le_refl _
  · rw [Position.le_def]
    exact .inr ⟨rfl, Nat.le_min.2 ⟨Nat.le_add_right _ _, hfits⟩⟩

namespace Cursor

theorem ahead_ofTokens (tokens : List Token) :
    (ofTokens tokens).ahead =
      (tokens.takeWhile (·.kind ≠ .eof)).filter (·.kind ≠ .comment) := by
  change (tokens.filter (·.kind ≠ .comment)).takeWhile (·.kind ≠ .eof) = _
  induction tokens with
  | nil => rfl
  | cons token rest ih =>
      by_cases hcomment : token.kind = .comment
      · simpa [hcomment] using ih
      · by_cases heof : token.kind = .eof
        · simp [heof]
        · simpa [hcomment, heof] using ih

theorem filter_ahead_ofTokens (tokens : List Token) :
    (ofTokens tokens).ahead.filter (fun token => !token.kind.isSeparator) =
      significant tokens := by
  rw [ahead_ofTokens, List.filter_filter, significant]
  apply List.filter_congr
  intro token _
  cases token.kind <;> rfl

/-- The token that closes a list stands behind all of its tokens. -/
theorem le_closingToken {tokens : List Token}
    (hordered : tokens.Pairwise fun first second => first.position ≤ second.position)
    (hfits : ∀ token ∈ tokens, token.column ≤ maxCoordinate) {token : Token}
    (htoken : token ∈ tokens) : token.position ≤ (closingToken tokens).position := by
  obtain ⟨before, last, hconcat⟩ := (List.eq_nil_or_concat tokens).resolve_left
    (List.ne_nil_of_mem htoken)
  rw [List.concat_eq_append] at hconcat
  subst hconcat
  have hclosing : (closingToken (before ++ [last])).position = last.endPosition := by
    simp [closingToken, Token.position]
  rw [hclosing]
  apply Position.le_trans _ (Token.le_endPosition (hfits last (by simp)))
  rcases List.mem_append.1 htoken with htoken | htoken
  · exact (List.pairwise_append.1 hordered).2.2 token htoken last List.mem_cons_self
  · obtain rfl := List.mem_singleton.1 htoken
    exact Position.le_refl _

/-- The end-of-file token stands behind the tokens that are read before it. -/
theorem le_eof_ofTokens {tokens : List Token}
    (hordered : tokens.Pairwise fun first second => first.position ≤ second.position)
    (hfits : ∀ token ∈ tokens, token.column ≤ maxCoordinate) {token : Token}
    (htoken : token ∈ (ofTokens tokens).ahead) :
    token.position ≤ (ofTokens tokens).eof.position := by
  let code := tokens.filter (·.kind ≠ .comment)
  have hcode : code.Sublist tokens := List.filter_sublist
  have hplaces := hordered.sublist hcode
  change token ∈ code.takeWhile (·.kind ≠ .eof) at htoken
  change token.position ≤ ((code.find? (·.kind = .eof)).getD (closingToken code)).position
  cases hclosing : code.find? (·.kind = .eof) with
  | none =>
      apply le_closingToken hplaces (fun other hother => hfits other (hcode.subset hother))
      exact (List.takeWhile_sublist _).subset htoken
  | some closing =>
      have hsplit : code.takeWhile (·.kind ≠ .eof) ++ code.dropWhile (·.kind ≠ .eof) = code :=
        List.takeWhile_append_dropWhile
      rw [← hsplit, List.pairwise_append] at hplaces
      refine hplaces.2.2 token htoken closing (List.mem_of_mem_head? ?_)
      rw [List.find?_eq_head?_dropWhile_not] at hclosing
      simpa using hclosing

theorem ordered_ofTokens {tokens : List Token}
    (hordered : tokens.Pairwise fun first second => first.position ≤ second.position)
    (hfits : ∀ token ∈ tokens, token.column ≤ maxCoordinate) : (ofTokens tokens).Ordered := by
  have hahead : (ofTokens tokens).ahead.Sublist tokens := by
    rw [ahead_ofTokens]
    exact List.filter_sublist.trans (List.takeWhile_sublist _)
  change ([] ++ (ofTokens tokens).ahead ++ [(ofTokens tokens).eof]).Pairwise _
  rw [List.nil_append, List.pairwise_append]
  refine ⟨hordered.sublist hahead, List.pairwise_singleton _ _, ?_⟩
  intro token htoken closing hclosing
  obtain rfl := List.mem_singleton.1 hclosing
  exact le_eof_ofTokens hordered hfits htoken

end Cursor

/-- The state in which the reading of a file begins. -/
def initialState (tokens : List Token) : State := { cursor := .ofTokens tokens }

theorem parse_filed (tokens : List Token) :
    ∃ stop : State, Filed (initialState tokens) (parse tokens).file stop ∧
      stop.cursor.kind = .eof ∧ (parse tokens).diagnostics = stop.diagnostics.toList := by
  obtain ⟨hfiled, hend⟩ := file_meets (initialState tokens) _ rfl
  exact ⟨_, hfiled, hend, rfl⟩

/-- What is read from the beginning to the end of the file are its tokens. -/
theorem eq_ahead_of_reads {tokens run : List Token} {stop : State}
    (hrun : (initialState tokens).cursor.Reads run stop.cursor)
    (hend : stop.cursor.kind = .eof) : run = (Cursor.ofTokens tokens).ahead := by
  have hahead := hrun.ahead
  rw [Cursor.kind_eq_eof_iff.1 hend, List.append_nil] at hahead
  exact hahead.symm

theorem badNodesOf_map_token (tokens : List Token) : badNodesOf (tokens.map .token) = [] := by
  induction tokens with
  | nil => rfl
  | cons token rest ih => simpa using ih

/-- The bad nodes of a file, sorted into buckets, are those of its items. -/
theorem badNodes_perm {file : File} {items : List Item} (hitems : file.items.Perm items) :
    file.badNodes.Perm
      (badNodesOf (file.clauseTokens.map .token ++ items.flatMap Item.pieces)) := by
  rw [File.badNodes_eq, badNodesOf_append, badNodesOf_map_token, List.nil_append,
    badNodesOf_flatMap]
  exact hitems.flatMap_right _

/-- What the diagnostics of a file say of its bad nodes. -/
theorem reasons_subperm (tokens : List Token) :
    ((parse tokens).file.badNodes.map BadNode.reason).Subperm
        ((parse tokens).diagnostics.map Diagnostic.message) ∧
      ((parse tokens).file.badNodes = [] → (parse tokens).diagnostics = []) := by
  obtain ⟨stop, hfiled, -, hdiagnostics⟩ := parse_filed tokens
  obtain ⟨items, hitems, -, reported, hreported, hreasons, hnone⟩ := hfiled.exists_items
  have hall : (parse tokens).diagnostics = reported := hdiagnostics.trans hreported
  have hperm := badNodes_perm hitems
  rw [hall]
  constructor
  · exact ((hperm.map _).subperm).trans hreasons.subperm
  · intro hbad
    rw [hbad] at hperm
    exact hnone hperm.nil_eq.symm

/-- Two lists may be matched if what is said of one is among what is said of the other. -/
theorem exists_matching {α β γ : Type} [DecidableEq γ] {first : List α} {second : List β}
    {said : α → γ} {told : β → γ} (hsaid : (first.map said).Subperm (second.map told)) :
    ∃ matched : Fin first.length → Fin second.length, Function.Injective matched ∧
      ∀ index, said (first.get index) = told (second.get (matched index)) := by
  have hfirst : first.length = (first.map said).length := (List.length_map _).symm
  have hsecond : (second.map told).length = second.length := List.length_map _
  refine ⟨fun index => (hsaid.idxInj (index.cast hfirst)).cast hsecond, ?_, ?_⟩
  · intro index other hsame
    have hplaces := hsaid.idxInj_injective (Fin.cast_injective hsecond hsame)
    exact Fin.cast_injective hfirst hplaces
  · intro index
    have hvalue : (second.map told)[hsaid.idxInj (index.cast hfirst)] =
        (first.map said)[index.cast hfirst] := hsaid.getElem_idxInj_eq_getElem
    rw [Fin.getElem_fin, Fin.getElem_fin, List.getElem_map, List.getElem_map] at hvalue
    exact hvalue.symm

/-- The walk over a file meets a bad node if and only if there is a diagnostic, and each
bad node has a diagnostic of its own that tells its reason. -/
theorem badNodes_matched (tokens : List Token) :
    ((parse tokens).file.badNodes ≠ [] ↔ (parse tokens).diagnostics ≠ []) ∧
      (∃ matched : Fin (parse tokens).file.badNodes.length →
          Fin (parse tokens).diagnostics.length,
        Function.Injective matched ∧
          ∀ index, ((parse tokens).file.badNodes.get index).reason =
            ((parse tokens).diagnostics.get (matched index)).message) ∧
      (parse tokens).file.badNodes.length ≤ (parse tokens).diagnostics.length := by
  obtain ⟨hreasons, hnone⟩ := reasons_subperm tokens
  have hlength := hreasons.length_le
  rw [List.length_map, List.length_map] at hlength
  refine ⟨⟨fun hbad hempty => ?_, fun hsome hbad => hsome (hnone hbad)⟩,
    exists_matching hreasons, hlength⟩
  rw [hempty, List.length_nil, Nat.le_zero, List.length_eq_zero_iff] at hlength
  exact hbad hlength

theorem tokensOf_map_token (tokens : List Token) : tokensOf (tokens.map .token) = tokens := by
  induction tokens with
  | nil => rfl
  | cons token rest ih => exact congrArg (token :: ·) ih

theorem tokensOf_append (pieces rest : List Piece) :
    tokensOf (pieces ++ rest) = tokensOf pieces ++ tokensOf rest := List.filterMap_append

theorem tokensOf_flatMap (items : List Item) :
    tokensOf (items.flatMap Item.pieces) = items.flatMap Item.tokens := by
  induction items with
  | nil => rfl
  | cons item rest ih =>
      rw [List.flatMap_cons, List.flatMap_cons, tokensOf_append, ih]
      rfl

theorem tokens_infix_flatMap {items : List Item} {item : Item} (hitem : item ∈ items) :
    item.tokens <:+: items.flatMap Item.tokens := by
  obtain ⟨before, after, rfl⟩ := List.append_of_mem hitem
  refine ⟨before.flatMap Item.tokens, after.flatMap Item.tokens, ?_⟩
  rw [List.flatMap_append, List.flatMap_cons, List.append_assoc]

/-- If nothing is reported, the clause and the items store the significant tokens in the
order of the text. -/
theorem significant_eq_of_diagnostics_eq_nil {tokens : List Token}
    (hnone : (parse tokens).diagnostics = []) :
    ∃ items, (parse tokens).file.items.Perm items ∧ significant tokens =
      (parse tokens).file.package :: (parse tokens).file.name ::
        items.flatMap Item.tokens := by
  obtain ⟨stop, hfiled, hend, hdiagnostics⟩ := parse_filed tokens
  obtain ⟨items, hitems, hcovers, reported, hreported, hreasons, -⟩ := hfiled.exists_items
  have hall : (parse tokens).diagnostics = reported := hdiagnostics.trans hreported
  rw [← hall, hnone] at hreasons
  have hbad := List.map_eq_nil_iff.1 (List.sublist_nil.1 hreasons)
  have hclause : (parse tokens).file.clauseTokens =
      [(parse tokens).file.package, (parse tokens).file.name] := by
    apply hfiled.clauseTokens_eq
    rw [badNodesOf_append, badNodesOf_flatMap, List.append_eq_nil_iff] at hbad
    exact fun item hitem => List.flatMap_eq_nil_iff.1 hbad.2 item (hitems.mem_iff.1 hitem)
  obtain ⟨run, hrun, htokens⟩ := hcovers.tokensOf_eq hbad
  rw [eq_ahead_of_reads hrun hend, Cursor.filter_ahead_ofTokens, tokensOf_append,
    tokensOf_map_token, tokensOf_flatMap, hclause] at htokens
  exact ⟨items, hitems, htokens⟩

/-- A file without diagnostics is stored whole: in its buckets the tree has exactly the
significant tokens, and each item has a run of them. -/
theorem tokens_perm_of_diagnostics_eq_nil (tokens : List Token)
    (hnone : (parse tokens).diagnostics = []) :
    (parse tokens).file.tokens.Perm (significant tokens) ∧
      ∀ item ∈ (parse tokens).file.items, item.tokens <:+: significant tokens := by
  obtain ⟨items, hitems, htokens⟩ := significant_eq_of_diagnostics_eq_nil hnone
  rw [htokens]
  constructor
  · exact ((hitems.flatMap_right _).cons _).cons _
  · intro item hitem
    have hinfix := tokens_infix_flatMap (hitems.mem_iff.1 hitem)
    exact hinfix.trans ((List.suffix_cons _ _).trans (List.suffix_cons _ _)).isInfix

/-- A function of two parameters with both branches of a condition and a comment. -/
def branchTokens : List Token :=
  [⟨.packageKw, "package", 1, 1⟩, ⟨.ident, "p", 1, 9⟩, ⟨.semicolon, ";", 1, 10⟩,
    ⟨.funcKw, "func", 2, 1⟩, ⟨.ident, "f", 2, 6⟩, ⟨.lparen, "(", 2, 7⟩,
    ⟨.ident, "a", 2, 8⟩, ⟨.ident, "T", 2, 10⟩, ⟨.comma, ",", 2, 11⟩,
    ⟨.ident, "b", 2, 13⟩, ⟨.ident, "T", 2, 15⟩, ⟨.rparen, ")", 2, 16⟩,
    ⟨.lbrace, "\x7b", 2, 18⟩, ⟨.ifKw, "if", 3, 3⟩, ⟨.ident, "a", 3, 6⟩,
    ⟨.lbrace, "\x7b", 3, 8⟩, ⟨.comment, "// none", 3, 10⟩, ⟨.rbrace, "\x7d", 4, 3⟩,
    ⟨.elseKw, "else", 4, 5⟩, ⟨.lbrace, "\x7b", 4, 10⟩, ⟨.rbrace, "\x7d", 4, 12⟩,
    ⟨.rbrace, "\x7d", 5, 1⟩]

theorem tokens_perm_branchTokens :
    (parse branchTokens).diagnostics = [] ∧
      (parse branchTokens).file.tokens.Perm (significant branchTokens) ∧
        ∀ item ∈ (parse branchTokens).file.items, item.tokens <:+: significant branchTokens := by
  have hnone : (parse branchTokens).diagnostics = [] := by decide +kernel
  exact ⟨hnone, tokens_perm_of_diagnostics_eq_nil branchTokens hnone⟩

/-- A token of a file is stored in its tree outside of bad nodes. -/
def File.Stores (file : File) (token : Token) : Prop :=
  token ∈ file.clauseTokens ∨ ∃ item ∈ file.items, token ∈ item.tokens

/-- A bad node reaches from a place at or before the token to one at or behind it. -/
def BadNode.Spans (node : BadNode) (token : Token) : Prop :=
  node.first.position ≤ token.position ∧ token.position ≤ node.last.position

/-- No token is dropped silently: it is stored, or a bad node spans it. -/
theorem significant_stored_or_spanned (tokens : List Token)
    (hordered : tokens.Pairwise fun first second => first.position < second.position)
    (hfits : ∀ token ∈ tokens, token.column ≤ maxCoordinate)
    (hunchained : ∀ diagnostic ∈ (parse tokens).diagnostics,
      diagnostic.code ≠ .chainedComparison) :
    ∀ token ∈ significant tokens, (parse tokens).file.Stores token ∨
      ∃ node ∈ (parse tokens).file.badNodes, node.Spans token := by
  obtain ⟨stop, hfiled, hend, hdiagnostics⟩ := parse_filed tokens
  obtain ⟨items, hitems, hcovers, -⟩ := hfiled.exists_items
  have hstop : stop.Ordered := by
    refine ⟨?_, fun diagnostic hdiagnostic => ?_⟩
    · obtain ⟨run, hrun⟩ := hcovers.exists_reads
      refine hrun.ordered (Cursor.ordered_ofTokens (hordered.imp Position.le_of_lt) hfits)
    · exact hunchained diagnostic (hdiagnostics ▸ hdiagnostic)
  obtain ⟨run, hrun, haccounted⟩ := hcovers.stored_or_spanned hstop
  intro token htoken
  rw [← Cursor.filter_ahead_ofTokens, ← eq_ahead_of_reads hrun hend, List.mem_filter] at htoken
  rcases haccounted token htoken.1 (by simpa using htoken.2) with hstored | ⟨node, hnode, hspan⟩
  · left
    rw [tokensOf_append, tokensOf_map_token, tokensOf_flatMap] at hstored
    rcases List.mem_append.1 hstored with hclause | hitem
    · exact .inl hclause
    · obtain ⟨item, hitem, htoken⟩ := List.mem_flatMap.1 hitem
      exact .inr ⟨item, hitems.mem_iff.2 hitem, htoken⟩
  · exact .inr ⟨node, (badNodes_perm hitems).mem_iff.2 hnode, hspan⟩

/-- A function whose second statement lacks its operand. -/
def brokenTokens : List Token :=
  [⟨.packageKw, "package", 1, 1⟩, ⟨.ident, "p", 1, 9⟩, ⟨.funcKw, "func", 2, 1⟩,
    ⟨.ident, "f", 2, 6⟩, ⟨.lparen, "(", 2, 7⟩, ⟨.rparen, ")", 2, 8⟩,
    ⟨.lbrace, "\x7b", 2, 10⟩, ⟨.ident, "a", 3, 3⟩, ⟨.assign, "=", 3, 5⟩,
    ⟨.intLit, "1", 3, 7⟩, ⟨.ident, "b", 4, 3⟩, ⟨.assign, "=", 4, 5⟩,
    ⟨.assign, "=", 4, 7⟩, ⟨.intLit, "2", 4, 9⟩, ⟨.rbrace, "\x7d", 5, 1⟩]

theorem significant_stored_or_spanned_brokenTokens :
    (parse brokenTokens).file.badNodes ≠ [] ∧
      ∀ token ∈ significant brokenTokens, (parse brokenTokens).file.Stores token ∨
        ∃ node ∈ (parse brokenTokens).file.badNodes, node.Spans token := by
  refine ⟨by decide +kernel, significant_stored_or_spanned brokenTokens ?_ ?_ ?_⟩
  · decide
  · decide
  · decide +kernel

end OriSyntax
