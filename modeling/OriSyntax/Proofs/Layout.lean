import OriSyntax.Proofs.FileComplete
import OriSyntax.Proofs.Lossless
import OriSyntax.Proofs.MirroredFiles

/-!
Layout matters only where a token opens a line.  Two lists of the same words that open a line
with the same tokens are read as the same tree and with the same reports, but for the tokens
that are stored in them.
-/

namespace OriSyntax

open Grammar

/-- The second list holds the words of the first one in another layout: token by token the
kinds and the values are the same, and a token stands on a later line than the one before it
in both lists or in none. -/
structure Relaid (first second : List Token) : Prop where
  length : second.length = first.length
  kind : ∀ (index : Nat) (hfirst : index < first.length) (hsecond : index < second.length),
    second[index].kind = first[index].kind
  value : ∀ (index : Nat) (hfirst : index < first.length) (hsecond : index < second.length),
    second[index].value = first[index].value
  line : ∀ (index : Nat) (hfirst : index + 1 < first.length)
    (hsecond : index + 1 < second.length),
    first[index].line < first[index + 1].line ↔ second[index].line < second[index + 1].line

/-- Tokens that stand in one place of two lists, the end-of-file tokens included, and bad
nodes with one reason that reach from such tokens to such tokens. -/
def sameIndex (first second : List Token) : Likeness :=
  .ofTokens fun token token' => ∃ index : Nat,
    (Cursor.ofTokens first).tokens[index]? = some token ∧
      (Cursor.ofTokens second).tokens[index]? = some token'

theorem Token.line_endPosition (token : Token) : token.endPosition.line = token.line := by
  unfold Token.endPosition
  split
  · next habsent =>
      have hnowhere : token.position = .nowhere := by simpa [Token.isAbsent] using habsent
      exact (congrArg Position.line hnowhere).symm
  · rfl

namespace Cursor

/-- The token that closes a list stands on the line of its last token. -/
theorem line_closingToken {tokens : List Token} {last : Token}
    (hlast : tokens.getLast? = some last) : (closingToken tokens).line = last.line := by
  simp [closingToken, hlast, Token.line_endPosition]

/-- The token that closes written tokens is the end of the file behind them, or it is made. -/
theorem eof_ofTokens_append {tokens ending : List Token}
    (htokens : ∀ token ∈ tokens, token.kind.isWritten)
    (hending : ∀ token ∈ ending.head?, token.kind = .eof) :
    (ofTokens (tokens ++ ending)).eof = ending.head?.getD (closingToken tokens) := by
  have hplain : ∀ token ∈ tokens, token.kind ≠ .comment ∧ token.kind ≠ .eof := by
    simpa [Kind.isWritten] using htokens
  have hcode : tokens.filter (·.kind ≠ .comment) = tokens := by
    simpa using fun token htoken => (hplain token htoken).1
  have hnone : tokens.find? (·.kind = .eof) = none := by
    simpa using fun token htoken => (hplain token htoken).2
  change (((tokens ++ ending).filter _).find? _).getD (closingToken _) = _
  rw [List.filter_append, hcode, List.find?_append, hnone]
  cases ending with
  | nil => simp
  | cons closing rest => simp [show closing.kind = .eof from hending closing rfl]

end Cursor

/-- Two lists in different layouts, side by side: the words before the end of the file, and
what follows them, which is nothing or begins with the end of the file. -/
structure Aligned (first second : List Token) (words rest : List (Token × Token)) : Prop where
  first : first = words.map Prod.fst ++ rest.map Prod.fst
  second : second = words.map Prod.snd ++ rest.map Prod.snd
  same : ∀ pair ∈ words ++ rest, pair.2.kind = pair.1.kind ∧ pair.2.value = pair.1.value
  written : ∀ pair ∈ words, pair.1.kind.isWritten
  ends : ∀ pair ∈ rest.head?, pair.1.kind = .eof
  breaks : (words ++ rest).IsChain fun before after =>
    (before.1.line < after.1.line ↔ before.2.line < after.2.line)

variable {first second : List Token} {words rest : List (Token × Token)}

theorem Relaid.exists_aligned (hrelaid : Relaid first second)
    (hcode : ∀ token ∈ first, token.kind ≠ .comment) :
    ∃ words rest, Aligned first second words rest := by
  have hsplit : (first.zip second).takeWhile (·.1.kind ≠ .eof) ++
      (first.zip second).dropWhile (·.1.kind ≠ .eof) = first.zip second :=
    List.takeWhile_append_dropWhile
  refine ⟨(first.zip second).takeWhile (·.1.kind ≠ .eof),
    (first.zip second).dropWhile (·.1.kind ≠ .eof), ?_, ?_, ?_, ?_, ?_, ?_⟩
  · rw [← List.map_append, hsplit]
    exact (List.map_fst_zip (Nat.le_of_eq hrelaid.length.symm)).symm
  · rw [← List.map_append, hsplit]
    exact (List.map_snd_zip (Nat.le_of_eq hrelaid.length)).symm
  · rw [hsplit]
    intro pair hpair
    obtain ⟨index, hindex, rfl⟩ := List.getElem_of_mem hpair
    rw [List.length_zip, Nat.lt_min] at hindex
    rw [List.getElem_zip]
    exact ⟨hrelaid.kind index hindex.1 hindex.2, hrelaid.value index hindex.1 hindex.2⟩
  · intro pair hpair
    have hkind := List.all_eq_true.1 List.all_takeWhile pair hpair
    have hmem := (List.takeWhile_sublist _).subset hpair
    simpa [Kind.isWritten, hcode _ (List.of_mem_zip hmem).1] using hkind
  · intro pair hpair
    have hhead := List.head?_dropWhile_not (fun pair : Token × Token => decide (pair.1.kind ≠ .eof))
      (first.zip second)
    rw [Option.mem_def.1 hpair] at hhead
    simpa using hhead
  · rw [hsplit, List.isChain_iff_getElem]
    intro index hindex
    rw [List.length_zip, Nat.lt_min] at hindex
    simpa only [List.getElem_zip] using hrelaid.line index hindex.1 hindex.2

namespace Aligned

variable (haligned : Aligned first second words rest)
include haligned

theorem written_first : ∀ token ∈ words.map Prod.fst, token.kind.isWritten := by
  intro token htoken
  obtain ⟨pair, hpair, rfl⟩ := List.mem_map.1 htoken
  exact haligned.written pair hpair

theorem written_second : ∀ token ∈ words.map Prod.snd, token.kind.isWritten := by
  intro token htoken
  obtain ⟨pair, hpair, rfl⟩ := List.mem_map.1 htoken
  rw [(haligned.same pair (List.mem_append_left _ hpair)).1]
  exact haligned.written pair hpair

theorem ends_first : ∀ token ∈ (rest.map Prod.fst).head?, token.kind = .eof := by
  intro token htoken
  rw [List.head?_map, Option.mem_def, Option.map_eq_some_iff] at htoken
  obtain ⟨pair, hpair, rfl⟩ := htoken
  exact haligned.ends pair hpair

theorem ends_second : ∀ token ∈ (rest.map Prod.snd).head?, token.kind = .eof := by
  intro token htoken
  rw [List.head?_map, Option.mem_def, Option.map_eq_some_iff] at htoken
  obtain ⟨pair, hpair, rfl⟩ := htoken
  rw [(haligned.same pair (List.mem_append_right _ (List.mem_of_mem_head? hpair))).1]
  exact haligned.ends pair hpair

theorem ahead_first : (Cursor.ofTokens first).ahead = words.map Prod.fst := by
  rw [haligned.first, Cursor.ahead_ofTokens_append haligned.written_first haligned.ends_first]

theorem ahead_second : (Cursor.ofTokens second).ahead = words.map Prod.snd := by
  rw [haligned.second, Cursor.ahead_ofTokens_append haligned.written_second haligned.ends_second]

/-- The end of the file is made for both lists, or it stands behind the words of both. -/
theorem closing_cases :
    (rest = [] ∧ (Cursor.ofTokens first).eof = Cursor.closingToken (words.map Prod.fst) ∧
      (Cursor.ofTokens second).eof = Cursor.closingToken (words.map Prod.snd)) ∨
    ∃ others, rest = ((Cursor.ofTokens first).eof, (Cursor.ofTokens second).eof) :: others := by
  have heof := Cursor.eof_ofTokens_append haligned.written_first haligned.ends_first
  have heof' := Cursor.eof_ofTokens_append haligned.written_second haligned.ends_second
  rw [← haligned.first] at heof
  rw [← haligned.second] at heof'
  rw [heof, heof']
  cases rest with
  | nil => exact .inl ⟨rfl, rfl, rfl⟩
  | cons pair others => exact .inr ⟨others, rfl⟩

/-- What stands in one place of both lists is what corresponds in the trees. -/
theorem mem_closing_iff {token token' : Token} :
    (token, token') ∈ words ++ [((Cursor.ofTokens first).eof, (Cursor.ofTokens second).eof)] ↔
      (sameIndex first second).token token token' := by
  have htokens : (Cursor.ofTokens first).tokens =
      (words ++ [((Cursor.ofTokens first).eof, (Cursor.ofTokens second).eof)]).map Prod.fst := by
    rw [Cursor.tokens, haligned.ahead_first, List.map_append]
    rfl
  have htokens' : (Cursor.ofTokens second).tokens =
      (words ++ [((Cursor.ofTokens first).eof, (Cursor.ofTokens second).eof)]).map Prod.snd := by
    rw [Cursor.tokens, haligned.ahead_second, List.map_append]
    rfl
  rw [List.mem_iff_getElem?]
  refine exists_congr fun index => ?_
  rw [htokens, htokens', List.getElem?_map, List.getElem?_map, Option.map_eq_some_iff,
    Option.map_eq_some_iff]
  constructor
  · exact fun hpair => ⟨⟨_, hpair, rfl⟩, ⟨_, hpair, rfl⟩⟩
  · rintro ⟨⟨pair, hpair, rfl⟩, ⟨other, hother, rfl⟩⟩
    obtain rfl := Option.some.inj (hpair.symm.trans hother)
    exact hpair

theorem same_closing :
    ∀ pair ∈ words ++ [((Cursor.ofTokens first).eof, (Cursor.ofTokens second).eof)],
      pair.2.kind = pair.1.kind ∧ pair.2.value = pair.1.value := by
  intro pair hpair
  rcases List.mem_append.1 hpair with hword | hclosing
  · exact haligned.same pair (List.mem_append_left _ hword)
  · obtain rfl := List.mem_singleton.1 hclosing
    rcases haligned.closing_cases with ⟨-, heof, heof'⟩ | ⟨others, hrest⟩
    · rw [heof, heof']
      exact ⟨rfl, rfl⟩
    · exact haligned.same _ (by simp [hrest])

theorem breaks_closing :
    (words ++ [((Cursor.ofTokens first).eof, (Cursor.ofTokens second).eof)]).IsChain
      fun before after => (before.1.line < after.1.line ↔ before.2.line < after.2.line) := by
  have hbreaks := haligned.breaks
  rcases haligned.closing_cases with ⟨rfl, heof, heof'⟩ | ⟨others, hrest⟩
  · rw [List.append_nil] at hbreaks
    refine List.isChain_append.2 ⟨hbreaks, List.isChain_singleton _, ?_⟩
    intro last hlast pair hpair
    obtain rfl : _ = pair := by simpa using hpair
    have hlines : (Cursor.ofTokens first).eof.line = last.1.line ∧
        (Cursor.ofTokens second).eof.line = last.2.line := by
      rw [heof, heof']
      constructor <;> apply Cursor.line_closingToken <;>
        simp [List.getLast?_map, Option.mem_def.1 hlast]
    rw [hlines.1, hlines.2]
    exact iff_of_false (Nat.lt_irrefl _) (Nat.lt_irrefl _)
  · rw [hrest, List.append_cons] at hbreaks
    exact hbreaks.left_of_append

variable (hordered : first.Pairwise fun before after => before.position < after.position)
  (hordered' : second.Pairwise fun before after => before.position < after.position)
include hordered hordered'

/-- The words of both lists stand in one order. -/
theorem order_words : ∀ pair ∈ words, ∀ word ∈ words,
    (pair.1.position < word.1.position ↔ pair.2.position < word.2.position) := by
  rw [haligned.first] at hordered
  rw [haligned.second] at hordered'
  let agree (pair word : Token × Token) : Prop :=
    (pair.1.position < word.1.position ↔ pair.2.position < word.2.position) ∧
      (word.1.position < pair.1.position ↔ word.2.position < pair.2.position)
  have hagree : words.Pairwise agree := by
    refine ((List.pairwise_map.1 (List.pairwise_append.1 hordered).1).and
      (List.pairwise_map.1 (List.pairwise_append.1 hordered').1)).imp ?_
    rintro pair word ⟨hlt, hlt'⟩
    exact ⟨iff_of_true hlt hlt', iff_of_false (Position.not_lt.2 (Position.le_of_lt hlt))
      (Position.not_lt.2 (Position.le_of_lt hlt'))⟩
  have hsymm : Std.Symm agree := ⟨fun _ _ h => ⟨h.2, h.1⟩⟩
  have hself (pair : Token × Token) (_ : pair ∈ words) : agree pair pair := by
    have hirrefl (position : Position) : ¬ position < position :=
      Position.not_lt.2 (Position.le_refl _)
    exact ⟨iff_of_false (hirrefl _) (hirrefl _), iff_of_false (hirrefl _) (hirrefl _)⟩
  exact fun pair hpair word hword => (hagree.forall_of_forall hself hpair hword).1

variable (hfits : ∀ token ∈ first, token.column ≤ maxCoordinate)
  (hfits' : ∀ token ∈ second, token.column ≤ maxCoordinate)
include hfits hfits'

theorem order_closing :
    ∀ pair ∈ words ++ [((Cursor.ofTokens first).eof, (Cursor.ofTokens second).eof)],
      ∀ word ∈ words,
        (pair.1.position < word.1.position ↔ pair.2.position < word.2.position) := by
  intro pair hpair word hword
  rcases List.mem_append.1 hpair with hpair | hclosing
  · exact haligned.order_words hordered hordered' pair hpair word hword
  · obtain rfl := List.mem_singleton.1 hclosing
    have hmem : word.1 ∈ (Cursor.ofTokens first).ahead := by
      rw [haligned.ahead_first]
      exact List.mem_map_of_mem hword
    have hmem' : word.2 ∈ (Cursor.ofTokens second).ahead := by
      rw [haligned.ahead_second]
      exact List.mem_map_of_mem hword
    exact iff_of_false
      (Position.not_lt.2 (Cursor.le_eof_ofTokens (hordered.imp Position.le_of_lt) hfits hmem))
      (Position.not_lt.2 (Cursor.le_eof_ofTokens (hordered'.imp Position.le_of_lt) hfits' hmem'))

/-- The runs over both lists are coupled, if there is anything to read. -/
theorem exists_coupling (hwords : words ≠ []) :
    ∃ c : Coupling, c.Together ∧ c.like = sameIndex first second ∧ c.told = [] ∧ c.told' = [] ∧
      c.Relates (initialState first) (initialState second) := by
  let c : Coupling := {
    pairs := words
    ending := .together (Cursor.ofTokens first).eof (Cursor.ofTokens second).eof
    past := []
    past' := []
    told := []
    told' := []
    nonempty := hwords
    same := haligned.same_closing
    order := haligned.order_closing hordered hordered' hfits hfits'
    breaks := haligned.breaks_closing
    opens := by simp [Ending.follow] }
  have hplaced : c.Placed [] words (Cursor.ofTokens first) (Cursor.ofTokens second) := {
    pairs := rfl
    behind := rfl
    behind' := rfl
    ahead := haligned.ahead_first
    ahead' := by rw [haligned.ahead_second]; exact (List.append_nil _).symm
    eof := by simp [c, Ending.closing] }
  refine ⟨c, rfl, ?_, rfl, rfl, ?_⟩
  · have htied : c.tied = (sameIndex first second).token := by
      funext token token'
      exact propext haligned.mem_closing_iff
    have hbad : c.like.bad = (sameIndex first second).bad := by
      funext node node'
      have htogether : c.Together := rfl
      simp only [Coupling.like, htied, htogether, true_and]
      rfl
    exact congrArg₂ Likeness.mk htied hbad
  · exact {
      placed := ⟨_, _, hplaced⟩
      nesting := rfl
      loopDepth := rfl
      reports := ⟨[], [], rfl, rfl, .nil⟩
      started := ⟨_, _, .inr ⟨rfl, rfl⟩, hplaced⟩ }

end Aligned

/-- Where no word comes before the end of the file, only the package clause is missed. -/
theorem file_run_of_ahead_nil (cursor : Cursor) (hahead : cursor.ahead = []) :
    let diagnostic := Diagnostic.expected .unexpectedToken "'package'" cursor.eof
    file.run { cursor := cursor } =
      (.ofItems .absent .absent [.decl (.bad ⟨cursor.eof, cursor.eof, diagnostic.message⟩)],
        { cursor := cursor, diagnostics := #[diagnostic] }) := by
  obtain ⟨behind, ahead, ⟨kind, value, line, column⟩, position, remaining, hposition, hremaining,
    hbehind, hplain, heof⟩ := cursor
  obtain rfl : ahead = [] := hahead
  obtain rfl : remaining = 0 := hremaining
  obtain rfl : kind = .eof := heof
  rfl

/-- Two lists of the same words, which open lines with the same tokens, are read as the same
tree and with the same reports, but for the tokens in them. -/
theorem parse_alike_of_relaid {first second : List Token} (hrelaid : Relaid first second)
    (hcode : ∀ token ∈ first, token.kind ≠ .comment)
    (hordered : first.Pairwise fun before after => before.position < after.position)
    (hordered' : second.Pairwise fun before after => before.position < after.position)
    (hfits : ∀ token ∈ first, token.column ≤ maxCoordinate)
    (hfits' : ∀ token ∈ second, token.column ≤ maxCoordinate) :
    File.Alike (sameIndex first second) (parse first).file (parse second).file ∧
      List.Forall₂ (Diagnostic.Alike (sameIndex first second)) (parse first).diagnostics
        (parse second).diagnostics := by
  have hparse (tokens : List Token) : (parse tokens).file = (file.run (initialState tokens)).1 ∧
      (parse tokens).diagnostics = (file.run (initialState tokens)).2.diagnostics.toList :=
    ⟨rfl, rfl⟩
  rw [(hparse first).1, (hparse first).2, (hparse second).1, (hparse second).2]
  obtain ⟨words, rest, haligned⟩ := hrelaid.exists_aligned hcode
  by_cases hwords : words = []
  · have hahead := haligned.ahead_first
    have hahead' := haligned.ahead_second
    have hclosing := haligned.mem_closing_iff.1 (List.mem_append_right _ List.mem_cons_self)
    rw [hwords] at hahead hahead'
    rw [initialState, initialState, file_run_of_ahead_nil _ hahead,
      file_run_of_ahead_nil _ hahead']
    exact ⟨.ofItems (.inr ⟨⟨rfl, rfl⟩, rfl, rfl⟩)
      (.cons (.decl (.bad ⟨hclosing, hclosing, rfl⟩)) .nil), .cons (.expected _ _ hclosing) .nil⟩
  · obtain ⟨c, htogether, hlike, htold, htold', hrelates⟩ :=
      haligned.exists_coupling hordered hordered' hfits hfits' hwords
    have hmirrors : MirrorsAt c false True (fun _ => True) file file (File.Alike c.like) :=
      file_mirrors fun _ => htogether
    obtain ⟨hfile, hstop⟩ := hmirrors.ends trivial _ _ ⟨hrelates, trivial⟩
      fun hapart => absurd htogether hapart
    obtain ⟨added, added', hadded, hadded', hall⟩ := hstop.reports
    rw [htold, List.nil_append] at hadded
    rw [htold', List.nil_append] at hadded'
    rw [hadded, hadded', ← hlike]
    exact ⟨hfile, hall⟩

/-- The broken function with wider lines and wider gaps. -/
def spreadTokens : List Token :=
  brokenTokens.map fun token => { token with line := 2 * token.line, column := 5 * token.column }

theorem parse_alike_of_relaid_spreadTokens :
    Relaid brokenTokens spreadTokens ∧ (parse brokenTokens).diagnostics ≠ [] ∧
      File.Alike (sameIndex brokenTokens spreadTokens) (parse brokenTokens).file
        (parse spreadTokens).file ∧
      List.Forall₂ (Diagnostic.Alike (sameIndex brokenTokens spreadTokens))
        (parse brokenTokens).diagnostics (parse spreadTokens).diagnostics := by
  have hrelaid : Relaid brokenTokens spreadTokens :=
    ⟨by simp [spreadTokens], by simp [spreadTokens], by simp [spreadTokens],
      by simp [spreadTokens]⟩
  refine ⟨hrelaid, by decide +kernel, parse_alike_of_relaid hrelaid ?_ ?_ ?_ ?_ ?_⟩
  all_goals decide

end OriSyntax
