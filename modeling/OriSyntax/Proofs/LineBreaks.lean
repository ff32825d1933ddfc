import OriSyntax.Proofs.LongestMatch

/-!
The scanner starts afresh at every line break.  What is in front of a line break is read as
if the text ended there, and what is behind it as if the text began there, but for the
numbers of the lines.
-/

namespace OriSyntax

/-- The token some lines further down. -/
def Token.downBy (lines : Nat) (token : Token) : Token :=
  { token with line := token.line + lines }

namespace Source

theorem lastLine_behind_newline (front back : List Char) :
    lastLine (front ++ '\n' :: back) = lastLine back := by
  have hnone : ('\n' :: front.reverse).takeWhile (· ≠ '\n') = [] := by simp
  have hsplit : (front ++ '\n' :: back).reverse = back.reverse ++ '\n' :: front.reverse := by simp
  rw [lastLine, lastLine, hsplit, List.takeWhile_append, hnone, List.append_nil]
  split
  · next hall =>
      rw [(List.takeWhile_sublist _).eq_of_length hall]
  · rfl

theorem placeAfter_behind_newline (front back : List Char) :
    placeAfter (front ++ '\n' :: back) =
      ⟨(placeAfter back).line + (1 + front.count '\n'), (placeAfter back).column⟩ := by
  rw [placeAfter, lastLine_behind_newline, List.count_append, List.count_cons_self, placeAfter]
  simp
  omega

namespace Lexes

variable {before text : List Char} {found : List Token}

/-- Behind a line break a text reads as it does alone, further down. -/
theorem behind_newline (hfound : Lexes before found text) (front : List Char) :
    Lexes (front ++ '\n' :: before) (found.map (·.downBy (1 + front.count '\n'))) text := by
  induction hfound with
  | @finish before =>
      have heof : (endAfter before).downBy (1 + front.count '\n') =
          endAfter (front ++ '\n' :: before) := by
        rw [endAfter, endAfter, placeAfter_behind_newline]
        rfl
      rw [List.map_singleton, heof]
      exact Lexes.finish
  | space hspace hrest ih =>
      apply Lexes.space hspace
      simpa using ih
  | @lexeme before input rest tokens lexeme hinput hstart hcut hrest ih =>
      have htoken : (tokenAfter before lexeme).downBy (1 + front.count '\n') =
          tokenAfter (front ++ '\n' :: before) lexeme := by
        rw [tokenAfter, tokenAfter, placeAfter_behind_newline]
        rfl
      rw [List.map_cons, htoken]
      apply Lexes.lexeme hinput hstart hcut
      simpa using ih

/-- Up to a line break a text reads as it does alone, but for the mark of its end. -/
theorem append_newline (hfound : Lexes before found text) {more : List Token}
    {rest : List Char} (hmore : Lexes (before ++ text ++ ['\n']) more rest) :
    Lexes before (found.filter (·.kind ≠ .eof) ++ more) (text ++ '\n' :: rest) := by
  induction hfound with
  | @finish before =>
      apply Lexes.space (by decide)
      simpa [endAfter] using hmore
  | space hspace hrest ih =>
      apply Lexes.space hspace
      apply ih
      simpa using hmore
  | @lexeme before input text tokens lexeme hinput hstart hcut hrest ih =>
      have hkeep : (tokenAfter before lexeme).kind ≠ .eof := hcut.kind_ne_eof
      have hwhole : input ++ '\n' :: rest = lexeme.text ++ (text ++ '\n' :: rest) := by
        rw [hinput, List.append_assoc]
      rw [List.filter_cons_of_pos (by simpa using hkeep), List.cons_append]
      apply Lexes.lexeme hwhole
      · rwa [List.head?_append_of_ne_nil _ hcut.ne_nil]
      · exact hcut.append_break (by simp)
      · apply ih
        rwa [List.append_assoc before, ← hinput]

/-- Only the last token marks the end of the text. -/
theorem ends (hfound : Lexes before found text) :
    found = found.filter (·.kind ≠ .eof) ++ [endAfter (before ++ text)] := by
  induction hfound with
  | @finish before => simp [endAfter]
  | space hspace hrest ih => simpa using ih
  | @lexeme before input text tokens lexeme hinput hstart hcut hrest ih =>
      have hkeep : (tokenAfter before lexeme).kind ≠ .eof := hcut.kind_ne_eof
      rw [List.filter_cons_of_pos (by simpa using hkeep), hinput, ← List.append_assoc,
        List.cons_append, ← ih]

theorem newline_notMem_value (hfound : Lexes before found text) {token : Token}
    (htoken : token ∈ found) : '\n' ∉ token.value.toList := by
  induction hfound with
  | finish =>
      rw [List.mem_singleton.1 htoken]
      simp [endAfter]
  | space hspace hrest ih => exact ih htoken
  | @lexeme before input text tokens lexeme hinput hstart hcut hrest ih =>
      rcases List.mem_cons.1 htoken with rfl | htoken
      · exact fun hmem => hcut.newline_notMem hstart (lexeme.value_prefix.subset hmem)
      · exact ih htoken

end Lexes

/-- Reading is a homomorphism at line breaks: the tokens of two texts with a line break
between them are those of the first without the mark of its end, then those of the second,
each as many lines down as the first text and the break take up.  No token has a line break
in it. -/
theorem tokens_append_newline (first second : String) :
    ∃ front eof, tokens first = front ++ [eof] ∧ eof.kind = .eof ∧
      (∀ token ∈ front, token.kind ≠ .eof) ∧
      tokens (first ++ "\n" ++ second) =
        front ++ (tokens second).map (·.downBy (1 + first.toList.count '\n')) ∧
      ∀ token ∈ tokens (first ++ "\n" ++ second), '\n' ∉ token.value.toList := by
  have hfirst := tokens_lexes first
  have hsecond := (tokens_lexes second).behind_newline first.toList
  have hboth := tokens_lexes (first ++ "\n" ++ second)
  have hjoined : Lexes [] ((tokens first).filter (·.kind ≠ .eof) ++
      (tokens second).map (·.downBy (1 + first.toList.count '\n')))
      (first ++ "\n" ++ second).toList := by
    have htext : (first ++ "\n" ++ second).toList = first.toList ++ '\n' :: second.toList := by
      simp
    rw [htext]
    exact hfirst.append_newline hsecond
  refine ⟨_, _, hfirst.ends, rfl, ?_, hboth.unique hjoined, ?_⟩
  · intro token htoken
    simpa using (List.mem_filter.1 htoken).2
  · exact fun token htoken => hboth.newline_notMem_value htoken

/-- Neither a number run nor an open string goes on behind a line break. -/
example : (tokens "1,\n2 \"a\nb").map Token.kind =
    [.intLit, .comma, .intLit, .illegal, .ident, .eof] := by
  decide +kernel

end Source

end OriSyntax
