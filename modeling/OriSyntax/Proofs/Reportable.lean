import OriSyntax.Grammar.File
import OriSyntax.Proofs.Reading

/-!
What may be reported.  A diagnostic takes its message from the place where it is made and from
tokens of the file; so it says that there is no loop around only where there is none, its
message is one line if the tokens are, and an illegal token has the code of its own cause,
save in a malformed list, behind a branch and beyond the limit of nesting.
-/

namespace OriSyntax

/-- A text without a line break. -/
def OneLine (text : String) : Prop := '\n' ∉ text.toList

instance (text : String) : Decidable (OneLine text) := inferInstanceAs (Decidable (_ ∉ _))

theorem OneLine.append {text more : String} (htext : OneLine text) (hmore : OneLine more) :
    OneLine (text ++ more) := by
  rw [OneLine, String.toList_append, List.mem_append, not_or]
  exact ⟨htext, hmore⟩

/-- A diagnostic that may be made in a file of these tokens, inside `depth` loops. -/
structure Reportable (tokens : List Token) (depth : Nat) (diagnostic : Diagnostic) : Prop where
  loops : diagnostic.code = .outsideLoop → depth = 0
  oneLine : (∀ token ∈ tokens, OneLine token.value) → OneLine diagnostic.message
  lexical : diagnostic.got.kind = .illegal →
    diagnostic = .illegal diagnostic.got ∨ diagnostic.code = .malformedList ∨
      diagnostic.code = .misplacedBranch ∨
        diagnostic = .nestingTooDeep Grammar.maxNesting diagnostic.got

namespace Reportable

variable {tokens : List Token} {depth : Nat} {diagnostic : Diagnostic} {got name : Token}
  {what : String}

/-- Inside a loop nothing is said to be outside of every loop. -/
theorem code_ne (hdiagnostic : Reportable tokens (depth + 1) diagnostic) :
    diagnostic.code ≠ .outsideLoop :=
  fun hcode => Nat.succ_ne_zero depth (hdiagnostic.loops hcode)

/-- What may be made inside a loop may be made outside. -/
theorem outside (hdiagnostic : Reportable tokens (depth + 1) diagnostic) :
    Reportable tokens depth diagnostic where
  loops hcode := absurd hcode hdiagnostic.code_ne
  oneLine := hdiagnostic.oneLine
  lexical := hdiagnostic.lexical

/-- A diagnostic with a message of its own at a token that is not illegal. -/
theorem of_plain (hcode : diagnostic.code ≠ .outsideLoop) (hmessage : OneLine diagnostic.message)
    (hgot : diagnostic.got.kind ≠ .illegal) : Reportable tokens depth diagnostic where
  loops hloop := absurd hloop hcode
  oneLine _ := hmessage
  lexical hillegal := absurd hillegal hgot

theorem code_illegal_ne (got : Token) : (Diagnostic.illegal got).code ≠ .outsideLoop := by
  unfold Diagnostic.illegal Diagnostic.lexicalCause
  dsimp only
  split
  · split
    · decide
    · split <;> decide
  · decide

theorem illegal : Reportable tokens depth (.illegal got) where
  loops hcode := absurd hcode (code_illegal_ne got)
  oneLine _ := by
    unfold Diagnostic.illegal
    dsimp only
    split <;> decide
  lexical _ := .inl rfl

theorem expected {code : ErrorCode} (hcode : code ≠ .outsideLoop) (hwhat : OneLine what)
    (hgot : got.kind ≠ .illegal) : Reportable tokens depth (.expected code what got) :=
  of_plain hcode (.append (by decide) hwhat) hgot

theorem unsupportedType (hwhat : OneLine what) (hgot : got.kind ≠ .illegal) :
    Reportable tokens depth (.unsupportedType what got) :=
  of_plain nofun (.append (by decide) hwhat) hgot

theorem malformedList (hmessage : OneLine what) :
    Reportable tokens depth (.malformedList what got) where
  loops := nofun
  oneLine _ := hmessage
  lexical _ := .inr (.inl rfl)

theorem chainedComparison (hgot : got.kind ≠ .illegal) :
    Reportable tokens depth (.chainedComparison got) :=
  of_plain nofun (by decide : OneLine "use && (e.g. a < b && b < c)") hgot

theorem assignmentInCondition (hgot : got.kind ≠ .illegal) :
    Reportable tokens depth (.assignmentInCondition got) :=
  of_plain nofun (by decide : OneLine "assignment not allowed in if condition; use ==") hgot

/-- Only outside of every loop. -/
theorem outsideLoop (hdepth : depth = 0) (hname : name ∈ tokens) (hgot : name.kind ≠ .illegal) :
    Reportable tokens depth (.outsideLoop name) where
  loops _ := hdepth
  oneLine htokens := .append (.append (by decide) (htokens name hname)) (by decide)
  lexical hillegal := absurd hillegal hgot

theorem afterBranch (hname : name ∈ tokens) : Reportable tokens depth (.afterBranch name got) where
  loops := nofun
  oneLine htokens := .append (.append (by decide) (htokens name hname)) (by decide)
  lexical _ := .inr (.inr (.inl rfl))

theorem misplacedFallThrough : Reportable tokens depth (.misplacedFallThrough got) where
  loops := nofun
  oneLine _ := (by decide : OneLine "'fallthrough' must be the last statement in a case")
  lexical _ := .inr (.inr (.inl rfl))

theorem repeatedDefault (hgot : got.kind ≠ .illegal) :
    Reportable tokens depth (.repeatedDefault got) :=
  of_plain nofun (by decide : OneLine "multiple defaults in switch") hgot

theorem invalidForClause (hwhat : OneLine what) (hgot : got.kind ≠ .illegal) :
    Reportable tokens depth (.invalidForClause what got) :=
  of_plain nofun (.append (.append (by decide) hwhat) (by decide)) hgot

theorem unsupportedStatement (hgot : got.kind ≠ .illegal) :
    Reportable tokens depth (.unsupportedStatement got) :=
  of_plain nofun (by decide : OneLine "unsupported statement") hgot

theorem unexpectedAtFileScope (hname : got ∈ tokens) (hgot : got.kind ≠ .illegal) :
    Reportable tokens depth (.unexpectedAtFileScope got) where
  loops := nofun
  oneLine htokens := .append (.append (by decide) (htokens got hname)) (by decide)
  lexical hillegal := absurd hillegal hgot

theorem variableAtFileScope (hgot : got.kind ≠ .illegal) :
    Reportable tokens depth (.variableAtFileScope got) :=
  of_plain nofun (by decide : OneLine "unsupported statement") hgot

theorem emptyType (hwhat : OneLine what) (hname : name ∈ tokens) (hgot : got.kind ≠ .illegal) :
    Reportable tokens depth (.emptyType what name got) where
  loops := nofun
  oneLine htokens := .append
    (.append (.append hwhat (by decide)) (htokens name hname)) (by decide)
  lexical hillegal := absurd hillegal hgot

theorem nestingTooDeep : Reportable tokens depth (.nestingTooDeep Grammar.maxNesting got) where
  loops := nofun
  oneLine _ := (by decide : OneLine s!"nesting deeper than {Grammar.maxNesting} levels")
  lexical _ := .inr (.inr (.inr rfl))

end Reportable

end OriSyntax
