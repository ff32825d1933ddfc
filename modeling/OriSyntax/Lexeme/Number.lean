import OriSyntax.Kind

/-!
Number runs: digits with dots, underscores and grouping commas among them.  A run
begins with a digit, or with a dot before a digit; a comma belongs to it only when
a digit follows.  Which runs are numbers is a second question, answered by their
dots and their last character.
-/

namespace OriSyntax.Number

/-- Characters that may stand anywhere in a run after its first digit. -/
def isInner (c : Char) : Bool := c.isDigit || c = '.' || c = '_'

/-- The length of a run, `taken` characters of which are behind. -/
def reachFrom (taken : Nat) : List Char → Nat
  | [] => taken
  | c :: rest =>
      if isInner c then reachFrom (taken + 1) rest
      else if c = ',' then
        match rest with
        | digit :: after =>
            if digit.isDigit then reachFrom (taken + 2) after else taken
        | [] => taken
      else taken

/-- The length of the number run at the head of a text; zero if there is none. -/
def reach : List Char → Nat
  | [] => 0
  | c :: rest =>
      if c.isDigit then reachFrom 1 rest
      else if c = '.' then
        match rest with
        | digit :: after => if digit.isDigit then reachFrom 2 after else 0
        | [] => 0
      else 0

/-- What a run of number characters is.  It must hold a digit, at most one dot,
not begin with it, and end with a digit to be a number at all; the dot makes it a
fraction. -/
def classify (run : List Char) : Kind :=
  let dots := run.count '.'
  if !run.any Char.isDigit then .illegal
  else if dots > 1 || run.head? = some '.' then .illegal
  else if run.getLast?.any (fun c => c = '.' || c = '_' || c = ',') then .illegal
  else if dots = 1 then .floatLit
  else .intLit

end OriSyntax.Number
