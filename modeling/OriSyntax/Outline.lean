import OriSyntax.Token

/-!
Outlines: headings with further outlines below them, written one heading a line
and indented by depth.
-/

namespace OriSyntax

/-- A heading and what stands below it. -/
inductive Outline where
  | node (heading : String) (below : List Outline)
deriving Repr, Inhabited

namespace Outline

/-- A written line: how deep it stands, and its text. -/
structure Line where
  depth : Nat
  text : String
deriving DecidableEq, Repr

/-- A heading with nothing below it. -/
def leaf (heading : String) : Outline := node heading []

/-- A labelled token. -/
def token (label : String) (token : Token) : Outline :=
  leaf (label ++ ": " ++ token.display)

/-- A labelled token that may be missing. -/
def token? (label : String) : Option Token → List Outline
  | some found => [token label found]
  | none => []

/-- A labelled truth value. -/
def flag (label : String) (value : Bool) : Outline :=
  leaf (label ++ ": " ++ if value then "true" else "false")

/-- An outline below a label. -/
def child (label : String) (below : Outline) : Outline :=
  node (label ++ ":") [below]

/-- Outlines below a label that says so if there are none. -/
def listing (label : String) (below : List Outline) : Outline :=
  if below.isEmpty then leaf (label ++ ": (none)") else node (label ++ ":") below

mutual

/-- The lines of an outline at a depth, ahead of the lines `rest`. -/
def linesAt (depth : Nat) (rest : List Line) : Outline → List Line
  | node heading below => ⟨depth, heading⟩ :: linesOfAll (depth + 1) rest below

/-- The lines of outlines that stand side by side, ahead of `rest`. -/
def linesOfAll (depth : Nat) (rest : List Line) : List Outline → List Line
  | [] => rest
  | outline :: others => linesAt depth (linesOfAll depth rest others) outline

end

/-- The lines of an outline. -/
def lines (outline : Outline) : List Line := linesAt 0 [] outline

/-- A line as it is written: two blanks for each level, the text, a line feed. -/
def Line.write (line : Line) : String :=
  "".pushn ' ' (2 * line.depth) ++ line.text ++ "\n"

/-- The written outline. -/
def render (outline : Outline) : String :=
  outline.lines.foldl (fun written line => written ++ line.write) ""

end Outline

namespace Token

/-- The outline of a token by itself. -/
def outline (token : Token) : Outline := .leaf ("Token " ++ token.display)

/-- The outline of a token that may be missing. -/
def outline? : Option Token → Outline
  | some token => token.outline
  | none => .leaf "(nil)"

end Token

end OriSyntax
