import Mathlib.Data.List.Chain
import OriSyntax.Proofs.Lossless

/-!
Where the nodes of a tree begin and end.  If tokens stand in order, every node ends behind
its beginning, the nodes inside it lie between the two, and of two nodes side by side the
second one begins no earlier than the first one ends.  All of this follows from the order of
the pieces, since a node begins with its first piece, ends with its last one, and the nodes
inside it are made of parts of its pieces.
-/

namespace OriSyntax

/-- A node of a tree: its first and its last token, and the nodes inside it in the order of
its fields. -/
inductive Extent where
  | node (first last : Token) (inside : List Extent)

namespace Extent

def first : Extent → Token
  | node first _ _ => first

def last : Extent → Token
  | node _ last _ => last

def inside : Extent → List Extent
  | node _ _ inside => inside

/-- A node that is a single token. -/
def leaf (token : Token) : Extent := node token token []

mutual

/-- A node and all nodes inside it, at any depth. -/
def nodes : Extent → List Extent
  | node first last inside => node first last inside :: nodesOfAll inside

/-- All nodes of some trees. -/
def nodesOfAll : List Extent → List Extent
  | [] => []
  | extent :: rest => extent.nodes ++ nodesOfAll rest

end

theorem mem_nodesOfAll {node : Extent} {extents : List Extent} :
    node ∈ nodesOfAll extents ↔ ∃ extent ∈ extents, node ∈ extent.nodes := by
  induction extents with
  | nil => simp [nodesOfAll]
  | cons extent rest ih => simp [nodesOfAll, ih]

/-- Nodes side by side: none ends further along than the next one begins. -/
def InRow (extents : List Extent) : Prop :=
  extents.IsChain fun earlier later => earlier.last.position ≤ later.first.position

/-- A node ends behind its beginning, and the nodes inside it lie between the two, side by
side. -/
structure Ordered (extent : Extent) : Prop where
  span : extent.first.position ≤ extent.last.position
  within : ∀ child ∈ extent.inside, extent.first.position ≤ child.first.position ∧
    child.last.position ≤ extent.last.position
  row : InRow extent.inside

end Extent

/-!
### The nodes of a tree

Tokens are no nodes, so a node has those of its fields inside it that are types, expressions,
lists, blocks and the like.  What only wraps a bad node, a block or a function is one node
with it, as the two have the same tokens.
-/

def TypeExpr.extent (type : TypeExpr) : Extent := .node type.first type.last []

mutual

/-- The nodes inside an expression. -/
def Expr.parts : Expr → List Extent
  | .ident _ | .literal .. | .bad _ => []
  | .paren _ inner _ => [.node inner.first inner.last inner.parts]
  | .unary _ operand => [.node operand.first operand.last operand.parts]
  | .binary left _ right =>
      [.node left.first left.last left.parts, .node right.first right.last right.parts]
  | .selector base _ _ => [.node base.first base.last base.parts]
  | .index base _ inner _ =>
      [.node base.first base.last base.parts, .node inner.first inner.last inner.parts]
  | .call callee ⟨_, args, _⟩ =>
      .node callee.first callee.last callee.parts :: Expr.extents args

def Expr.extents : List Expr → List Extent
  | [] => []
  | expr :: rest => .node expr.first expr.last expr.parts :: Expr.extents rest

end

def Expr.extent (expr : Expr) : Extent := .node expr.first expr.last expr.parts

def extentOf? {α : Type} (extent : α → Extent) (part : Option α) : List Extent :=
  (part.map extent).toList

def ValueDecl.parts (decl : ValueDecl) : List Extent :=
  extentOf? TypeExpr.extent decl.type ++ [decl.value.extent]

def Param.extent (param : Param) : Extent := .node param.first param.last [param.type.extent]

def ParamList.extent (params : ParamList) : Extent :=
  .node params.opening params.closing (params.items.map Param.extent)

def Results.part : Results → Extent
  | single type => type.extent
  | list params => ParamList.extent params

def Results.extent (results : Results) : Extent := .node results.first results.last [results.part]

def QualifiedName.extent (name : QualifiedName) : Extent := .node name.first name.last []

def FieldDecl.extent (field : FieldDecl) : Extent :=
  .node field.first field.last
    (field.type.extent :: extentOf? (fun default => default.value.extent) field.default)

def InterfaceMember.parts : InterfaceMember → List Extent
  | method spec => ParamList.extent spec.params :: extentOf? Results.extent spec.results
  | embed name => [name.extent]

def InterfaceMember.extent (member : InterfaceMember) : Extent :=
  .node member.first member.last member.parts

def SumVariant.extent (variant : SumVariant) : Extent :=
  .node variant.first variant.last (extentOf? ParamList.extent variant.params)

def TypeDecl.extent {α : Type} (extent : α → Extent) (decl : TypeDecl α) : Extent :=
  .node decl.first decl.last (decl.body.items.map extent)

def ImplementsDecl.extent (decl : ImplementsDecl) : Extent :=
  .node decl.first decl.last [decl.interface.extent]

mutual

/-- The nodes inside a statement. -/
def Stmt.parts : Stmt → List Extent
  | .block ⟨_, stmts, _⟩ => Stmt.extents stmts
  | .const decl | .var decl => decl.parts
  | .assign left _ right => [left.extent, right.extent]
  | .incDec target _ => [target.extent]
  | .effect value => [value.extent]
  | .returns _ values => values.map Expr.extent
  | .ifElse _ condition body otherwise =>
      condition.extent :: Stmt.extentOfBlock body :: Stmt.extent? otherwise
  | .forLoop _ first condition after body =>
      Stmt.extent? first ++ extentOf? Expr.extent condition ++ Stmt.extent? after ++
        [Stmt.extentOfBlock body]
  | .rangeLoop _ key value _ _ subject body =>
      extentOf? Expr.extent key ++ extentOf? Expr.extent value ++
        [subject.extent, Stmt.extentOfBlock body]
  | .switch _ first tag ⟨_, cases, _⟩ =>
      Stmt.extent? first ++ extentOf? Expr.extent tag ++ Stmt.extents cases
  | .clause _ values _ body => values.map Expr.extent ++ Stmt.extents body
  | .breakLoop _ | .continueLoop _ | .fallThrough _ | .bad _ => []
  | .decl inner => [.node inner.first inner.last inner.parts]

def Stmt.extentOfBlock : Enclosed Stmt → Extent
  | ⟨opening, stmts, closing⟩ => .node opening closing (Stmt.extents stmts)

def Stmt.extent? : Option Stmt → List Extent
  | none => []
  | some stmt => [.node stmt.first stmt.last stmt.parts]

def Stmt.extents : List Stmt → List Extent
  | [] => []
  | stmt :: rest => .node stmt.first stmt.last stmt.parts :: Stmt.extents rest

/-- The nodes inside a declaration. -/
def Decl.parts : Decl → List Extent
  | .func ⟨_, _, params, results, body⟩ =>
      ParamList.extent params :: extentOf? Results.extent results ++ [Stmt.extentOfBlock body]
  | .struct inner => inner.body.items.map FieldDecl.extent
  | .interface inner => inner.body.items.map InterfaceMember.extent
  | .enum inner => inner.body.items.map .leaf
  | .sum inner => inner.body.items.map SumVariant.extent
  | .implements inner => [inner.interface.extent]
  | .bad _ => []

end

def Stmt.extent (stmt : Stmt) : Extent := .node stmt.first stmt.last stmt.parts

def Decl.extent (decl : Decl) : Extent := .node decl.first decl.last decl.parts

/-- The top-level items of a file, each bucket by itself. -/
def File.buckets (file : File) : List (List Extent) :=
  [file.consts.map Stmt.extent, file.decls.map Decl.extent,
    file.structs.map (TypeDecl.extent FieldDecl.extent),
    file.interfaces.map (TypeDecl.extent InterfaceMember.extent),
    file.enums.map (TypeDecl.extent .leaf), file.sums.map (TypeDecl.extent SumVariant.extent),
    file.implements.map ImplementsDecl.extent]

namespace Extent

mutual

/-- A node begins with the first and ends with the last of some pieces, and the nodes inside
it are made of parts of them. -/
def MadeOf : Extent → List Piece → Prop
  | node first last inside, pieces => firstTokenOf pieces = some first ∧
      lastTokenOf pieces = some last ∧ MadeOfAll inside pieces

/-- Nodes side by side are made of parts of some pieces, one part behind the other. -/
def MadeOfAll : List Extent → List Piece → Prop
  | [], _ => True
  | extent :: rest, pieces => ∃ before own after, pieces = before ++ own ++ after ∧
      extent.MadeOf own ∧ MadeOfAll rest after

end

variable {extent : Extent} {extents others : List Extent} {pieces rest : List Piece}

namespace MadeOfAll

theorem nil : MadeOfAll [] pieces := by
  rw [MadeOfAll]
  trivial

theorem singleton (hextent : extent.MadeOf pieces) : MadeOfAll [extent] pieces := by
  rw [MadeOfAll]
  exact ⟨[], pieces, [], by simp, hextent, nil⟩

theorem append_left (more : List Piece) (hextents : MadeOfAll extents pieces) :
    MadeOfAll extents (more ++ pieces) := by
  cases extents with
  | nil => exact nil
  | cons extent rest =>
      rw [MadeOfAll] at hextents ⊢
      obtain ⟨before, own, after, rfl, hextent, hrest⟩ := hextents
      exact ⟨more ++ before, own, after, by simp, hextent, hrest⟩

theorem cons (piece : Piece) (hextents : MadeOfAll extents pieces) :
    MadeOfAll extents (piece :: pieces) :=
  append_left [piece] hextents

theorem append (hextents : MadeOfAll extents pieces) (hothers : MadeOfAll others rest) :
    MadeOfAll (extents ++ others) (pieces ++ rest) := by
  induction extents generalizing pieces with
  | nil => exact append_left pieces hothers
  | cons extent extents ih =>
      rw [MadeOfAll] at hextents
      obtain ⟨before, own, after, rfl, hextent, hafter⟩ := hextents
      rw [List.cons_append, MadeOfAll]
      exact ⟨before, own, after ++ rest, by simp, hextent, ih hafter⟩

theorem append_right (more : List Piece) (hextents : MadeOfAll extents pieces) :
    MadeOfAll extents (pieces ++ more) := by
  have hnone : MadeOfAll [] more := nil
  simpa using hextents.append hnone

theorem map {α : Type} {node : α → Extent} {nodePieces : α → List Piece}
    (hnode : ∀ item, (node item).MadeOf (nodePieces item)) (items : List α) :
    MadeOfAll (items.map node) (items.flatMap nodePieces) := by
  induction items with
  | nil => exact nil
  | cons item items ih =>
      rw [List.map_cons, List.flatMap_cons]
      exact (singleton (hnode item)).append ih

theorem option {α : Type} {node : α → Extent} {nodePieces : α → List Piece}
    (hnode : ∀ item, (node item).MadeOf (nodePieces item)) (part : Option α) :
    MadeOfAll (extentOf? node part) (piecesOf? nodePieces part) := by
  cases part with
  | none => exact nil
  | some item => exact singleton (hnode item)

end MadeOfAll

namespace MadeOf

theorem intro {first last : Token} (hfirst : firstTokenOf pieces = some first)
    (hlast : lastTokenOf pieces = some last) (hextents : MadeOfAll extents pieces) :
    (node first last extents).MadeOf pieces := by
  rw [MadeOf]
  exact ⟨hfirst, hlast, hextents⟩

theorem firstTokenOf_eq (hextent : extent.MadeOf pieces) :
    firstTokenOf pieces = some extent.first := by
  cases extent with
  | node first last inside =>
      rw [MadeOf] at hextent
      exact hextent.1

theorem lastTokenOf_eq (hextent : extent.MadeOf pieces) :
    lastTokenOf pieces = some extent.last := by
  cases extent with
  | node first last inside =>
      rw [MadeOf] at hextent
      exact hextent.2.1

theorem inside (hextent : extent.MadeOf pieces) : MadeOfAll extent.inside pieces := by
  cases extent with
  | node first last inside =>
      rw [MadeOf] at hextent
      exact hextent.2.2

/-- A node with a single node inside it and nothing around that. -/
theorem wrap (hextent : extent.MadeOf pieces) :
    (node extent.first extent.last [extent]).MadeOf pieces :=
  intro hextent.firstTokenOf_eq hextent.lastTokenOf_eq (.singleton hextent)

end MadeOf

end Extent

namespace Extent

variable {extent : Extent} {extents : List Extent} {pieces : List Piece} {low high : Position}

theorem MadeOf.between (hextent : extent.MadeOf pieces) (hpieces : InOrder low pieces high) :
    InOrder extent.first.position pieces extent.last.position :=
  hpieces.between hextent.firstTokenOf_eq hextent.lastTokenOf_eq

theorem MadeOf.le_first (hextent : extent.MadeOf pieces) (hpieces : InOrder low pieces high) :
    low ≤ extent.first.position :=
  hpieces.le_firstTokenOf hextent.firstTokenOf_eq

theorem MadeOf.last_le (hextent : extent.MadeOf pieces) (hpieces : InOrder low pieces high) :
    extent.last.position ≤ high :=
  hpieces.lastTokenOf_le hextent.lastTokenOf_eq

/-- The first of nodes in a row ends at some place, and the others begin behind it. -/
theorem MadeOfAll.split (hextents : MadeOfAll (extent :: extents) pieces)
    (hpieces : InOrder low pieces high) :
    ∃ own after middle, extent.MadeOf own ∧ InOrder low own middle ∧
      MadeOfAll extents after ∧ InOrder middle after high := by
  rw [MadeOfAll] at hextents
  obtain ⟨before, own, after, rfl, hextent, hrest⟩ := hextents
  obtain ⟨middle, hfirst, hafter⟩ := hpieces.split
  obtain ⟨place, hbefore, hown⟩ := hfirst.split
  exact ⟨own, after, middle, hextent, hown.of_le hbefore.le, hrest, hafter⟩

theorem MadeOfAll.within (hextents : MadeOfAll extents pieces) (hpieces : InOrder low pieces high) :
    ∀ child ∈ extents, low ≤ child.first.position ∧ child.last.position ≤ high := by
  induction extents generalizing pieces low with
  | nil => exact fun child hchild => absurd hchild List.not_mem_nil
  | cons extent rest ih =>
      obtain ⟨own, after, middle, hextent, hown, hrest, hafter⟩ := hextents.split hpieces
      intro child hchild
      rcases List.mem_cons.1 hchild with rfl | hchild
      · exact ⟨hextent.le_first hown, Position.le_trans (hextent.last_le hown) hafter.le⟩
      · have hbounds := ih hrest hafter child hchild
        exact ⟨Position.le_trans hown.le hbounds.1, hbounds.2⟩

theorem MadeOfAll.inRow (hextents : MadeOfAll extents pieces) (hpieces : InOrder low pieces high) :
    InRow extents := by
  induction extents generalizing pieces low with
  | nil => exact .nil
  | cons extent rest ih =>
      obtain ⟨own, after, middle, hextent, hown, hrest, hafter⟩ := hextents.split hpieces
      rw [InRow, List.isChain_cons]
      constructor
      · intro later hlater
        have hbounds := hrest.within hafter later (List.mem_of_mem_head? hlater)
        exact Position.le_trans (hextent.last_le hown) hbounds.1
      · exact ih hrest hafter

/-- A node made of pieces in order is ordered. -/
theorem MadeOf.ordered (hextent : extent.MadeOf pieces) (hpieces : InOrder low pieces high) :
    extent.Ordered where
  span := (hextent.between hpieces).le
  within := hextent.inside.within (hextent.between hpieces)
  row := hextent.inside.inRow hpieces

mutual

/-- All nodes of a tree made of pieces in order are ordered. -/
theorem MadeOf.nodes_ordered (extent : Extent) {pieces : List Piece} {low high : Position}
    (hextent : extent.MadeOf pieces) (hpieces : InOrder low pieces high) :
    ∀ node ∈ extent.nodes, node.Ordered := by
  match extent with
  | .node first last inside =>
      intro node hnode
      rw [nodes] at hnode
      rcases List.mem_cons.1 hnode with rfl | hnode
      · exact hextent.ordered hpieces
      · obtain ⟨child, hchild, hnode⟩ := mem_nodesOfAll.1 hnode
        exact MadeOfAll.nodes_ordered inside hextent.inside hpieces child hchild node hnode

theorem MadeOfAll.nodes_ordered (extents : List Extent) {pieces : List Piece}
    {low high : Position} (hextents : MadeOfAll extents pieces)
    (hpieces : InOrder low pieces high) :
    ∀ extent ∈ extents, ∀ node ∈ extent.nodes, node.Ordered := by
  match extents with
  | [] => exact fun extent hextent => absurd hextent List.not_mem_nil
  | extent :: rest =>
      obtain ⟨own, after, middle, hextent, hown, hrest, hafter⟩ := hextents.split hpieces
      intro child hchild
      -- With `rfl` here the recursion would no longer see the head of the list.
      rcases List.mem_cons.1 hchild with hsame | hchild
      · rw [hsame]
        exact MadeOf.nodes_ordered extent hextent hown
      · exact MadeOfAll.nodes_ordered rest hrest hafter child hchild

end

end Extent

end OriSyntax
