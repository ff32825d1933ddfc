import OriSyntax.Outline

/-!
Reading an outline back from its lines.  Below a heading stand the lines that follow it
and are further in; so the lines show which nodes of a given sort an outline has, in
order and each with all that stands below it.
-/

namespace OriSyntax.Outline

/-- The heading of an outline. -/
def heading : Outline → String
  | node heading _ => heading

/-- What stands below the heading. -/
def parts : Outline → List Outline
  | node _ below => below

@[simp] theorem heading_node (heading : String) (below : List Outline) :
    (node heading below).heading = heading := rfl

@[simp] theorem parts_node (heading : String) (below : List Outline) :
    (node heading below).parts = below := rfl

mutual

/-- An outline and all outlines inside it, in the order of their headings, as far as
their headings are among `names`. -/
def shown (names : String → Bool) : Outline → List Outline
  | node heading below =>
      if names heading then node heading below :: shownIn names below
      else shownIn names below

/-- Those that are shown by outlines in a row. -/
def shownIn (names : String → Bool) : List Outline → List Outline
  | [] => []
  | outline :: rest => shown names outline ++ shownIn names rest

end

variable (names : String → Bool)

@[simp] theorem shownIn_nil : shownIn names [] = [] := by
  rw [shownIn]

@[simp] theorem shownIn_cons (outline : Outline) (rest : List Outline) :
    shownIn names (outline :: rest) = shown names outline ++ shownIn names rest := by
  rw [shownIn]

@[simp] theorem shownIn_append (outlines rest : List Outline) :
    shownIn names (outlines ++ rest) = shownIn names outlines ++ shownIn names rest := by
  induction outlines with
  | nil => rw [List.nil_append, shownIn_nil, List.nil_append]
  | cons outline others ih =>
      rw [List.cons_append, shownIn_cons, shownIn_cons, ih, List.append_assoc]

theorem shownIn_map {α : Type} (outline : α → Outline) (items : List α) :
    shownIn names (items.map outline) = items.flatMap fun item => shown names (outline item) := by
  induction items with
  | nil => rw [List.map_nil, shownIn_nil, List.flatMap_nil]
  | cons item rest ih => rw [List.map_cons, shownIn_cons, ih, List.flatMap_cons]

theorem shown_eq (outline : Outline) :
    shown names outline =
      (if names outline.heading then [outline] else []) ++ shownIn names outline.parts := by
  obtain ⟨heading, below⟩ := outline
  rw [shown, heading_node, parts_node]
  by_cases hname : names heading
  · rw [if_pos hname, if_pos hname, List.singleton_append]
  · rw [if_neg hname, if_neg hname, List.nil_append]

/-- A heading that is not asked for shows what is below it. -/
theorem shown_node_of_not {heading : String} (hname : names heading = false)
    (below : List Outline) : shown names (node heading below) = shownIn names below := by
  rw [shown, if_neg (by rw [hname]; exact Bool.false_ne_true)]

/-- The line, further in by some levels. -/
def Line.indent (levels : Nat) (line : Line) : Line := ⟨line.depth + levels, line.text⟩

/-- The line, brought back to the margin from a depth. -/
def Line.outdent (levels : Nat) (line : Line) : Line := ⟨line.depth - levels, line.text⟩

theorem Line.outdent_indent (levels : Nat) (line : Line) :
    (line.indent levels).outdent levels = line := by
  obtain ⟨depth, text⟩ := line
  simp [Line.indent, Line.outdent]

mutual

theorem linesAt_eq (depth : Nat) (rest : List Line) (outline : Outline) :
    linesAt depth rest outline = (linesAt 0 [] outline).map (Line.indent depth) ++ rest := by
  match outline with
  | node heading below =>
      rw [linesAt, linesAt, linesOfAll_eq (depth + 1) rest below, linesOfAll_eq (0 + 1) [] below]
      simp [Line.indent, Nat.add_comm, Nat.add_left_comm]

theorem linesOfAll_eq (depth : Nat) (rest : List Line) (outlines : List Outline) :
    linesOfAll depth rest outlines =
      (linesOfAll 0 [] outlines).map (Line.indent depth) ++ rest := by
  match outlines with
  | [] => rfl
  | outline :: others =>
      rw [linesOfAll, linesOfAll, linesAt_eq depth _ outline, linesOfAll_eq depth rest others,
        linesAt_eq 0 (linesOfAll 0 [] others) outline]
      simp [Line.indent]

end

/-- Outlines in a row are written ahead of the lines behind them. -/
theorem linesOfAll_append (depth : Nat) (rest : List Line) (outlines : List Outline) :
    linesOfAll depth rest outlines = linesOfAll depth [] outlines ++ rest := by
  rw [linesOfAll_eq depth rest, linesOfAll_eq depth [], List.append_nil]

/-- The lines of outlines in a row, further in by some levels. -/
theorem linesOfAll_add (levels depth : Nat) (outlines : List Outline) :
    linesOfAll (depth + levels) [] outlines =
      (linesOfAll depth [] outlines).map (Line.indent levels) := by
  rw [linesOfAll_eq (depth + levels), linesOfAll_eq depth]
  simp [Line.indent, Nat.add_assoc]

/-- No line of outlines in a row stands further out than they do. -/
theorem le_depth_of_mem_linesOfAll {depth : Nat} {outlines : List Outline} {line : Line}
    (hline : line ∈ linesOfAll depth [] outlines) : depth ≤ line.depth := by
  rw [linesOfAll_eq, List.append_nil] at hline
  obtain ⟨inner, -, rfl⟩ := List.mem_map.1 hline
  exact Nat.le_add_left depth inner.depth

/-- The nodes that lines show: from each line whose text is asked for, that line and the
lines behind it that stand further in, brought to the margin. -/
def listed : List Line → List (List Line)
  | [] => []
  | line :: rest =>
      if names line.text then
        (line :: rest.takeWhile fun inner => line.depth < inner.depth).map
          (Line.outdent line.depth) :: listed rest
      else listed rest

/-- Lines that do not continue an outline at a depth: the first is no further in. -/
def Leaves (depth : Nat) (rest : List Line) : Prop :=
  ∀ line ∈ rest.head?, line.depth ≤ depth

variable {names}

theorem Leaves.nil (depth : Nat) : Leaves depth [] := by
  intro line hline
  cases hline

theorem Leaves.mono {depth deeper : Nat} {rest : List Line} (hrest : Leaves depth rest)
    (hdepth : depth ≤ deeper) : Leaves deeper rest :=
  fun line hline => Nat.le_trans (hrest line hline) hdepth

/-- Outlines in a row do not continue one that stands beside them. -/
theorem Leaves.linesOfAll {depth : Nat} {rest : List Line} (hrest : Leaves depth rest)
    (outlines : List Outline) : Leaves depth (linesOfAll depth rest outlines) := by
  cases outlines with
  | nil => exact hrest
  | cons outline others =>
      obtain ⟨heading, below⟩ := outline
      intro line hline
      rw [Outline.linesOfAll, linesAt, List.head?_cons, Option.mem_some_iff] at hline
      exact hline ▸ Nat.le_refl depth

/-- The lines further in than a heading are those of what stands below it. -/
theorem takeWhile_linesOfAll {depth : Nat} {rest : List Line} (hrest : Leaves depth rest)
    (below : List Outline) :
    (linesOfAll (depth + 1) rest below).takeWhile (fun line => depth < line.depth) =
      linesOfAll (depth + 1) [] below := by
  have hbelow : ∀ line ∈ linesOfAll (depth + 1) [] below,
      decide (depth < line.depth) = true := by
    intro line hline
    exact decide_eq_true (le_depth_of_mem_linesOfAll hline)
  have hstop : rest.takeWhile (fun line => decide (depth < line.depth)) = [] := by
    cases rest with
    | nil => rfl
    | cons line others =>
        have hline : line.depth ≤ depth := hrest line rfl
        rw [List.takeWhile_cons_of_neg]
        simpa using hline
  rw [linesOfAll_append, List.takeWhile_append_of_pos hbelow, hstop, List.append_nil]

/-- A heading and what stands below it, brought back to the margin. -/
theorem lines_node_outdent (depth : Nat) (heading : String) (below : List Outline) :
    (⟨depth, heading⟩ :: linesOfAll (depth + 1) [] below).map (Line.outdent depth) =
      (node heading below).lines := by
  have hback : (Line.outdent depth ∘ Line.indent depth) = id :=
    funext (Line.outdent_indent depth)
  rw [Nat.add_comm depth 1, linesOfAll_add, List.map_cons, List.map_map, hback, List.map_id,
    lines, linesAt, Line.outdent, Nat.sub_self]

mutual

/-- The lines of an outline show the nodes that it has. -/
theorem listed_linesAt {depth : Nat} {rest : List Line} (hrest : Leaves depth rest)
    (outline : Outline) :
    listed names (linesAt depth rest outline) =
      (shown names outline).map lines ++ listed names rest := by
  match outline with
  | node heading below =>
      have hbelow := listed_linesOfAll (hrest.mono (Nat.le_succ depth)) below
      rw [linesAt, listed, shown]
      by_cases hname : names heading
      · rw [if_pos hname, if_pos hname, takeWhile_linesOfAll hrest, lines_node_outdent, hbelow,
          List.map_cons, List.cons_append]
      · rw [if_neg hname, if_neg hname, hbelow]

theorem listed_linesOfAll {depth : Nat} {rest : List Line} (hrest : Leaves depth rest)
    (outlines : List Outline) :
    listed names (linesOfAll depth rest outlines) =
      (shownIn names outlines).map lines ++ listed names rest := by
  match outlines with
  | [] => rw [linesOfAll, shownIn_nil, List.map_nil, List.nil_append]
  | outline :: others =>
      rw [linesOfAll, listed_linesAt (hrest.linesOfAll others) outline,
        listed_linesOfAll hrest others, shownIn_cons, List.map_append, List.append_assoc]

end

theorem listed_lines (names : String → Bool) (outline : Outline) :
    listed names outline.lines = (shown names outline).map lines := by
  rw [lines, listed_linesAt (Leaves.nil 0), listed, List.append_nil]

end OriSyntax.Outline
