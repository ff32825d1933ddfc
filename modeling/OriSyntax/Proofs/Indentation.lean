import OriSyntax.Proofs.Quoting
import OriSyntax.Proofs.Rendering

/-!
Reading an outline back from its text.  If no heading has a line break in it or begins with a
blank, the text falls into lines, the blanks before a heading tell its depth, and the depths tell
what stands below what; so different outlines are written differently.
-/

namespace OriSyntax

/-- What tells items apart that another function tells apart, tells lists of them apart. -/
theorem map_eq_of_map_eq {α β γ : Type} {seen : α → β} {kept : α → γ} {items items' : List α}
    (hkept : ∀ item ∈ items, ∀ item' ∈ items', seen item = seen item' → kept item = kept item')
    (hseen : items.map seen = items'.map seen) : items.map kept = items'.map kept := by
  induction items generalizing items' with
  | nil =>
      rw [List.map_nil, List.nil_eq, List.map_eq_nil_iff] at hseen
      rw [hseen]
  | cons item rest ih =>
      cases items' with
      | nil => simp at hseen
      | cons item' rest' =>
          rw [List.map_cons, List.map_cons, List.cons.injEq] at hseen
          have hfirst := hkept item List.mem_cons_self item' List.mem_cons_self hseen.1
          have hrest := ih (fun other hother other' hother' =>
            hkept other (List.mem_cons_of_mem item hother) other'
              (List.mem_cons_of_mem item' hother')) hseen.2
          rw [List.map_cons, List.map_cons, hfirst, hrest]

namespace Outline

mutual

/-- The text of a heading is one line and begins with no blank, and so below it. -/
def Legible : Outline → Prop
  | node heading below =>
      ('\n' ∉ heading.toList ∧ heading.toList.head? ≠ some ' ') ∧ LegibleAll below

/-- All outlines are legible. -/
def LegibleAll : List Outline → Prop
  | [] => True
  | outline :: rest => outline.Legible ∧ LegibleAll rest

end

theorem legibleAll_iff {outlines : List Outline} :
    LegibleAll outlines ↔ ∀ outline ∈ outlines, outline.Legible := by
  induction outlines with
  | nil => simp [LegibleAll]
  | cons outline rest ih => rw [LegibleAll, ih, List.forall_mem_cons]

/-- A line with a legible text. -/
def Line.Legible (line : Line) : Prop :=
  '\n' ∉ line.text.toList ∧ line.text.toList.head? ≠ some ' '

mutual

theorem Legible.linesAt {outline : Outline} (houtline : outline.Legible) {depth : Nat}
    {rest : List Line} (hrest : ∀ line ∈ rest, line.Legible) :
    ∀ line ∈ linesAt depth rest outline, line.Legible := by
  match outline with
  | node heading below =>
      rw [Legible] at houtline
      rw [Outline.linesAt]
      exact List.forall_mem_cons.2 ⟨houtline.1, houtline.2.linesOfAll hrest⟩

theorem LegibleAll.linesOfAll {outlines : List Outline} (houtlines : LegibleAll outlines)
    {depth : Nat} {rest : List Line} (hrest : ∀ line ∈ rest, line.Legible) :
    ∀ line ∈ linesOfAll depth rest outlines, line.Legible := by
  match outlines with
  | [] => exact hrest
  | outline :: others =>
      rw [LegibleAll] at houtlines
      rw [Outline.linesOfAll]
      exact houtlines.1.linesAt (houtlines.2.linesOfAll hrest)

end

/-- What a line shows: its blanks and its text. -/
def Line.shows (line : Line) : List Char :=
  List.replicate (2 * line.depth) ' ' ++ line.text.toList

theorem toList_pushn (text : String) (c : Char) (count : Nat) :
    (text.pushn c count).toList = text.toList ++ List.replicate count c := by
  rw [String.pushn_eq_repeat_push]
  induction count with
  | zero => simp [Nat.repeat]
  | succ count ih => simp [Nat.repeat, ih, List.replicate_succ']

theorem Line.toList_write (line : Line) : line.write.toList = line.shows ++ ['\n'] := by
  simp [write, shows, toList_pushn]

theorem Line.shows_inj {line line' : Line} (hline : line.Legible) (hline' : line'.Legible)
    (hshows : line.shows = line'.shows) : line = line' := by
  have hblanks {line : Line} (hline : line.Legible) :
      line.shows.takeWhile (· = ' ') = List.replicate (2 * line.depth) ' ' := by
    have hstop : line.text.toList.takeWhile (· = ' ') = [] := by
      cases htext : line.text.toList with
      | nil => rfl
      | cons c text =>
          have hc : c ≠ ' ' := fun hc => hline.2 (by rw [htext, hc]; rfl)
          simp [hc]
    rw [shows, List.takeWhile_append_of_pos (by simp), hstop, List.append_nil]
  have hdepth : line.depth = line'.depth := by
    have hlength := congrArg List.length
      ((hblanks hline).symm.trans ((congrArg _ hshows).trans (hblanks hline')))
    simp only [List.length_replicate] at hlength
    omega
  obtain ⟨depth, text⟩ := line
  obtain ⟨depth', text'⟩ := line'
  obtain rfl : depth = depth' := hdepth
  have htext : text = text' := String.toList_inj.1 (List.append_cancel_left hshows)
  rw [htext]

theorem toList_render (outline : Outline) :
    outline.render.toList = outline.lines.flatMap fun line => line.shows ++ ['\n'] := by
  rw [render, Text.toList_foldl_append]
  simp [Line.toList_write]

/-- A text shows the lines that were written. -/
theorem lines_eq_of_render {outline outline' : Outline} (houtline : outline.Legible)
    (houtline' : outline'.Legible) (hrender : outline.render = outline'.render) :
    outline.lines = outline'.lines := by
  have hlines {outline : Outline} (houtline : outline.Legible) :
      ∀ line ∈ outline.lines, line.Legible := houtline.linesAt nofun
  have hpieces {outline : Outline} (houtline : outline.Legible) :
      Text.pieces '\n' outline.render.toList = outline.lines.map Line.shows ++ [[]] := by
    rw [toList_render]
    refine Text.pieces_flatMap fun line hline => ?_
    have htext := (hlines houtline line hline).1
    simp [Line.shows, htext]
  have hshows : outline.lines.map Line.shows = outline'.lines.map Line.shows := by
    have hboth := (hpieces houtline).symm.trans
      ((congrArg _ (congrArg _ hrender)).trans (hpieces houtline'))
    exact List.append_cancel_right hboth
  have hsame : outline.lines.map id = outline'.lines.map id :=
    map_eq_of_map_eq (fun line hline line' hline' =>
      Line.shows_inj (hlines houtline line hline) (hlines houtline' line' hline')) hshows
  simpa using hsame

/-- Outlines in a row end where the depth falls below theirs. -/
theorem linesOfAll_inj (outlines outlines' : List Outline) {depth : Nat} {rest rest' : List Line}
    (hrest : Leaves depth rest) (hrest' : Leaves depth rest')
    (hlines : linesOfAll (depth + 1) rest outlines = linesOfAll (depth + 1) rest' outlines') :
    outlines = outlines' ∧ rest = rest' := by
  have hstarts {depth : Nat} {rest lines : List Line} {heading : String}
      (hrest : Leaves depth rest) : rest ≠ ⟨depth + 1, heading⟩ :: lines := by
    rintro rfl
    exact absurd (hrest _ rfl) (Nat.not_succ_le_self depth)
  match outlines, outlines' with
  | [], [] => exact ⟨rfl, hlines⟩
  | [], node heading below :: others =>
      rw [linesOfAll, linesOfAll, linesAt] at hlines
      exact absurd hlines (hstarts hrest)
  | node heading below :: others, [] =>
      rw [linesOfAll, linesOfAll, linesAt] at hlines
      exact absurd hlines.symm (hstarts hrest')
  | node heading below :: others, node heading' below' :: others' =>
      rw [linesOfAll, linesOfAll, linesAt, linesAt] at hlines
      obtain ⟨hline, hbehind⟩ := List.cons.inj hlines
      obtain ⟨-, rfl⟩ := Line.mk.inj hline
      obtain ⟨rfl, hothers⟩ := linesOfAll_inj below below'
        ((hrest.mono (Nat.le_succ depth)).linesOfAll others)
        ((hrest'.mono (Nat.le_succ depth)).linesOfAll others') hbehind
      obtain ⟨rfl, hsame⟩ := linesOfAll_inj others others' hrest hrest' hothers
      exact ⟨rfl, hsame⟩

theorem lines_inj {outline outline' : Outline} (hlines : outline.lines = outline'.lines) :
    outline = outline' := by
  obtain ⟨heading, below⟩ := outline
  obtain ⟨heading', below'⟩ := outline'
  rw [lines, lines, linesAt, linesAt] at hlines
  obtain ⟨hline, hbelow⟩ := List.cons.inj hlines
  obtain ⟨-, rfl⟩ := Line.mk.inj hline
  obtain ⟨rfl, -⟩ := linesOfAll_inj below below' (Leaves.nil 0) (Leaves.nil 0) hbelow
  rfl

/-- Legible outlines can be read back from their texts. -/
theorem render_inj {outline outline' : Outline} (houtline : outline.Legible)
    (houtline' : outline'.Legible) (hrender : outline.render = outline'.render) :
    outline = outline' :=
  lines_inj (lines_eq_of_render houtline houtline' hrender)

end Outline

end OriSyntax
