import RevisionGraph.Proofs.StripCells
import RevisionGraph.Screen.Render
import RevisionGraph.View.RevisionListDrawing

/-!
# The log as a window

The lines of all rows, one row after the other, are a strip. What the spans of a layout show of their
items is, put together, the window of the strip at the offset, each line on the screen row that it
has in the window.
-/

namespace RevisionGraph

/-! ## Windows of a strip -/

section

variable {α : Type}

/-- Of a strip that begins at line `top`, the lines from `first` to `last` (not included). -/
def linesBetween (top : Nat) (strip : List α) (first last : Nat) : List α :=
  (strip.drop (first - top)).take (last - first)

variable {top first middle last : Nat}

theorem linesBetween_of_le (hle : last ≤ first) (strip : List α) :
    linesBetween top strip first last = [] := by
  rw [linesBetween, Nat.sub_eq_zero_of_le hle, List.take_zero]

theorem linesBetween_append_of_le {block : List α} (hle : top + block.length ≤ first)
    (rest : List α) :
    linesBetween top (block ++ rest) first last =
      linesBetween (top + block.length) rest first last := by
  have hdrop : block.length ≤ first - top := by omega
  rw [linesBetween, linesBetween, List.drop_append, List.drop_of_length_le hdrop, List.nil_append,
    Nat.sub_sub]

theorem linesBetween_append {block : List α} (htop : top ≤ first) (hfirst : first ≤ middle)
    (hmiddle : middle = min last (top + block.length)) (rest : List α) :
    linesBetween top (block ++ rest) first last =
      linesBetween top block first middle ++
        linesBetween (top + block.length) rest middle last := by
  have hdrop : first - top - block.length = 0 := by omega
  have hlength : (block.drop (first - top)).length = top + block.length - first := by
    rw [List.length_drop]
    omega
  have hskip : middle - (top + block.length) = 0 := by omega
  have hrest : last - first - (top + block.length - first) = last - middle := by omega
  rw [linesBetween, linesBetween, linesBetween, List.drop_append, hdrop, List.drop_zero, hskip,
    List.drop_zero, List.take_append, hlength, hrest]
  congr 1
  rw [List.take_eq_take_iff, hlength]
  omega

theorem length_linesBetween (strip : List α) (htop : top ≤ first)
    (hlast : last ≤ top + strip.length) :
    (linesBetween top strip first last).length = last - first := by
  rw [linesBetween, List.length_take, List.length_drop]
  omega

variable {view : Rect} {offset bottom total : Nat}

theorem clampLine_eq_min (hvisible : Visible view offset top bottom) (hle : bottom ≤ total) :
    top ≤ clampLine view offset top ∧
      clampLine view offset bottom = min (clampLine view offset total) bottom := by
  obtain ⟨hheight, habove, hbelow⟩ := hvisible
  unfold clampLine
  omega

theorem le_clampLine_of_not_visible (hvisible : ¬Visible view offset top bottom)
    (hle : top ≤ bottom) (total : Nat) :
    bottom ≤ clampLine view offset top ∨
      clampLine view offset total ≤ clampLine view offset top := by
  unfold Visible at hvisible
  unfold clampLine
  omega

theorem flatMap_spansFrom (hview : view.OnScreen) (lines : Nat → List α) (offset index top : Nat)
    {blocks : List (List α)}
    (hlines : ∀ i block, blocks[i]? = some block → lines (index + i) = block) :
    ((spansFrom view offset index top (blocks.map List.length)).flatMap fun s =>
      (((lines s.index).drop s.clipTop).take s.rect.height).zipIdx s.rect.y) =
      (linesBetween top blocks.flatten (clampLine view offset top)
        (clampLine view offset (top + blocks.flatten.length))).zipIdx
        (view.y + (clampLine view offset top - offset)) := by
  induction blocks generalizing index top with
  | nil => simp [spansFrom, linesBetween]
  | cons block rest ih =>
      have hblock : lines index = block := hlines 0 block rfl
      have hlater (i : Nat) (b : List α) (hb : rest[i]? = some b) :
          lines (index + 1 + i) = b := by
        rw [Nat.add_right_comm]
        exact hlines (i + 1) b hb
      have hrest := ih (index + 1) (top + block.length) hlater
      have hle : top + block.length ≤ top + (block :: rest).flatten.length := by
        rw [List.flatten_cons, List.length_append]
        omega
      rw [List.map_cons, List.flatten_cons, List.length_append, ← Nat.add_assoc]
      rw [List.flatten_cons, List.length_append, ← Nat.add_assoc] at hle
      generalize top + block.length + rest.flatten.length = total at hrest hle
      by_cases hvisible : Visible view offset top (top + block.length)
      · obtain ⟨htop, hmiddle⟩ := clampLine_eq_min hvisible hle
        have hstart := le_clampLine view offset top
        have hmono := clampLine_mono view offset (Nat.le_add_right top block.length)
        have hlength := length_linesBetween block htop
          (hmiddle ▸ Nat.min_le_right ..)
        have hrow : view.y + (clampLine view offset top - offset) +
            (clampLine view offset (top + block.length) - clampLine view offset top) =
              view.y + (clampLine view offset (top + block.length) - offset) := by omega
        rw [spansFrom_cons_of_visible hvisible, List.flatMap_cons, hrest, ofItem_eq hview hvisible,
          linesBetween_append htop hmono hmiddle, List.zipIdx_append, hlength, hrow]
        dsimp only
        rw [hblock]
        rfl
      · rw [spansFrom_cons_of_not_visible hvisible, hrest,
          clampLine_eq_of_not_visible hvisible (Nat.le_add_right ..)]
        congr 1
        obtain habove | hbelow :=
          le_clampLine_of_not_visible hvisible (Nat.le_add_right ..) total
        · exact (linesBetween_append_of_le habove _).symm
        · rw [linesBetween_of_le hbelow, linesBetween_of_le hbelow]

theorem linesBetween_clampLine (view : Rect) (offset : Nat) (strip : List α) :
    linesBetween 0 strip (clampLine view offset 0) (clampLine view offset strip.length) =
      (strip.drop offset).take view.height := by
  have hfirst : clampLine view offset 0 = offset := by
    unfold clampLine
    omega
  rw [linesBetween, hfirst, Nat.sub_zero, List.take_eq_take_iff, List.length_drop]
  unfold clampLine
  omega

theorem flatMap_spans_layoutStrip (hview : view.OnScreen) (lines : Nat → List α) (offset : Nat)
    (cursor : Option Nat) {blocks : List (List α)}
    (hlines : ∀ i block, blocks[i]? = some block → lines i = block) :
    let layout := layoutStrip offset (blocks.map List.length) view cursor
    (layout.spans.flatMap fun s =>
      (((lines s.index).drop s.clipTop).take s.rect.height).zipIdx s.rect.y) =
      ((blocks.flatten.drop layout.offset).take view.height).zipIdx view.y := by
  intro layout
  by_cases hheight : view.height = 0
  · have hspans : layout.spans = [] := spans_layoutStrip_of_height_eq_zero hheight ..
    rw [hspans, hheight]
    rfl
  · have hspans : layout.spans = spansFrom view layout.offset 0 0 (blocks.map List.length) :=
      spans_layoutStrip (Nat.pos_of_ne_zero hheight) ..
    have hlater (i : Nat) (block : List α) (hblock : blocks[i]? = some block) :
        lines (0 + i) = block := by
      rw [Nat.zero_add]
      exact hlines i block hblock
    have hrow : view.y + (clampLine view layout.offset 0 - layout.offset) = view.y := by
      unfold clampLine
      omega
    rw [hspans, flatMap_spansFrom hview lines layout.offset 0 0 hlater, Nat.zero_add,
      linesBetween_clampLine, hrow]

end

/-! ## Paragraphs -/

/-- The lines of a paragraph with the screen rows they go to, one row for each. -/
def Paint.placed : Paint → List (Line × Nat)
  | .lines area shown => shown.zipIdx area.y
  | _ => []

def Paint.IsParagraph (x width : Nat) (p : Paint) : Prop :=
  ∃ area lines, p = .lines area lines ∧ area.x = x ∧ area.width = width ∧
    lines.length ≤ area.height

namespace Grid

def drawPlaced (x width : Nat) (g : Grid) (placed : Line × Nat) : Grid :=
  g.drawClusters x placed.2 (clip width 0 (Cluster.ofLine placed.1))

theorem paint_eq_foldl_placed {x width : Nat} {p : Paint} (hp : p.IsParagraph x width)
    (g : Grid) : g.paint p = p.placed.foldl (drawPlaced x width) g := by
  obtain ⟨area, lines, rfl, rfl, rfl, hlength⟩ := hp
  simp only [paint, drawRows, Paint.placed]
  rw [List.take_of_length_le (by rwa [List.length_map]), List.zipIdx_map, List.foldl_map,
    List.zipIdx_eq_map_add (l := lines) (i := area.y), List.foldl_map]
  rfl

theorem paintAll_eq_foldl_placed {x width : Nat} {paints : List Paint}
    (hpaints : ∀ p ∈ paints, p.IsParagraph x width) (g : Grid) :
    g.paintAll paints = (paints.flatMap Paint.placed).foldl (drawPlaced x width) g := by
  induction paints generalizing g with
  | nil => rfl
  | cons p rest ih =>
      have hrest := ih (fun q hq => hpaints q (List.mem_cons_of_mem _ hq)) (g.paint p)
      rw [List.flatMap_cons, List.foldl_append, ← paint_eq_foldl_placed
        (hpaints p List.mem_cons_self), ← hrest]
      rfl

end Grid

/-! ## The log -/

theorem columns_of_mem_layoutStrip {view : Rect} (hview : view.OnScreen) {offset : Nat}
    {heights : List Nat} {cursor : Option Nat} {s : ItemSpan}
    (hs : s ∈ (layoutStrip offset heights view cursor).spans) :
    s.rect.x = view.x ∧ s.rect.width = view.width := by
  obtain ⟨i, first, last, -, hvisible, rfl⟩ := exists_of_mem_layoutStrip hs
  rw [ofItem_eq hview hvisible]
  exact ⟨rfl, rfl⟩

namespace RevisionList

def drawnRows (v : RevisionList) (theme : Theme) (operation : Option Operation) :
    List (List Line) :=
  v.rows.zipIdx.map fun (row, index) =>
    row.drawnLines (overlayFor operation v.checked row.commit)
      (if index = v.cursor then some (theme.style .selected) else none) theme.style

variable (v : RevisionList) (theme : Theme) (operation : Option Operation)

theorem heights_items :
    heights (v.items operation) = (v.drawnRows theme operation).map List.length := by
  have hfst := List.zipIdx_map_fst 0 v.rows
  simp only [heights, items, drawnRows, List.map_map, Function.comp_def, Row.length_drawnLines]
  conv_lhs => rw [← hfst]
  rw [List.map_map]
  rfl

theorem linesOf_items {index : Nat} {block : List Line}
    (hblock : (v.drawnRows theme operation)[index]? = some block) :
    linesOf (v.items operation) theme v.cursor index = block := by
  rw [drawnRows, List.getElem?_map, List.getElem?_zipIdx, Option.map_map] at hblock
  obtain ⟨row, hrow, rfl⟩ := Option.map_eq_some_iff.mp hblock
  have hitem : (v.items operation)[index]? =
      some (row, overlayFor operation v.checked row.commit) := by
    rw [items, List.getElem?_map, hrow]
    rfl
  rw [linesOf, hitem]
  simp only [Function.comp_apply, Nat.zero_add]

theorem draw_of_rows (hrows : v.rows ≠ []) (area : Rect) (follow : Bool)
    (targets : Targets ScreenTarget) :
    let w := (v.draw area theme operation follow targets).1
    w.viewport = v.viewport.arrange area (heights (v.items operation))
        (if follow then some v.cursor else none) ∧
      (v.draw area theme operation follow targets).2.1 =
        w.viewport.spans.map (paintSpan (v.items operation) theme v.cursor) := by
  have hempty : v.rows.isEmpty = false := by
    rw [List.isEmpty_eq_false_iff]
    exact hrows
  simp only [draw, hempty, Bool.false_eq_true, if_false, and_self]

end RevisionList

/-- What is handed to the frame for the rows, from top to bottom, is the window of the lines of all
rows at the offset, each on the screen row that it has in the window. So the frame shows what it
would show if the window were one paragraph. -/
theorem log_shows_window (v : RevisionList) (hrows : v.rows ≠ []) {area : Rect}
    (harea : area.OnScreen) (theme : Theme) (operation : Option Operation) (follow : Bool)
    (targets : Targets ScreenTarget) :
    let w := (v.draw area theme operation follow targets).1
    let paints := (v.draw area theme operation follow targets).2.1
    let window := ((v.drawnRows theme operation).flatten.drop w.viewport.offset).take area.height
    paints.flatMap Paint.placed = window.zipIdx area.y ∧
      ∀ g : Grid, g.paintAll paints = g.paint (.lines area window) := by
  intro w paints window
  obtain ⟨hviewport, hpaints⟩ := v.draw_of_rows theme operation hrows area follow targets
  rw [v.heights_items theme operation] at hviewport
  have hplaced : paints.flatMap Paint.placed = window.zipIdx area.y := by
    have hwindow := flatMap_spans_layoutStrip harea
      (RevisionList.linesOf (v.items operation) theme v.cursor) v.viewport.offset
      (if follow then some v.cursor else none) fun _ _ => v.linesOf_items theme operation
    simp only [paints, window, w, hpaints, hviewport, List.flatMap_map]
    exact hwindow
  refine ⟨hplaced, fun g => ?_⟩
  have hparagraphs : ∀ p ∈ paints, p.IsParagraph area.x area.width := by
    intro p hp
    simp only [paints, hpaints, hviewport] at hp
    obtain ⟨s, hs, rfl⟩ := List.mem_map.mp hp
    have hcolumns := columns_of_mem_layoutStrip harea hs
    exact ⟨_, _, rfl, hcolumns.1, hcolumns.2, List.length_take_le ..⟩
  have hwindow : (Paint.lines area window).IsParagraph area.x area.width :=
    ⟨area, window, rfl, rfl, rfl, List.length_take_le ..⟩
  rw [Grid.paintAll_eq_foldl_placed hparagraphs, hplaced, Grid.paint_eq_foldl_placed hwindow]
  rfl

theorem log_shows_window_at_move_target :
    let row (id : String) (previous : Option Nat) : Row :=
      .ofLines ⟨[.plain "○  "], ⟨id, Style.plain.withModifier .bold⟩, [.plain " x"]⟩
        [[.plain "│  text"]] previous
    let v : RevisionList :=
      { RevisionList.initial 50 with
        rows := [row "k" none, row "m" (some 0)]
        viewport := Viewport.initial.scrollBy 1 }
    let target := Operation.move ⟨"main", some (Commit.ofChangeId "k")⟩
    let area : Rect := ⟨0, 2, 40, 3⟩
    let paints := (v.draw area ⟨none⟩ (some target) false []).2.1
    v.rows ≠ [] ∧ area.OnScreen ∧
      (paints.flatMap Paint.placed).map (fun (line, y) => (Line.text line, y)) =
        [("│  text", 2), ("│  << onto >> move bookmark 'main' to k", 3), ("○  m x", 4)] := by
  intro row v target area paints
  have hrows : v.rows ≠ [] := by simp [v]
  have harea : area.OnScreen := by decide
  obtain ⟨hplaced, -⟩ := log_shows_window v hrows harea ⟨none⟩ (some target) false []
  refine ⟨hrows, harea, ?_⟩
  rw [hplaced]
  decide +kernel

end RevisionGraph
