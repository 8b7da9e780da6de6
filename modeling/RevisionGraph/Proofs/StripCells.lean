import Mathlib.Algebra.GroupWithZero.Nat
import Mathlib.Data.List.Chain
import RevisionGraph.Layout.Viewport

/-!
# Cells and the lines of a strip

A cell of the view shows one line of the strip: the offset plus the cell's row in the view. The
heights of the items before an item add up to its first line, so the item at a cell is the one whose
lines hold that line. The spans lie against one another like tiles (`Tiled`).
-/

namespace RevisionGraph

/-! ## The offset -/

theorem totalHeight_eq_sum (heights : List Nat) : totalHeight heights = heights.sum := by
  induction heights with
  | nil => rfl
  | cons h rest ih => rw [totalHeight, ih, List.sum_cons]

theorem scrollFor_le (offset : Nat) (heights : List Nat) (window : Nat) (cursor : Option Nat) :
    scrollFor offset heights window cursor ≤ maxOffset heights window := by
  unfold scrollFor
  split
  · exact Nat.min_le_right ..
  · exact Nat.min_le_right ..

theorem offset_layoutStrip_le (offset : Nat) (heights : List Nat) (view : Rect)
    (cursor : Option Nat) :
    (layoutStrip offset heights view cursor).offset ≤ maxOffset heights view.height := by
  unfold layoutStrip
  split
  · exact Nat.zero_le _
  · split
    · next hheight =>
        rw [hheight]
        exact Nat.min_le_right ..
    · exact scrollFor_le ..

theorem spans_layoutStrip_of_height_eq_zero {view : Rect} (hheight : view.height = 0)
    (offset : Nat) (heights : List Nat) (cursor : Option Nat) :
    (layoutStrip offset heights view cursor).spans = [] := by
  unfold layoutStrip
  simp only [hheight, if_true]
  split <;> rfl

theorem spans_layoutStrip {view : Rect} (hheight : 0 < view.height) (offset : Nat)
    (heights : List Nat) (cursor : Option Nat) :
    let layout := layoutStrip offset heights view cursor
    layout.spans = spansFrom view layout.offset 0 0 heights := by
  unfold layoutStrip
  split
  · next hempty =>
      rw [List.isEmpty_iff.mp hempty]
      rfl
  · rw [if_neg (Nat.ne_of_gt hheight)]

/-! ## Visible parts -/

section

variable {view : Rect} {offset top bottom : Nat}

/-- Some line of the item with the lines from `top` to `bottom` (not included) is in the window. -/
def Visible (view : Rect) (offset top bottom : Nat) : Prop :=
  top < bottom ∧ offset < bottom ∧ top < offset + view.height

theorem spansFrom_cons_of_visible {h : Nat} (hvisible : Visible view offset top (top + h))
    (index : Nat) (rest : List Nat) :
    spansFrom view offset index top (h :: rest) =
      .ofItem view offset index top (top + h) ::
        spansFrom view offset (index + 1) (top + h) rest := by
  obtain ⟨hheight, habove, hbelow⟩ := hvisible
  have hshown : ¬(h = 0 ∨ top + h ≤ offset ∨ offset + view.height ≤ top) := by omega
  rw [spansFrom, if_neg hshown]

theorem spansFrom_cons_of_not_visible {h : Nat} (hvisible : ¬Visible view offset top (top + h))
    (index : Nat) (rest : List Nat) :
    spansFrom view offset index top (h :: rest) =
      spansFrom view offset (index + 1) (top + h) rest := by
  have hhidden : h = 0 ∨ top + h ≤ offset ∨ offset + view.height ≤ top := by
    unfold Visible at hvisible
    omega
  rw [spansFrom, if_pos hhidden]

/-- A line of the strip, or the edge of the window next to it. -/
def clampLine (view : Rect) (offset line : Nat) : Nat :=
  max offset (min line (offset + view.height))

theorem le_clampLine (view : Rect) (offset line : Nat) : offset ≤ clampLine view offset line :=
  Nat.le_max_left ..

theorem clampLine_le (view : Rect) (offset line : Nat) :
    clampLine view offset line ≤ offset + view.height := by
  unfold clampLine
  omega

theorem clampLine_eq_of_not_visible (hvisible : ¬Visible view offset top bottom)
    (hle : top ≤ bottom) : clampLine view offset bottom = clampLine view offset top := by
  unfold Visible at hvisible
  unfold clampLine
  omega

theorem clampLine_mono (view : Rect) (offset : Nat) (hle : top ≤ bottom) :
    clampLine view offset top ≤ clampLine view offset bottom := by
  unfold clampLine
  omega

theorem ofItem_eq (hview : view.OnScreen) (hvisible : Visible view offset top bottom)
    (index : Nat) :
    ItemSpan.ofItem view offset index top bottom =
      ⟨index,
        ⟨view.x, view.y + (clampLine view offset top - offset), view.width,
          clampLine view offset bottom - clampLine view offset top⟩,
        clampLine view offset top - top⟩ := by
  have hfirst : max top offset = clampLine view offset top := by
    obtain ⟨hheight, habove, hbelow⟩ := hvisible
    unfold clampLine
    omega
  have hlast : min bottom (offset + view.height) = clampLine view offset bottom := by
    obtain ⟨hheight, habove, hbelow⟩ := hvisible
    unfold clampLine
    omega
  have hstart := le_clampLine view offset top
  have hend := clampLine_le view offset bottom
  have hle := clampLine_mono view offset (Nat.le_of_lt hvisible.1)
  simp only [ItemSpan.ofItem, hfirst, hlast]
  generalize clampLine view offset top = first at hstart hle
  generalize clampLine view offset bottom = last at hend hle
  obtain ⟨hx, hy⟩ := hview
  have hbelow : toCoordinate (first - offset) = first - offset := Nat.min_eq_left (by omega)
  have hrow : toCoordinate (view.y + (first - offset)) = view.y + (first - offset) :=
    Nat.min_eq_left (by omega)
  have hheight : toCoordinate (last - first) = last - first := Nat.min_eq_left (by omega)
  have hfits : Rect.OnScreen ⟨view.x, view.y + (first - offset), view.width, last - first⟩ := by
    refine ⟨hx, ?_⟩
    change view.y + (first - offset) + (last - first) ≤ maxCoordinate
    omega
  rw [hbelow, hrow, hheight, Rect.cut_eq hfits]

theorem contains_ofItem (hview : view.OnScreen) (hvisible : Visible view offset top bottom)
    (index x y : Nat) :
    (ItemSpan.ofItem view offset index top bottom).rect.contains x y = true ↔
      view.contains x y = true ∧ top ≤ offset + (y - view.y) ∧
        offset + (y - view.y) < bottom := by
  have hstart := le_clampLine view offset top
  have hend := clampLine_le view offset bottom
  have hle := clampLine_mono view offset (Nat.le_of_lt hvisible.1)
  have hfits : (ItemSpan.ofItem view offset index top bottom).rect.OnScreen := by
    rw [ofItem_eq hview hvisible]
    refine ⟨hview.1, ?_⟩
    have hy := hview.2
    dsimp only
    omega
  rw [Rect.contains_iff hfits, ofItem_eq hview hvisible, Rect.contains_iff hview]
  dsimp only
  unfold clampLine at *
  obtain ⟨hheight, habove, hbelow⟩ := hvisible
  omega

theorem visible_of_contains (hview : view.OnScreen) {x y : Nat}
    (hcell : view.contains x y = true) (htop : top ≤ offset + (y - view.y))
    (hbottom : offset + (y - view.y) < bottom) : Visible view offset top bottom := by
  rw [Rect.contains_iff hview] at hcell
  refine ⟨?_, ?_, ?_⟩ <;> omega

theorem clipTop_add_row (hview : view.OnScreen) {x y : Nat}
    (hcell : view.contains x y = true) (htop : top ≤ offset + (y - view.y))
    (hbottom : offset + (y - view.y) < bottom) (index : Nat) :
    let s := ItemSpan.ofItem view offset index top bottom
    s.clipTop + (y - s.rect.y) = offset + (y - view.y) - top := by
  have hvisible := visible_of_contains hview hcell htop hbottom
  rw [Rect.contains_iff hview] at hcell
  rw [ofItem_eq hview hvisible]
  dsimp only
  unfold clampLine
  omega

/-! ## Lines of an item -/

/-- In a strip that begins at line `top`, item `i` has the lines from `first` to `last` (not
included). -/
inductive Occupies : Nat → List Nat → Nat → Nat → Nat → Prop
  | head (top h : Nat) (rest : List Nat) : Occupies top (h :: rest) 0 top (top + h)
  | tail {top h i first last : Nat} {rest : List Nat}
      (later : Occupies (top + h) rest i first last) :
      Occupies top (h :: rest) (i + 1) first last

namespace Occupies

variable {heights : List Nat} {i first last : Nat}

theorem top_le (h : Occupies top heights i first last) : top ≤ first := by
  induction h with
  | head => exact Nat.le_refl _
  | tail _ ih => exact Nat.le_trans (Nat.le_add_right ..) ih

theorem getElem? (h : Occupies top heights i first last) :
    heights[i]? = some (last - first) := by
  induction h with
  | head top h rest => rw [List.getElem?_cons_zero, Nat.add_sub_cancel_left]
  | tail _ ih => rw [List.getElem?_cons_succ, ih]

theorem first_eq (h : Occupies top heights i first last) :
    first = top + (heights.take i).sum := by
  induction h with
  | head => rfl
  | tail _ ih => rw [ih, List.take_succ_cons, List.sum_cons, Nat.add_assoc]

theorem last_eq (h : Occupies top heights i first last) :
    last = top + (heights.take (i + 1)).sum := by
  induction h with
  | head => simp
  | tail _ ih => rw [ih, List.take_succ_cons, List.sum_cons, Nat.add_assoc]

end Occupies

theorem occupies_of_lt {heights : List Nat} {i : Nat} (hi : i < heights.length) (top : Nat) :
    Occupies top heights i (top + (heights.take i).sum) (top + (heights.take (i + 1)).sum) := by
  induction heights generalizing top i with
  | nil => exact absurd hi (Nat.not_lt_zero _)
  | cons h rest ih =>
      cases i with
      | zero =>
          have hhead := Occupies.head top h rest
          simpa using hhead
      | succ i =>
          have hrest := ih (Nat.lt_of_succ_lt_succ hi) (top + h)
          rw [List.take_succ_cons, List.take_succ_cons, List.sum_cons, List.sum_cons,
            ← Nat.add_assoc, ← Nat.add_assoc]
          exact .tail hrest

theorem occupies_of_mem {heights : List Nat} {i line : Nat}
    (hfirst : (heights.take i).sum ≤ line) (hlast : line < (heights.take (i + 1)).sum) :
    Occupies 0 heights i (heights.take i).sum (heights.take (i + 1)).sum := by
  have hi : i < heights.length := by
    by_contra hge
    rw [List.take_of_length_le (by omega)] at hfirst hlast
    omega
  have hoccupies := occupies_of_lt hi 0
  rw [Nat.zero_add, Nat.zero_add] at hoccupies
  exact hoccupies

/-! ## The item at a cell -/

theorem exists_of_mem_spansFrom {heights : List Nat} {index : Nat} {s : ItemSpan}
    (hs : s ∈ spansFrom view offset index top heights) :
    ∃ i first last, Occupies top heights i first last ∧ Visible view offset first last ∧
      s = .ofItem view offset (index + i) first last := by
  induction heights generalizing index top with
  | nil => simp [spansFrom] at hs
  | cons h rest ih =>
      have hlater (hrest : s ∈ spansFrom view offset (index + 1) (top + h) rest) :
          ∃ i first last, Occupies top (h :: rest) i first last ∧
            Visible view offset first last ∧ s = .ofItem view offset (index + i) first last := by
        obtain ⟨i, first, last, hoccupies, hvisible, rfl⟩ := ih hrest
        exact ⟨i + 1, first, last, .tail hoccupies, hvisible, by rw [Nat.add_right_comm]; rfl⟩
      by_cases hvisible : Visible view offset top (top + h)
      · rw [spansFrom_cons_of_visible hvisible, List.mem_cons] at hs
        obtain rfl | hrest := hs
        · exact ⟨0, top, top + h, .head .., hvisible, rfl⟩
        · exact hlater hrest
      · rw [spansFrom_cons_of_not_visible hvisible] at hs
        exact hlater hs

theorem ofItem_mem_spansFrom {heights : List Nat} {i first last : Nat}
    (hoccupies : Occupies top heights i first last) (hvisible : Visible view offset first last)
    (index : Nat) :
    .ofItem view offset (index + i) first last ∈ spansFrom view offset index top heights := by
  induction hoccupies generalizing index with
  | head top h rest =>
      rw [spansFrom_cons_of_visible hvisible]
      exact List.mem_cons_self
  | @tail top h i first last rest _ ih =>
      have hlater := ih hvisible (index + 1)
      rw [Nat.add_right_comm, Nat.add_assoc] at hlater
      unfold spansFrom
      split
      · exact hlater
      · exact List.mem_cons_of_mem _ hlater

theorem find?_spansFrom_eq_some_iff (hview : view.OnScreen) (offset index top x y : Nat)
    (heights : List Nat) (s : ItemSpan) :
    (spansFrom view offset index top heights).find? (fun t => t.rect.contains x y) = some s ↔
      view.contains x y = true ∧ ∃ i first last, Occupies top heights i first last ∧
        first ≤ offset + (y - view.y) ∧ offset + (y - view.y) < last ∧
        s = .ofItem view offset (index + i) first last := by
  induction heights generalizing index top with
  | nil =>
      constructor
      · intro hs
        simp [spansFrom] at hs
      · rintro ⟨-, i, first, last, hoccupies, -⟩
        cases hoccupies
  | cons h rest ih =>
      by_cases hcell : view.contains x y = true ∧ top ≤ offset + (y - view.y) ∧
          offset + (y - view.y) < top + h
      · obtain ⟨hcontains, hle, hlt⟩ := hcell
        have hvisible := visible_of_contains hview hcontains hle hlt
        have hspan := (contains_ofItem hview hvisible index x y).mpr ⟨hcontains, hle, hlt⟩
        rw [spansFrom_cons_of_visible hvisible, List.find?_cons, hspan]
        constructor
        · intro hs
          obtain rfl := Option.some.inj hs
          exact ⟨hcontains, 0, top, top + h, .head .., hle, hlt, rfl⟩
        · rintro ⟨-, i, first, last, hoccupies, hfirst, -, rfl⟩
          cases hoccupies with
          | head => rfl
          | tail hlater =>
              -- A later item begins below the line.
              have htop := hlater.top_le
              omega
      · have hskip : (spansFrom view offset index top (h :: rest)).find?
              (fun t => t.rect.contains x y) =
            (spansFrom view offset (index + 1) (top + h) rest).find?
              (fun t => t.rect.contains x y) := by
          by_cases hvisible : Visible view offset top (top + h)
          · have hspan := mt (contains_ofItem hview hvisible index x y).mp hcell
            rw [spansFrom_cons_of_visible hvisible, List.find?_cons, Bool.eq_false_iff.mpr hspan]
          · rw [spansFrom_cons_of_not_visible hvisible]
        rw [hskip, ih (index + 1) (top + h)]
        refine and_congr_right fun hcontains => ?_
        constructor
        · rintro ⟨i, first, last, hoccupies, hfirst, hlast, rfl⟩
          refine ⟨i + 1, first, last, .tail hoccupies, hfirst, hlast, ?_⟩
          rw [Nat.add_right_comm, Nat.add_assoc]
        · rintro ⟨i, first, last, hoccupies, hfirst, hlast, rfl⟩
          cases hoccupies with
          | head => exact absurd ⟨hcontains, hfirst, hlast⟩ hcell
          | @tail _ _ i _ _ _ hlater =>
              refine ⟨i, first, last, hlater, hfirst, hlast, ?_⟩
              rw [Nat.add_right_comm, Nat.add_assoc]

/-! ## Spans as tiles -/

/-- Each span begins at the row below the one before it; the first begins at row `y`, and `bottom` is
the row below the last. They belong to ascending items from `index` on. -/
inductive Tiled : Nat → Nat → List ItemSpan → Nat → Prop
  | nil (index y : Nat) : Tiled index y [] y
  | cons {index y bottom : Nat} {s : ItemSpan} {rest : List ItemSpan}
      (index_le : index ≤ s.index) (y_eq : s.rect.y = y) (height : 0 < s.rect.height)
      (rest_tiled : Tiled (s.index + 1) (y + s.rect.height) rest bottom) :
      Tiled index y (s :: rest) bottom

namespace Tiled

variable {index y below : Nat} {spans : List ItemSpan}

theorem of_le (h : Tiled index y spans below) {start : Nat} (hle : start ≤ index) :
    Tiled start y spans below := by
  cases h with
  | nil => exact .nil ..
  | cons hindex hy hheight hrest => exact .cons (Nat.le_trans hle hindex) hy hheight hrest

theorem index_le_of_mem (h : Tiled index y spans below) {s : ItemSpan} (hs : s ∈ spans) :
    index ≤ s.index ∧ y ≤ s.rect.y := by
  induction h with
  | nil => simp at hs
  | cons hindex hy hheight _ ih =>
      obtain rfl | hrest := List.mem_cons.mp hs
      · exact ⟨hindex, Nat.le_of_eq hy.symm⟩
      · have hlater := ih hrest
        omega

theorem pairwise (h : Tiled index y spans below) :
    spans.Pairwise fun s t => s.index < t.index ∧ s.rect.y + s.rect.height ≤ t.rect.y := by
  induction h with
  | nil => exact .nil
  | cons hindex hy hheight hrest ih =>
      refine .cons (fun t ht => ?_) ih
      have hlater := hrest.index_le_of_mem ht
      omega

theorem isChain (h : Tiled index y spans below) :
    spans.IsChain fun s t => s.rect.y + s.rect.height = t.rect.y := by
  induction h with
  | nil => exact .nil
  | cons hindex hy hheight hrest ih =>
      cases hrest with
      | nil => exact .singleton _
      | cons _ hnext _ _ => exact .cons_cons (hy ▸ hnext.symm) ih

end Tiled

theorem tiled_spansFrom (hview : view.OnScreen) (hheight : 0 < view.height)
    (offset index top : Nat) (heights : List Nat) :
    Tiled index (view.y + (clampLine view offset top - offset))
      (spansFrom view offset index top heights)
      (view.y + (clampLine view offset (top + heights.sum) - offset)) := by
  induction heights generalizing index top with
  | nil => exact .nil ..
  | cons h rest ih =>
      have hrest := ih (index + 1) (top + h)
      rw [Nat.add_assoc, ← List.sum_cons] at hrest
      by_cases hvisible : Visible view offset top (top + h)
      · have hstart := le_clampLine view offset top
        have hlt : clampLine view offset top < clampLine view offset (top + h) := by
          obtain ⟨hlines, habove, hbelow⟩ := hvisible
          unfold clampLine
          omega
        rw [spansFrom_cons_of_visible hvisible, ofItem_eq hview hvisible]
        refine .cons (Nat.le_refl _) rfl (Nat.sub_pos_of_lt hlt) ?_
        have hnext : view.y + (clampLine view offset top - offset) +
            (clampLine view offset (top + h) - clampLine view offset top) =
              view.y + (clampLine view offset (top + h) - offset) := by omega
        rw [hnext]
        exact hrest
      · rw [clampLine_eq_of_not_visible hvisible (Nat.le_add_right ..)] at hrest
        rw [spansFrom_cons_of_not_visible hvisible]
        exact hrest.of_le (Nat.le_succ _)

/-! ## Layouts -/

theorem find?_spans_layoutStrip_eq_some_iff (hview : view.OnScreen) (offset x y : Nat)
    (heights : List Nat) (cursor : Option Nat) (s : ItemSpan) :
    let layout := layoutStrip offset heights view cursor
    layout.spans.find? (fun t => t.rect.contains x y) = some s ↔
      view.contains x y = true ∧ ∃ i, (heights.take i).sum ≤ layout.offset + (y - view.y) ∧
        layout.offset + (y - view.y) < (heights.take (i + 1)).sum ∧
        s = .ofItem view layout.offset i (heights.take i).sum (heights.take (i + 1)).sum := by
  intro layout
  by_cases hheight : view.height = 0
  · have hspans : layout.spans = [] := spans_layoutStrip_of_height_eq_zero hheight ..
    rw [hspans, Rect.contains_iff hview]
    constructor
    · intro hs
      cases hs
    · rintro ⟨⟨-, hrow⟩, -⟩
      omega
  · have hspans : layout.spans = spansFrom view layout.offset 0 0 heights :=
      spans_layoutStrip (Nat.pos_of_ne_zero hheight) ..
    rw [hspans, find?_spansFrom_eq_some_iff hview]
    refine and_congr_right fun _ => ?_
    constructor
    · rintro ⟨i, first, last, hoccupies, hfirst, hlast, rfl⟩
      have hfirstEq := hoccupies.first_eq
      have hlastEq := hoccupies.last_eq
      rw [Nat.zero_add] at hfirstEq hlastEq ⊢
      subst hfirstEq hlastEq
      exact ⟨i, hfirst, hlast, rfl⟩
    · rintro ⟨i, hfirst, hlast, rfl⟩
      refine ⟨i, _, _, occupies_of_mem hfirst hlast, hfirst, hlast, ?_⟩
      rw [Nat.zero_add]

theorem tiled_layoutStrip (hview : view.OnScreen) (offset : Nat) (heights : List Nat)
    (cursor : Option Nat) :
    let layout := layoutStrip offset heights view cursor
    Tiled 0 view.y layout.spans
      (view.y + (clampLine view layout.offset heights.sum - layout.offset)) := by
  intro layout
  have hedges : clampLine view layout.offset 0 = layout.offset ∧
      (view.height = 0 → clampLine view layout.offset heights.sum = layout.offset) := by
    unfold clampLine
    omega
  by_cases hheight : view.height = 0
  · have hspans : layout.spans = [] := spans_layoutStrip_of_height_eq_zero hheight ..
    rw [hspans, hedges.2 hheight, Nat.sub_self]
    exact .nil ..
  · have hspans : layout.spans = spansFrom view layout.offset 0 0 heights :=
      spans_layoutStrip (Nat.pos_of_ne_zero hheight) ..
    have htiled := tiled_spansFrom hview (Nat.pos_of_ne_zero hheight) layout.offset 0 0 heights
    rw [hedges.1, Nat.sub_self, Nat.add_zero, Nat.zero_add, ← hspans] at htiled
    exact htiled

theorem exists_of_mem_layoutStrip {offset : Nat} {heights : List Nat} {cursor : Option Nat}
    {s : ItemSpan} (hs : s ∈ (layoutStrip offset heights view cursor).spans) :
    let start := (layoutStrip offset heights view cursor).offset
    ∃ i first last, Occupies 0 heights i first last ∧ Visible view start first last ∧
      s = .ofItem view start i first last := by
  by_cases hheight : view.height = 0
  · rw [spans_layoutStrip_of_height_eq_zero hheight] at hs
    exact absurd hs List.not_mem_nil
  · rw [spans_layoutStrip (Nat.pos_of_ne_zero hheight)] at hs
    obtain ⟨i, first, last, hoccupies, hvisible, rfl⟩ := exists_of_mem_spansFrom hs
    rw [Nat.zero_add]
    exact ⟨i, first, last, hoccupies, hvisible, rfl⟩

end

/-- After a layout the offset leaves no empty line below the strip, and a cell of the view belongs to
the item with its line: the lines of an item begin where the heights before it end. The span of that
item says which line of it the cell shows. The spans are in order, lie against one another, and
belong to items with lines. -/
theorem cells_show_strip_lines (v : Viewport) {view : Rect} (hview : view.OnScreen)
    (heights : List Nat) (cursor : Option Nat) :
    let w := v.arrange view heights cursor
    w.offset ≤ heights.sum - view.height ∧
      (∀ x y i, w.itemAt x y = some i ↔
        (view.x ≤ x ∧ x < view.x + view.width) ∧ (view.y ≤ y ∧ y < view.y + view.height) ∧
          (heights.take i).sum ≤ w.offset + (y - view.y) ∧
          w.offset + (y - view.y) < (heights.take (i + 1)).sum) ∧
      (∀ x y i, w.itemAt x y = some i → ∃ s ∈ w.spans, s.index = i ∧ s.rect.contains x y = true ∧
        s.clipTop + (y - s.rect.y) = w.offset + (y - view.y) - (heights.take i).sum) ∧
      (w.spans.Pairwise fun s t => s.index < t.index ∧ s.rect.y + s.rect.height ≤ t.rect.y) ∧
      (w.spans.IsChain fun s t => s.rect.y + s.rect.height = t.rect.y) ∧
      ∀ s ∈ w.spans, ∃ h, heights[s.index]? = some h ∧ 0 < h := by
  intro w
  have hoffset := offset_layoutStrip_le v.offset heights view cursor
  rw [maxOffset, totalHeight_eq_sum] at hoffset
  have htiled := tiled_layoutStrip hview v.offset heights cursor
  have hspan (x y : Nat) (s : ItemSpan) :=
    find?_spans_layoutStrip_eq_some_iff hview v.offset x y heights cursor s
  have hitem (x y i : Nat) : w.itemAt x y = some i ↔
      ∃ s, w.spans.find? (fun t => t.rect.contains x y) = some s ∧ s.index = i :=
    Option.map_eq_some_iff
  refine ⟨hoffset, fun x y i => ?_, fun x y i hi => ?_, htiled.pairwise, htiled.isChain,
    fun s hs => ?_⟩
  · rw [hitem, ← and_assoc, ← Rect.contains_iff hview]
    constructor
    · rintro ⟨s, hs, rfl⟩
      obtain ⟨hcell, i, hfirst, hlast, rfl⟩ := (hspan x y s).mp hs
      exact ⟨hcell, hfirst, hlast⟩
    · rintro ⟨hcell, hfirst, hlast⟩
      exact ⟨_, (hspan x y _).mpr ⟨hcell, i, hfirst, hlast, rfl⟩, rfl⟩
  · obtain ⟨s, hs, rfl⟩ := (hitem x y i).mp hi
    refine ⟨s, List.mem_of_find?_eq_some hs, rfl,
      List.find?_some (p := fun t : ItemSpan => t.rect.contains x y) hs, ?_⟩
    obtain ⟨hcell, i, hfirst, hlast, rfl⟩ := (hspan x y s).mp hs
    exact clipTop_add_row hview hcell hfirst hlast i
  · obtain ⟨i, first, last, hoccupies, hvisible, rfl⟩ := exists_of_mem_layoutStrip hs
    exact ⟨last - first, hoccupies.getElem?, Nat.sub_pos_of_lt hvisible.1⟩

theorem cells_show_strip_lines_of_clipped_item :
    let view : Rect := ⟨2, 1, 20, 4⟩
    let w := (Viewport.initial.scrollBy 1).arrange view [2, 0, 3, 1] none
    view.OnScreen ∧ w.offset = 1 ∧ w.itemAt 2 1 = some 0 ∧ w.itemAt 21 2 = some 2 ∧
      ∃ s ∈ w.spans, s.index = 0 ∧ s.rect.contains 2 1 = true ∧ s.clipTop + (1 - s.rect.y) = 1 := by
  intro view w
  have hview : view.OnScreen := by decide
  have hoffset : w.offset = 1 := by decide
  obtain ⟨-, hitem, hline, -⟩ :=
    cells_show_strip_lines (Viewport.initial.scrollBy 1) hview [2, 0, 3, 1] none
  have hfirst : w.itemAt 2 1 = some 0 := (hitem 2 1 0).mpr (by decide)
  have hsecond : w.itemAt 21 2 = some 2 := (hitem 21 2 2).mpr (by decide)
  exact ⟨hview, hoffset, hfirst, hsecond, hline 2 1 0 hfirst⟩

end RevisionGraph
