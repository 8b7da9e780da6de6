import RevisionGraph.Proofs.StripCells
import RevisionGraph.Text.Numeral

/-!
# Redrawing a list

A list that has not changed is laid out again with the offset that the last layout left. That moves
nothing as long as the item of the cursor fits into the window. A taller item never shows whole: a
layout that shows its first lines is followed by one that shows its last lines, and that one by the
first again.
-/

namespace RevisionGraph

/-! ## Revealing again -/

section

variable {offset window first last : Nat}

theorem reveal_of_shown (hfirst : offset ≤ first) (hlast : last ≤ offset + window) :
    reveal offset window first last = offset := by
  unfold reveal
  rw [if_neg (by omega), if_neg (by omega)]

theorem reveal_reveal_of_fits (hfits : last ≤ first + window) (offset : Nat) :
    reveal (reveal offset window first last) window first last =
      reveal offset window first last := by
  apply reveal_of_shown
  · unfold reveal
    split
    · exact Nat.le_refl _
    · split <;> omega
  · unfold reveal
    split
    · exact hfits
    · split <;> omega

theorem reveal_first_of_tall (htall : first + window < last) :
    reveal first window first last = last - window := by
  unfold reveal
  rw [if_neg (Nat.lt_irrefl _), if_pos htall]

theorem reveal_last_of_tall (htall : first + window < last) :
    reveal (last - window) window first last = first := by
  unfold reveal
  rw [if_pos (by omega)]

theorem reveal_eq_or_of_tall (htall : first + window < last) (offset : Nat) :
    reveal offset window first last = first ∨ reveal offset window first last = last - window := by
  unfold reveal
  split
  · exact .inl rfl
  · next hbegun =>
      rw [if_pos (by omega)]
      exact .inr rfl

theorem reveal_reveal_ne_of_tall (htall : first + window < last) (offset : Nat) :
    reveal (reveal offset window first last) window first last ≠
      reveal offset window first last := by
  rcases reveal_eq_or_of_tall htall offset with heq | heq
  · rw [heq, reveal_first_of_tall htall]
    omega
  · rw [heq, reveal_last_of_tall htall]
    omega

theorem reveal_thrice_of_tall (htall : first + window < last) (offset : Nat) :
    reveal (reveal (reveal offset window first last) window first last) window first last =
      reveal offset window first last := by
  rcases reveal_eq_or_of_tall htall offset with heq | heq
  · rw [heq, reveal_first_of_tall htall, reveal_last_of_tall htall]
  · rw [heq, reveal_last_of_tall htall, reveal_first_of_tall htall]

end

/-! ## The offset for a cursor -/

section

variable {offset window i h : Nat} {heights : List Nat}

theorem totalHeight_take_add_le (hitem : heights[i]? = some h) :
    totalHeight (heights.take i) + h ≤ totalHeight heights := by
  induction heights generalizing i with
  | nil => simp at hitem
  | cons height rest ih =>
      cases i with
      | zero =>
          obtain rfl : height = h := by simpa using hitem
          simp only [List.take_zero, totalHeight]
          omega
      | succ i =>
          have hrest := ih (by simpa using hitem)
          simp only [List.take_succ_cons, totalHeight]
          omega

theorem scrollFor_of_item (hitem : heights[i]? = some h) (hstart : offset ≤ maxOffset heights window) :
    scrollFor offset heights window (some i) =
      reveal offset window (totalHeight (heights.take i)) (totalHeight (heights.take i) + h) := by
  have hinside := totalHeight_take_add_le hitem
  simp only [scrollFor, Option.bind_some, hitem, Option.map_some, Nat.min_eq_left hstart]
  apply Nat.min_eq_left
  unfold maxOffset at hstart ⊢
  unfold reveal
  split
  · omega
  · split <;> omega

theorem scrollFor_of_no_item {cursor : Option Nat}
    (hnone : cursor.bind (fun i => heights[i]?) = none) (hstart : offset ≤ maxOffset heights window) :
    scrollFor offset heights window cursor = offset := by
  have hbind : (cursor.bind fun i => heights[i]?.map fun h => (i, h)) = none := by
    cases cursor with
    | none => rfl
    | some i => simpa using hnone
  simp only [scrollFor, hbind, Nat.min_eq_left hstart]

theorem scrollFor_min (offset : Nat) (heights : List Nat) (window : Nat) (cursor : Option Nat) :
    scrollFor (min offset (maxOffset heights window)) heights window cursor =
      scrollFor offset heights window cursor := by
  simp only [scrollFor, Nat.min_assoc, Nat.min_self]

end

/-! ## Layouts -/

/-- The window has lines, but fewer than the item of the cursor. -/
def Overhangs (heights : List Nat) (window : Nat) (cursor : Option Nat) : Prop :=
  0 < window ∧ ∃ h, cursor.bind (fun i => heights[i]?) = some h ∧ window < h

theorem scrollFor_again_of_not_overhangs {heights : List Nat} {window : Nat} {cursor : Option Nat}
    (hfits : ¬Overhangs heights window cursor) (hwindow : 0 < window) (offset : Nat) :
    scrollFor (scrollFor offset heights window cursor) heights window cursor =
      scrollFor offset heights window cursor := by
  have hclamped := scrollFor_le offset heights window cursor
  cases hitem : cursor.bind (fun i => heights[i]?) with
  | none => exact scrollFor_of_no_item hitem hclamped
  | some h =>
      obtain ⟨i, rfl, hi⟩ := Option.bind_eq_some_iff.mp hitem
      have hheight : h ≤ window := by
        by_contra htall
        exact hfits ⟨hwindow, h, hitem, Nat.lt_of_not_le htall⟩
      have hstart : min offset (maxOffset heights window) ≤ maxOffset heights window :=
        Nat.min_le_right ..
      rw [scrollFor_of_item hi hclamped, ← scrollFor_min, scrollFor_of_item hi hstart]
      exact reveal_reveal_of_fits (by omega) _

theorem scrollFor_again_of_overhangs {heights : List Nat} {window : Nat} {cursor : Option Nat}
    (htall : Overhangs heights window cursor) (offset : Nat) :
    let first := scrollFor offset heights window cursor
    let second := scrollFor first heights window cursor
    second ≠ first ∧ scrollFor second heights window cursor = first := by
  intro first second
  obtain ⟨-, h, hitem, hheight⟩ := htall
  obtain ⟨i, rfl, hi⟩ := Option.bind_eq_some_iff.mp hitem
  have hstart : min offset (maxOffset heights window) ≤ maxOffset heights window :=
    Nat.min_le_right ..
  have hlines : totalHeight (heights.take i) + window < totalHeight (heights.take i) + h :=
    Nat.add_lt_add_left hheight _
  have hfirst : first = reveal (min offset (maxOffset heights window)) window
      (totalHeight (heights.take i)) (totalHeight (heights.take i) + h) :=
    (scrollFor_min ..).symm.trans (scrollFor_of_item hi hstart)
  have hsecond : second = reveal first window (totalHeight (heights.take i))
      (totalHeight (heights.take i) + h) := scrollFor_of_item hi (scrollFor_le ..)
  have hthird : scrollFor second heights window (some i) = reveal second window
      (totalHeight (heights.take i)) (totalHeight (heights.take i) + h) :=
    scrollFor_of_item hi (scrollFor_le ..)
  rw [hthird, hsecond, hfirst]
  exact ⟨reveal_reveal_ne_of_tall hlines _, reveal_thrice_of_tall hlines _⟩

section

variable {heights : List Nat} {view : Rect}

theorem layoutStrip_of_items (hitems : heights ≠ []) (hheight : 0 < view.height) (offset : Nat)
    (cursor : Option Nat) :
    layoutStrip offset heights view cursor =
      ⟨scrollFor offset heights view.height cursor,
        spansFrom view (scrollFor offset heights view.height cursor) 0 0 heights⟩ := by
  unfold layoutStrip
  rw [if_neg (by simpa using hitems), if_neg (Nat.ne_of_gt hheight)]

theorem layoutStrip_eq_iff (hitems : heights ≠ []) (hheight : 0 < view.height) (a b : Nat)
    (cursor : Option Nat) :
    layoutStrip a heights view cursor = layoutStrip b heights view cursor ↔
      scrollFor a heights view.height cursor = scrollFor b heights view.height cursor := by
  rw [layoutStrip_of_items hitems hheight, layoutStrip_of_items hitems hheight]
  constructor
  · intro heq
    exact congrArg StripLayout.offset heq
  · intro heq
    rw [heq]

theorem layoutStrip_again_of_nothing (hnothing : heights = [] ∨ view.height = 0) (offset : Nat)
    (cursor : Option Nat) :
    let layout := layoutStrip offset heights view cursor
    layoutStrip layout.offset heights view cursor = layout := by
  by_cases hitems : heights = []
  · simp [layoutStrip, hitems]
  · have hheight := hnothing.resolve_left hitems
    simp only [layoutStrip, List.isEmpty_iff, hitems, hheight, if_false, if_true, Nat.min_assoc,
      Nat.min_self]

theorem not_overhangs_of_nothing (hnothing : heights = [] ∨ view.height = 0)
    (cursor : Option Nat) : ¬Overhangs heights view.height cursor := by
  rintro ⟨hheight, h, hitem, -⟩
  rcases hnothing with rfl | hzero
  · cases cursor <;> simp at hitem
  · omega

end

/-- A second layout of the same list is the first one again unless the item of the cursor is taller
than the window. Then it is another one, and the third layout is the first one again. -/
theorem layoutStrip_again_eq_iff (offset : Nat) (heights : List Nat) (view : Rect)
    (cursor : Option Nat) :
    let layout := layoutStrip offset heights view cursor
    let again := layoutStrip layout.offset heights view cursor
    (again = layout ↔ ¬Overhangs heights view.height cursor) ∧
      layoutStrip again.offset heights view cursor = layout := by
  intro layout again
  by_cases hnothing : heights = [] ∨ view.height = 0
  · have hagain : again = layout := layoutStrip_again_of_nothing hnothing offset cursor
    refine ⟨iff_of_true hagain (not_overhangs_of_nothing hnothing cursor), ?_⟩
    rw [hagain]
    exact hagain
  · obtain ⟨hitems, hzero⟩ := not_or.mp hnothing
    have hheight := Nat.pos_of_ne_zero hzero
    have hoffset : layout.offset = scrollFor offset heights view.height cursor :=
      congrArg StripLayout.offset (layoutStrip_of_items hitems hheight offset cursor)
    have hnext : again.offset = scrollFor layout.offset heights view.height cursor :=
      congrArg StripLayout.offset (layoutStrip_of_items hitems hheight layout.offset cursor)
    rw [layoutStrip_eq_iff hitems hheight, layoutStrip_eq_iff hitems hheight, hnext, hoffset]
    by_cases htall : Overhangs heights view.height cursor
    · obtain ⟨hmoves, hback⟩ := scrollFor_again_of_overhangs htall offset
      exact ⟨iff_of_false hmoves (not_not_intro htall), hback⟩
    · have hstays := scrollFor_again_of_not_overhangs htall hheight offset
      refine ⟨iff_of_true hstays htall, ?_⟩
      rw [hstays, hstays]

/-- An item of ten lines in a window of four: its first lines, its last lines, and so on. -/
theorem layoutStrip_again_ne_of_tall_item :
    let heights := [1, 1, 10, 1, 1]
    let view : Rect := ⟨2, 1, 20, 4⟩
    let layout := layoutStrip 9 heights view (some 2)
    let again := layoutStrip layout.offset heights view (some 2)
    view.OnScreen ∧ heights.sum ≤ Text.maxSize ∧ layout.offset = 2 ∧ again.offset = 8 ∧
      again ≠ layout := by
  decide

end RevisionGraph
