import Mathlib.Data.Nat.Dist
import RevisionGraph.Proofs.Redrawing

/-!
# The cursor's item in view

A layout for a cursor moves the window no farther than it must. If the item fits, all its lines are
in the window, and no other offset that shows them all is as near to the one that the layout began
with. An item that does not fit fills the window with its first lines or its last ones.
-/

namespace RevisionGraph

/-! ## Offsets that show an item -/

def Encloses (window first last offset : Nat) : Prop :=
  offset ≤ first ∧ last ≤ offset + window

/-- Of the offsets with the property, `offset` lies nearer to `start` than every other one. -/
def Nearest (P : Nat → Prop) (start offset : Nat) : Prop :=
  P offset ∧ ∀ other, P other → other ≠ offset → Nat.dist start offset < Nat.dist start other

theorem Nearest.eq_of_start {P : Nat → Prop} {start offset : Nat} (h : Nearest P start offset)
    (hstart : P start) : offset = start := by
  by_contra hne
  have hlt := h.2 start hstart (Ne.symm hne)
  rw [Nat.dist_self] at hlt
  exact Nat.not_lt_zero _ hlt

section

variable {start window first last : Nat}

theorem encloses_reveal (hfits : last ≤ first + window) (start : Nat) :
    Encloses window first last (reveal start window first last) := by
  unfold reveal
  split
  · exact ⟨Nat.le_refl _, hfits⟩
  · split
    · constructor <;> omega
    · constructor <;> omega

theorem nearest_reveal (hfits : last ≤ first + window) (start : Nat) :
    Nearest (Encloses window first last) start (reveal start window first last) := by
  refine ⟨encloses_reveal hfits start, fun other hother hne => ?_⟩
  obtain ⟨hfirst, hlast⟩ := hother
  unfold reveal at hne ⊢
  unfold Nat.dist
  split at hne
  · next habove =>
      rw [if_pos habove]
      omega
  · next habove =>
      rw [if_neg habove]
      split at hne
      · next hbelow =>
          rw [if_pos hbelow]
          omega
      · next hbelow =>
          rw [if_neg hbelow]
          omega

end

/-! ## The span of the cursor's item -/

section

variable {view : Rect} {heights : List Nat} {i h : Nat}

theorem sum_take_succ_of_item (hitem : heights[i]? = some h) :
    (heights.take (i + 1)).sum = (heights.take i).sum + h := by
  rw [List.take_add_one, hitem, Option.toList_some, List.sum_append, List.sum_singleton]

theorem occupies_of_item (hitem : heights[i]? = some h) :
    Occupies 0 heights i (heights.take i).sum ((heights.take i).sum + h) := by
  obtain ⟨hi, -⟩ := List.getElem?_eq_some_iff.mp hitem
  have hoccupies := occupies_of_lt hi 0
  rw [Nat.zero_add, Nat.zero_add, sum_take_succ_of_item hitem] at hoccupies
  exact hoccupies

theorem offset_layoutStrip_of_item (hitem : heights[i]? = some h) (hheight : 0 < view.height)
    (offset : Nat) :
    (layoutStrip offset heights view (some i)).offset =
      reveal (min offset (heights.sum - view.height)) view.height (heights.take i).sum
        ((heights.take i).sum + h) := by
  have hitems : heights ≠ [] := by
    rintro rfl
    simp at hitem
  have hstart : min offset (maxOffset heights view.height) ≤ maxOffset heights view.height :=
    Nat.min_le_right ..
  rw [layoutStrip_of_items hitems hheight, ← scrollFor_min, scrollFor_of_item hitem hstart,
    maxOffset, totalHeight_eq_sum, totalHeight_eq_sum]

theorem exists_span_of_visible (hitem : heights[i]? = some h) (hheight : 0 < view.height)
    (offset : Nat) (cursor : Option Nat) :
    let layout := layoutStrip offset heights view cursor
    let first := (heights.take i).sum
    Visible view layout.offset first (first + h) →
      let s := ItemSpan.ofItem view layout.offset i first (first + h)
      s ∈ layout.spans ∧ ∀ t ∈ layout.spans, t.index = i → t = s := by
  intro layout first hvisible s
  constructor
  · have hmem := ofItem_mem_spansFrom (occupies_of_item hitem) hvisible 0
    rw [Nat.zero_add] at hmem
    have hspans : layout.spans = spansFrom view layout.offset 0 0 heights :=
      spans_layoutStrip hheight ..
    rw [hspans]
    exact hmem
  · intro t ht hindex
    obtain ⟨j, top, bottom, hoccupies, -, rfl⟩ := exists_of_mem_layoutStrip ht
    obtain rfl : j = i := hindex
    have htop := hoccupies.first_eq
    have hbottom := hoccupies.last_eq
    rw [Nat.zero_add] at htop hbottom
    rw [htop, hbottom, sum_take_succ_of_item hitem]

variable {offset first : Nat}

theorem clipTop_ofItem (view : Rect) (offset index first last : Nat) :
    (ItemSpan.ofItem view offset index first last).clipTop = offset - first := by
  change max first offset - first = offset - first
  omega

theorem ofItem_of_encloses (hview : view.OnScreen) (hlines : 0 < h)
    (hencloses : Encloses view.height first (first + h) offset) (index : Nat) :
    ItemSpan.ofItem view offset index first (first + h) =
      ⟨index, ⟨view.x, view.y + (first - offset), view.width, h⟩, 0⟩ := by
  obtain ⟨hfirst, hlast⟩ := hencloses
  have hvisible : Visible view offset first (first + h) := by
    refine ⟨?_, ?_, ?_⟩ <;> omega
  have htop : clampLine view offset first = first := by
    unfold clampLine
    omega
  have hbottom : clampLine view offset (first + h) = first + h := by
    unfold clampLine
    omega
  rw [ofItem_eq hview hvisible, htop, hbottom, Nat.add_sub_cancel_left, Nat.sub_self]

theorem ofItem_of_fills (hview : view.OnScreen) (hheight : 0 < view.height)
    (hfirst : first ≤ offset) (hlast : offset + view.height ≤ first + h) (index : Nat) :
    ItemSpan.ofItem view offset index first (first + h) = ⟨index, view, offset - first⟩ := by
  have hvisible : Visible view offset first (first + h) := by
    refine ⟨?_, ?_, ?_⟩ <;> omega
  have htop : clampLine view offset first = offset := by
    unfold clampLine
    omega
  have hbottom : clampLine view offset (first + h) = offset + view.height := by
    unfold clampLine
    omega
  rw [ofItem_eq hview hvisible, htop, hbottom, Nat.add_sub_cancel_left, Nat.sub_self, Nat.add_zero]

end

/-- A layout shows the item of the cursor, in one span. An item that fits is shown whole, at the
offset nearest to the clamped one among those that show it whole. An item that is too tall fills the
view with its first lines or with its last ones. -/
theorem layoutStrip_shows_item {heights : List Nat} {i h : Nat} (hitem : heights[i]? = some h)
    (hlines : 0 < h) {view : Rect} (hheight : 0 < view.height) (offset : Nat) :
    let layout := layoutStrip offset heights view (some i)
    let start := min offset (heights.sum - view.height)
    let first := (heights.take i).sum
    let Shown := Encloses view.height first (first + h)
    ∃ s ∈ layout.spans, s.index = i ∧ (∀ t ∈ layout.spans, t.index = i → t = s) ∧
      (h ≤ view.height →
        Nearest Shown start layout.offset ∧ (Shown start → layout.offset = start) ∧
          s.clipTop = 0 ∧ (view.OnScreen → s.rect.height = h)) ∧
      (view.height < h →
        (s.clipTop = 0 ∨ s.clipTop = h - view.height) ∧ (view.OnScreen → s.rect = view)) := by
  intro layout start first Shown
  have hoffset : layout.offset = reveal start view.height first (first + h) :=
    offset_layoutStrip_of_item hitem hheight offset
  have hspan := exists_span_of_visible hitem hheight offset (some i)
  by_cases hfits : h ≤ view.height
  · have hnearest : Nearest Shown start layout.offset := by
      rw [hoffset]
      exact nearest_reveal (Nat.add_le_add_left hfits first) start
    have hshown := hnearest.1
    have hvisible : Visible view layout.offset first (first + h) := by
      obtain ⟨hfirst, hlast⟩ := hshown
      refine ⟨?_, ?_, ?_⟩ <;> omega
    obtain ⟨hmem, hunique⟩ := hspan hvisible
    refine ⟨_, hmem, rfl, hunique,
      fun _ => ⟨hnearest, hnearest.eq_of_start, ?_, fun hview => ?_⟩, fun htall => ?_⟩
    · rw [clipTop_ofItem]
      exact Nat.sub_eq_zero_of_le hshown.1
    · rw [ofItem_of_encloses hview hlines hshown]
    · omega
  · have htall : first + view.height < first + h :=
      Nat.add_lt_add_left (Nat.lt_of_not_le hfits) first
    have hedge : layout.offset = first ∨ layout.offset = first + h - view.height :=
      hoffset ▸ reveal_eq_or_of_tall htall start
    have hvisible : Visible view layout.offset first (first + h) := by
      refine ⟨?_, ?_, ?_⟩ <;> omega
    have habove : first ≤ layout.offset := by omega
    have hbelow : layout.offset + view.height ≤ first + h := by omega
    have hclip : layout.offset - first = 0 ∨ layout.offset - first = h - view.height := by omega
    obtain ⟨hmem, hunique⟩ := hspan hvisible
    refine ⟨_, hmem, rfl, hunique, fun hfit => absurd hfit hfits, fun _ => ⟨?_, fun hview => ?_⟩⟩
    · rwa [clipTop_ofItem]
    · rw [ofItem_of_fills hview hheight habove hbelow]

theorem layoutStrip_shows_item_below_window :
    let view : Rect := ⟨2, 1, 20, 4⟩
    let layout := layoutStrip 1 [2, 0, 3, 2, 10] view (some 3)
    let tall := layoutStrip 1 [2, 0, 3, 2, 10] view (some 4)
    layout.offset = 3 ∧ Nearest (Encloses 4 5 7) 1 layout.offset ∧
      (∃ s ∈ layout.spans, s.index = 3 ∧ s.clipTop = 0 ∧ s.rect.height = 2) ∧
      ∃ s ∈ tall.spans, s.index = 4 ∧ s.rect = view ∧ (s.clipTop = 0 ∨ s.clipTop = 6) := by
  intro view layout tall
  have hview : view.OnScreen := by decide
  have hheight : 0 < view.height := by decide
  have hfourth : [2, 0, 3, 2, 10][3]? = some 2 := rfl
  have hfifth : [2, 0, 3, 2, 10][4]? = some 10 := rfl
  obtain ⟨s, hs, hindex, -, hwhole, -⟩ := layoutStrip_shows_item hfourth (by decide) hheight 1
  obtain ⟨hnearest, -, hclip, hshown⟩ := hwhole (by decide)
  obtain ⟨t, ht, htIndex, -, -, htall⟩ := layoutStrip_shows_item hfifth (by decide) hheight 1
  obtain ⟨hedge, hfills⟩ := htall (by decide)
  exact ⟨by decide, hnearest, ⟨s, hs, hindex, hclip, hshown hview⟩,
    t, ht, htIndex, hfills hview, hedge⟩

end RevisionGraph
