import RevisionGraph.Proofs.StripCells

/-!
# Mouse targets and the layout

An item is looked for from the first span on, and a target from the last one back. Both find the
same because no cell has two spans: the lines of two items are different, and a span shows lines of
its own item only (`line_of_contains_ofItem`). This holds of any view, also of one that reaches over
the greatest coordinate, and it is kept by all that a viewport goes through
(`Viewport.tidy_performAll`).
-/

namespace RevisionGraph

theorem Rect.contains_iff_edges {r : Rect} {x y : Nat} :
    r.contains x y = true ↔ (r.x ≤ x ∧ x < r.right) ∧ r.y ≤ y ∧ y < r.bottom := by
  simp only [contains, Bool.and_eq_true, decide_eq_true_eq, and_assoc]

theorem Rect.isEmpty_of_contains {r : Rect} {x y : Nat} (h : r.contains x y = true) :
    r.isEmpty = false := by
  rw [contains_iff_edges] at h
  unfold right bottom toCoordinate at h
  simp only [isEmpty, Bool.or_eq_false_iff, beq_eq_false_iff_ne, ne_eq]
  omega

/-! ## Targets on top of others -/

theorem find?_reverse_of_apart {α : Type} {p : α → Bool} {xs : List α}
    (h : xs.Pairwise fun a b => p a = true → p b = false) : xs.reverse.find? p = xs.find? p := by
  induction xs with
  | nil => rfl
  | cons a rest ih =>
      obtain ⟨hfirst, hrest⟩ := List.pairwise_cons.mp h
      rw [List.reverse_cons, List.find?_append, ih hrest]
      cases ha : p a with
      | true =>
          have hnone : rest.find? p = none :=
            List.find?_eq_none.mpr fun b hb => Bool.eq_false_iff.mp (hfirst b hb ha)
          rw [hnone, Option.none_or, List.find?_cons_of_pos ha, List.find?_cons_of_pos ha]
      | false =>
          have hsingle : [a].find? p = none := List.find?_cons_of_neg (Bool.eq_false_iff.mp ha)
          rw [hsingle, Option.or_none, List.find?_cons_of_neg (Bool.eq_false_iff.mp ha)]

namespace Targets

variable {α : Type} (ts : Targets α) (x y : Nat)

theorem hit_register (rect : Rect) (kind other : TargetKind) (message : α) :
    (ts.register rect kind message).hit x y other =
      if kind = other ∧ rect.contains x y = true then some message else ts.hit x y other := by
  unfold register hit
  split
  · next hempty =>
      rw [if_neg fun h => ?_]
      rw [Rect.isEmpty_of_contains h.2] at hempty
      contradiction
  · rw [List.reverse_append, List.reverse_singleton, List.singleton_append]
    split
    · next h => rw [List.find?_cons_of_pos (by simpa using h), Option.map_some]
    · next h => rw [List.find?_cons_of_neg (by simpa using h)]

theorem hit_eq_none_of_free {kind : TargetKind}
    (hfree : ∀ t ∈ ts, t.rect.contains x y = false) : ts.hit x y kind = none := by
  have hnone : ts.reverse.find? (fun t => t.kind = kind ∧ t.rect.contains x y) = none := by
    refine List.find?_eq_none.mpr fun t ht => ?_
    simp [hfree t (List.mem_reverse.mp ht)]
  rw [hit, hnone, Option.map_none]

end Targets

namespace Viewport

variable {α : Type} (v : Viewport) (message : Nat → α) (ts : Targets α) (x y : Nat)

theorem hit_registerItems_of_ne {kind other : TargetKind} (h : kind ≠ other) :
    (v.registerItems kind message ts).hit x y other = ts.hit x y other := by
  unfold registerItems
  induction v.spans generalizing ts with
  | nil => rfl
  | cons s rest ih => rw [List.foldl_cons, ih, Targets.hit_register, if_neg fun heq => h heq.1]

theorem hit_registerItems_eq_or (kind : TargetKind) :
    (v.registerItems kind message ts).hit x y kind =
      ((v.spans.reverse.find? fun s => s.rect.contains x y).map fun s => message s.index).or
        (ts.hit x y kind) := by
  unfold registerItems
  induction v.spans generalizing ts with
  | nil => rfl
  | cons s rest ih =>
      rw [List.foldl_cons, ih, Targets.hit_register, List.reverse_cons, List.find?_append,
        Option.map_or, Option.or_assoc]
      congr 1
      cases hs : s.rect.contains x y <;> simp [hs]

/-! ## Tidy viewports -/

structure Tidy : Prop where
  apart : v.spans.Pairwise fun s t =>
    ∀ x y, s.rect.contains x y = true → t.rect.contains x y = false
  inside : ∀ s ∈ v.spans, ∀ x y, s.rect.contains x y = true → v.view.contains x y = true

variable {v x y}

theorem Tidy.hit_registerItems (h : v.Tidy) (kind : TargetKind) :
    (v.registerItems kind message ts).hit x y kind =
      ((v.itemAt x y).map message).or (ts.hit x y kind) := by
  have hapart := h.apart.imp fun hst => hst x y
  rw [hit_registerItems_eq_or, find?_reverse_of_apart hapart, itemAt, Option.map_map]
  rfl

theorem Tidy.contains_of_itemAt (h : v.Tidy) {i : Nat} (hi : v.itemAt x y = some i) :
    v.view.contains x y = true := by
  obtain ⟨s, hs, -⟩ := Option.map_eq_some_iff.mp hi
  exact h.inside s (List.mem_of_find?_eq_some hs) x y
    (List.find?_some (p := fun t : ItemSpan => t.rect.contains x y) hs)

end Viewport

/-! ## Layouts -/

section

variable {view : Rect} {offset index top bottom x y : Nat}

theorem toCoordinate_le (n : Nat) : toCoordinate n ≤ n :=
  Nat.min_le_left ..

theorem le_of_toCoordinate_le {n limit : Nat} (h : toCoordinate n ≤ limit)
    (hlimit : limit < maxCoordinate) : n ≤ limit := by
  unfold toCoordinate at h
  omega

theorem Rect.of_contains_cut {left top width height : Nat}
    (h : (Rect.cut left top width height).contains x y = true) :
    (left ≤ x ∧ x < left + width) ∧ (top ≤ y ∧ y < top + height) ∧
      x < maxCoordinate ∧ y < maxCoordinate := by
  rw [contains_iff_edges] at h
  simp only [cut, right, bottom, toCoordinate, Nat.lt_min] at h
  omega

theorem line_of_contains_ofItem
    (h : (ItemSpan.ofItem view offset index top bottom).rect.contains x y = true) :
    view.contains x y = true ∧ top ≤ offset + (y - view.y) ∧ offset + (y - view.y) < bottom := by
  obtain ⟨hx, ⟨htop, hbottom⟩, hxmax, hymax⟩ := Rect.of_contains_cut h
  let first := max top offset
  let last := min bottom (offset + view.height)
  have hrow : view.y + toCoordinate (first - offset) ≤ y := le_of_toCoordinate_le htop hymax
  have hfirst : first - offset ≤ y - view.y := le_of_toCoordinate_le (by omega) (by omega)
  have hlast : y < view.y + (first - offset) + (last - first) :=
    calc
      y < toCoordinate (view.y + toCoordinate (first - offset)) + toCoordinate (last - first) :=
        hbottom
      _ ≤ view.y + toCoordinate (first - offset) + toCoordinate (last - first) :=
        Nat.add_le_add_right (toCoordinate_le _) _
      _ ≤ view.y + (first - offset) + (last - first) :=
        Nat.add_le_add (Nat.add_le_add_left (toCoordinate_le _) _) (toCoordinate_le _)
  have hbounds : top ≤ first ∧ offset ≤ first ∧ last ≤ bottom ∧ last ≤ offset + view.height :=
    ⟨Nat.le_max_left .., Nat.le_max_right .., Nat.min_le_left .., Nat.min_le_right ..⟩
  clear_value first last
  refine ⟨Rect.contains_iff_edges.mpr ⟨⟨hx.1, ?_⟩, by omega, ?_⟩, by omega, by omega⟩
  · exact Nat.lt_min.mpr ⟨hx.2, hxmax⟩
  · exact Nat.lt_min.mpr ⟨by omega, hymax⟩

theorem apart_spansFrom (view : Rect) (offset index top : Nat) (heights : List Nat) :
    (spansFrom view offset index top heights).Pairwise fun s t =>
      ∀ x y, s.rect.contains x y = true → t.rect.contains x y = false := by
  induction heights generalizing index top with
  | nil => exact .nil
  | cons h rest ih =>
      unfold spansFrom
      split
      · exact ih (index + 1) (top + h)
      · refine .cons (fun t ht x y hs => ?_) (ih (index + 1) (top + h))
        obtain ⟨i, first, last, hoccupies, -, rfl⟩ := exists_of_mem_spansFrom ht
        -- The cell shows a line above the later item.
        have hline := (line_of_contains_ofItem hs).2.2
        have htop := hoccupies.top_le
        refine Bool.eq_false_iff.mpr fun hcell => ?_
        have hlater := (line_of_contains_ofItem hcell).2.1
        omega

end

namespace Viewport

theorem tidy_initial : initial.Tidy :=
  ⟨.nil, fun _ hs => absurd hs List.not_mem_nil⟩

theorem tidy_arrange (v : Viewport) (view : Rect) (heights : List Nat) (cursor : Option Nat) :
    (v.arrange view heights cursor).Tidy := by
  have hspans : (v.arrange view heights cursor).spans =
      (layoutStrip v.offset heights view cursor).spans := rfl
  constructor
  · rw [hspans]
    by_cases hheight : view.height = 0
    · rw [spans_layoutStrip_of_height_eq_zero hheight]
      exact .nil
    · rw [spans_layoutStrip (Nat.pos_of_ne_zero hheight)]
      exact apart_spansFrom ..
  · intro s hs x y hcell
    obtain ⟨i, first, last, -, -, rfl⟩ := exists_of_mem_layoutStrip (hspans ▸ hs)
    exact (line_of_contains_ofItem hcell).1

inductive Move where
  | arrange (view : Rect) (heights : List Nat) (cursor : Option Nat)
  | scrollBy (delta : Int)
  | reset
  deriving DecidableEq, Repr

def perform (v : Viewport) : Move → Viewport
  | .arrange view heights cursor => v.arrange view heights cursor
  | .scrollBy delta => v.scrollBy delta
  | .reset => v.reset

def performAll (v : Viewport) (moves : List Move) : Viewport :=
  moves.foldl perform v

theorem Tidy.perform {v : Viewport} (h : v.Tidy) (m : Move) : (v.perform m).Tidy := by
  cases m with
  | arrange view heights cursor => exact v.tidy_arrange view heights cursor
  | scrollBy delta => exact ⟨h.apart, h.inside⟩
  | reset => exact ⟨.nil, fun _ hs => absurd hs List.not_mem_nil⟩

theorem tidy_performAll (moves : List Move) : (initial.performAll moves).Tidy :=
  List.foldlRecOn moves perform tidy_initial fun _ h m _ => h.perform m

/-- The items as targets of clicks and drags, and the view as a target of the wheel. -/
def registerAll {α : Type} (v : Viewport) (message : Nat → α) (wheel : α) (ts : Targets α) :
    Targets α :=
  v.registerScroll wheel (v.registerItems .drag message (v.registerItems .click message ts))

theorem Tidy.hit_registerAll {α : Type} {v : Viewport} (h : v.Tidy) (message : Nat → α) (wheel : α)
    (ts : Targets α) (x y : Nat) (kind : TargetKind) :
    (v.registerAll message wheel ts).hit x y kind =
      (if kind = .scroll then if v.view.contains x y then some wheel else none
        else (v.itemAt x y).map message).or (ts.hit x y kind) := by
  unfold registerAll registerScroll
  rw [Targets.hit_register]
  cases kind with
  | click =>
      rw [if_neg (by simp), if_neg (by simp), hit_registerItems_of_ne _ _ _ _ _ (by simp),
        h.hit_registerItems]
  | drag =>
      rw [if_neg (by simp), if_neg (by simp), h.hit_registerItems,
        hit_registerItems_of_ne _ _ _ _ _ (by simp)]
  | scroll =>
      rw [hit_registerItems_of_ne _ _ _ _ _ (by simp), hit_registerItems_of_ne _ _ _ _ _ (by simp)]
      cases v.view.contains x y <;> simp

end Viewport

/-- Whatever a viewport has gone through, at the cells of its view the mouse meets what the layout
has there, if no earlier target lies in the view: clicks and drags the item, and the wheel the view.
Elsewhere the layout has nothing and the earlier targets answer as before. -/
theorem targets_agree_with_layout {α : Type} (moves : List Viewport.Move) (message : Nat → α)
    (wheel : α) {ts : Targets α}
    (hts : ∀ t ∈ ts, ∀ x y, (Viewport.initial.performAll moves).view.contains x y = true →
      t.rect.contains x y = false) (x y : Nat) :
    let v := Viewport.initial.performAll moves
    let all := v.registerAll message wheel ts
    (v.view.contains x y = true → all.hit x y .click = (v.itemAt x y).map message ∧
        all.hit x y .drag = (v.itemAt x y).map message ∧ all.hit x y .scroll = some wheel) ∧
      (v.view.contains x y = false → v.itemAt x y = none ∧
        ∀ kind, all.hit x y kind = ts.hit x y kind) := by
  intro v all
  have htidy : v.Tidy := Viewport.tidy_performAll moves
  have hhit (kind : TargetKind) := htidy.hit_registerAll message wheel ts x y kind
  constructor
  · intro hview
    have hfree (kind : TargetKind) : ts.hit x y kind = none :=
      ts.hit_eq_none_of_free x y fun t ht => hts t ht x y hview
    refine ⟨?_, ?_, ?_⟩
    · rw [hhit, hfree, if_neg (by simp), Option.or_none]
    · rw [hhit, hfree, if_neg (by simp), Option.or_none]
    · rw [hhit, hfree, if_pos rfl, if_pos hview, Option.or_none]
  · intro hview
    have hnone : v.itemAt x y = none := by
      refine Option.eq_none_iff_forall_ne_some.mpr fun i hi => ?_
      rw [htidy.contains_of_itemAt hi] at hview
      contradiction
    refine ⟨hnone, fun kind => ?_⟩
    rw [hhit, hnone, hview]
    cases kind <;> rfl

theorem apart_of_right_le {view : Rect} {t : Rect} (h : view.right ≤ t.x) (x y : Nat)
    (hview : view.contains x y = true) : t.contains x y = false := by
  refine Bool.eq_false_iff.mpr fun hcell => ?_
  rw [Rect.contains_iff_edges] at hview hcell
  omega

theorem targets_agree_with_layout_of_scrolled_list :
    let moves : List Viewport.Move := [.arrange ⟨2, 1, 20, 3⟩ [1, 2, 1, 1] (some 3), .scrollBy 4]
    let v := Viewport.initial.performAll moves
    let ts : Targets String := [⟨⟨22, 1, 10, 3⟩, .click, "other"⟩]
    let all := v.registerAll (fun i => toString i) "wheel" ts
    (∀ t ∈ ts, ∀ x y, v.view.contains x y = true → t.rect.contains x y = false) ∧
      v.view.contains 5 2 = true ∧ all.hit 5 2 .click = some "2" ∧ all.hit 5 2 .drag = some "2" ∧
      all.hit 5 2 .scroll = some "wheel" ∧ v.view.contains 22 1 = false ∧
      all.hit 22 1 .click = some "other" := by
  intro moves v ts all
  have hts : ∀ t ∈ ts, ∀ x y, v.view.contains x y = true → t.rect.contains x y = false := by
    intro t ht
    obtain rfl := List.mem_singleton.mp ht
    exact apart_of_right_le (by decide)
  have hinside : v.view.contains 5 2 = true := by decide
  have houtside : v.view.contains 22 1 = false := by decide
  obtain ⟨hclick, hdrag, hscroll⟩ :=
    (targets_agree_with_layout moves (fun i => toString i) "wheel" hts 5 2).1 hinside
  have hother :=
    ((targets_agree_with_layout moves (fun i => toString i) "wheel" hts 22 1).2 houtside).2 .click
  have hitem : v.itemAt 5 2 = some 2 := by decide
  rw [hitem] at hclick hdrag
  exact ⟨hts, hinside, hclick, hdrag, hscroll, houtside, hother⟩

/-- A cell outside the view has no item, but it may have the target of another list. -/
theorem hit_ne_itemAt_of_other_list :
    let v := Viewport.initial.arrange ⟨0, 0, 20, 3⟩ [1, 1, 1] none
    let ts : Targets Nat := [⟨⟨20, 0, 10, 3⟩, .click, 7⟩]
    let all := v.registerAll id 100 ts
    (∀ t ∈ ts, ∀ x y, v.view.contains x y = true → t.rect.contains x y = false) ∧
      v.itemAt 25 1 = none ∧ all.hit 25 1 .click = some 7 ∧
      all.hit 25 1 .click ≠ (v.itemAt 25 1).map id := by
  intro v ts all
  have hts : ∀ t ∈ ts, ∀ x y, v.view.contains x y = true → t.rect.contains x y = false := by
    intro t ht
    obtain rfl := List.mem_singleton.mp ht
    exact apart_of_right_le (by decide)
  have hitem : v.itemAt 25 1 = none := by decide
  have hother : all.hit 25 1 .click = some 7 := by decide
  refine ⟨hts, hitem, hother, ?_⟩
  rw [hitem, hother, Option.map_none]
  exact Option.some_ne_none 7

end RevisionGraph
