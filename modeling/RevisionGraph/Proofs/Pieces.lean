import Mathlib.Data.List.DropRight
import Mathlib.Data.List.Forall2
import RevisionGraph.Text.Blank

/-!
# Pieces between separators

A list is its last piece, or a piece, a separator and a list of the other pieces
(`splitOn_induction`). Pieces that are trimmed are the same whether the whole is trimmed before it
is cut or not (`map_trimWhere_splitOn_trimWhere`).
-/

namespace RevisionGraph.Text

/-! ## Cutting -/

section

variable {α : Type} [BEq α] [LawfulBEq α] {a : α}

theorem splitOn_induction {motive : List α → List (List α) → Prop}
    (last : ∀ piece, a ∉ piece → motive piece [piece])
    (before : ∀ piece cs pieces, a ∉ piece → motive cs pieces →
      motive (piece ++ a :: cs) (piece :: pieces)) (cs : List α) : motive cs (cs.splitOn a) := by
  by_cases hmem : a ∈ cs
  · obtain ⟨piece, rest, rfl, hpiece⟩ := List.eq_append_cons_of_mem hmem
    rw [List.splitOn_append_cons_self_of_not_mem hpiece]
    exact before _ _ _ hpiece (splitOn_induction last before rest)
  · rw [List.splitOn_eq_singleton hmem]
    exact last _ hmem
termination_by cs.length

theorem splitOn_map {f : α → α} (hf : ∀ c, f c = a ↔ c = a) (cs : List α) :
    (cs.map f).splitOn a = (cs.splitOn a).map (List.map f) := by
  have hpieces (piece : List α) (h : a ∉ piece) : a ∉ piece.map f := by
    intro hmem
    obtain ⟨c, hc, heq⟩ := List.mem_map.mp hmem
    exact h ((hf c).mp heq ▸ hc)
  refine splitOn_induction (motive := fun cs pieces =>
    (cs.map f).splitOn a = pieces.map (List.map f)) ?_ ?_ cs
  · intro piece h
    rw [List.splitOn_eq_singleton (hpieces piece h), List.map_singleton]
  · intro piece rest pieces h ih
    rw [List.map_append, List.map_cons, (hf a).mpr rfl,
      List.splitOn_append_cons_self_of_not_mem (hpieces piece h), ih, List.map_cons]

theorem exists_mem_splitOn_iff {c : α} (hc : c ≠ a) (cs : List α) :
    (∃ piece ∈ cs.splitOn a, c ∈ piece) ↔ c ∈ cs := by
  refine splitOn_induction (motive := fun cs pieces =>
    (∃ piece ∈ pieces, c ∈ piece) ↔ c ∈ cs) ?_ ?_ cs
  · intro piece _
    simp
  · intro piece rest pieces _ ih
    rw [List.exists_mem_cons_iff, ih, List.mem_append, List.mem_cons, or_iff_right hc]

end

/-! ## Trimming -/

section

variable {p : Char → Bool}

theorem trimWhere_append_left {front : List Char} (h : ∀ c ∈ front, p c = true) (cs : List Char) :
    trimWhere p (front ++ cs) = trimWhere p cs := by
  rw [trimWhere, List.dropWhile_append_of_pos h, trimWhere]

theorem trimWhere_append_right {back : List Char} (h : ∀ c ∈ back, p c = true) (cs : List Char) :
    trimWhere p (cs ++ back) = trimWhere p cs := by
  have hreversed : ∀ c ∈ back.reverse, p c = true := fun c hc => h c (List.mem_reverse.mp hc)
  rw [trimWhere, trimWhere, List.dropWhile_append]
  split
  · next hempty =>
      rw [List.isEmpty_iff.mp hempty, List.dropWhile_eq_nil_iff.mpr h]
  · rw [List.reverse_append, List.dropWhile_append_of_pos hreversed]

theorem exists_eq_append_trimWhere (p : Char → Bool) (cs : List Char) :
    ∃ front back, (∀ c ∈ front, p c = true) ∧ (∀ c ∈ back, p c = true) ∧
      cs = front ++ trimWhere p cs ++ back := by
  refine ⟨cs.takeWhile p, (cs.dropWhile p).rtakeWhile p, fun c => List.mem_takeWhile_imp,
    fun c => List.mem_rtakeWhile_imp, ?_⟩
  have htrim : trimWhere p cs = (cs.dropWhile p).rdropWhile p := rfl
  rw [htrim, List.append_assoc, List.rdropWhile_append_rtakeWhile, List.takeWhile_append_dropWhile]

theorem notMem_of_all {a : Char} (ha : p a = false) {cs : List Char} (h : ∀ c ∈ cs, p c = true) :
    a ∉ cs := by
  intro hmem
  rw [h a hmem] at ha
  contradiction

theorem mem_trimWhere {c : Char} (hc : p c = false) {cs : List Char} :
    c ∈ trimWhere p cs ↔ c ∈ cs := by
  obtain ⟨front, back, hfront, hback, heq⟩ := exists_eq_append_trimWhere p cs
  conv_rhs => rw [heq]
  simp [notMem_of_all hc hfront, notMem_of_all hc hback]

theorem trimWhere_eq_nil_iff {cs : List Char} :
    trimWhere p cs = [] ↔ ∀ c ∈ cs, p c = true := by
  constructor
  · intro h c hmem
    by_contra hc
    rw [← mem_trimWhere (Bool.eq_false_iff.mpr hc), h] at hmem
    exact List.not_mem_nil hmem
  · intro h
    rw [trimWhere, List.dropWhile_eq_nil_iff.mpr h]
    rfl

theorem trimWhere_map {f : Char → Char} (hf : ∀ c, p (f c) = p c) (cs : List Char) :
    trimWhere p (cs.map f) = (trimWhere p cs).map f := by
  have hcomp : p ∘ f = p := funext hf
  rw [trimWhere, trimWhere, List.dropWhile_map, hcomp, ← List.map_reverse, List.dropWhile_map,
    hcomp, List.map_reverse]

theorem map_trimWhere_splitOn_append_left {a : Char} (ha : p a = false) {front : List Char}
    (h : ∀ c ∈ front, p c = true) (cs : List Char) :
    ((front ++ cs).splitOn a).map (trimWhere p) = (cs.splitOn a).map (trimWhere p) := by
  induction front with
  | nil => rfl
  | cons c front ih =>
      obtain ⟨hc, hfront⟩ := List.forall_mem_cons.mp h
      have hne : ¬(c == a) = true := fun heq => by simp [eq_of_beq heq, ha] at hc
      obtain ⟨first, others, hsplit⟩ :=
        List.exists_cons_of_ne_nil (List.splitOn_ne_nil a (front ++ cs))
      have hone : trimWhere p (c :: first) = trimWhere p first :=
        trimWhere_append_left (List.forall_mem_singleton.mpr hc) first
      rw [List.cons_append, List.splitOn_cons_eq_if_modifyHead, if_neg hne, ← ih hfront, hsplit,
        List.modifyHead_cons, List.map_cons, List.map_cons, hone]

theorem map_trimWhere_splitOn_append_right {a : Char} (ha : p a = false) {back : List Char}
    (h : ∀ c ∈ back, p c = true) (cs : List Char) :
    ((cs ++ back).splitOn a).map (trimWhere p) = (cs.splitOn a).map (trimWhere p) := by
  refine splitOn_induction (motive := fun cs pieces =>
    ((cs ++ back).splitOn a).map (trimWhere p) = pieces.map (trimWhere p)) ?_ ?_ cs
  · intro piece hpiece
    rw [List.splitOn_eq_singleton (List.not_mem_append hpiece (notMem_of_all ha h)),
      List.map_singleton, List.map_singleton, trimWhere_append_right h]
  · intro piece rest pieces hpiece ih
    rw [List.append_assoc, List.cons_append, List.splitOn_append_cons_self_of_not_mem hpiece,
      List.map_cons, List.map_cons, ih]

theorem map_trimWhere_splitOn_trimWhere {a : Char} (ha : p a = false) (cs : List Char) :
    ((trimWhere p cs).splitOn a).map (trimWhere p) = (cs.splitOn a).map (trimWhere p) := by
  obtain ⟨front, back, hfront, hback, heq⟩ := exists_eq_append_trimWhere p cs
  conv_rhs =>
    rw [heq, map_trimWhere_splitOn_append_right ha hback,
      map_trimWhere_splitOn_append_left ha hfront]

end

/-! ## Reading piece by piece -/

section

variable {ε α β : Type}

theorem bind_eq_ok_iff {x : Except ε α} {f : α → Except ε β} {y : β} :
    x >>= f = .ok y ↔ ∃ a, x = .ok a ∧ f a = .ok y := by
  cases x <;> simp [bind, Except.bind]

theorem pure_eq_ok_iff {x y : α} : (pure x : Except ε α) = .ok y ↔ x = y := by
  simp [pure, Except.pure]

theorem mapM_eq_ok_iff {f : α → Except ε β} {xs : List α} {ys : List β} :
    xs.mapM f = .ok ys ↔ List.Forall₂ (fun x y => f x = .ok y) xs ys := by
  induction xs generalizing ys with
  | nil => cases ys <;> simp [pure, Except.pure]
  | cons x rest ih =>
      simp only [List.mapM_cons, bind_eq_ok_iff, pure_eq_ok_iff, ih, List.forall₂_cons_left_iff]
      constructor
      · rintro ⟨y, hy, others, hothers, rfl⟩
        exact ⟨y, others, hy, hothers, rfl⟩
      · rintro ⟨y, others, hy, hothers, rfl⟩
        exact ⟨y, hy, others, hothers, rfl⟩

end

end RevisionGraph.Text
