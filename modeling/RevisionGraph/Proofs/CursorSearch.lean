import RevisionGraph.Proofs.Loading

/-!
# Searching for the cursor

A reload looks for the revision that the cursor was on, by its change id, among the first rows of the
log. The first row that the id names is taken, be it another one.
-/

namespace RevisionGraph

/-! ## Change ids -/

theorem RevisionLine.changeId_ne_at {l : Line} {r : RevisionLine} (h : ofLine? l = some r) :
    r.changeId ≠ "@" := by
  intro hat
  have hidentifier := isIdentifier_of_ofLine? h
  simp only [changeId] at hat
  split at hat
  · next hambiguous =>
      rw [hat] at hambiguous
      exact absurd hambiguous (by decide)
  · rw [hat] at hidentifier
    exact absurd hidentifier (by decide +kernel)

theorem changeId_ne_at_of_mem_rowsOf {lines : List Line} {row : Row} (h : row ∈ rowsOf lines) :
    row.commit.changeId ≠ "@" := by
  obtain ⟨line, r, hr, hcommit⟩ := exists_revisionLine_of_mem_rowsOf h
  rw [hcommit]
  exact RevisionLine.changeId_ne_at hr

namespace RevisionList

theorem isNamed_changeId {row : Row} (h : row.commit.changeId ≠ "@") :
    isNamed row.commit.changeId row = true := by
  simp [isNamed, h]

/-! ## The rows that are looked at -/

/-- The least number of rows in whole batches that is more than `loadAhead`. -/
def reach (batchSize : Nat) : Nat :=
  (loadAhead / (batchSize + 1) + 1) * (batchSize + 1)

theorem loadAhead_lt_reach (n : Nat) : loadAhead < reach n :=
  Nat.lt_mul_of_div_lt (Nat.lt_succ_self _) (Nat.succ_pos n)

theorem add_le_reach {n m : Nat} (hwhole : n + 1 ∣ m) (hm : m ≤ loadAhead) : m + (n + 1) ≤ reach n := by
  obtain ⟨k, rfl⟩ := hwhole
  have hk : k ≤ loadAhead / (n + 1) := (Nat.le_div_iff_mul_le (Nat.succ_pos n)).mpr (by
    rw [Nat.mul_comm]
    exact hm)
  calc (n + 1) * k + (n + 1) = (k + 1) * (n + 1) := by
        rw [Nat.mul_comm (n + 1) k, ← Nat.succ_mul]
    _ ≤ reach n := Nat.mul_le_mul_right _ (Nat.succ_le_succ hk)

theorem reach_le {n m : Nat} (hwhole : n + 1 ∣ m) (hm : loadAhead < m) : reach n ≤ m := by
  obtain ⟨k, rfl⟩ := hwhole
  have hk : loadAhead / (n + 1) < k := (Nat.div_lt_iff_lt_mul (Nat.succ_pos n)).mpr (by
    rw [Nat.mul_comm]
    exact hm)
  rw [Nat.mul_comm (n + 1) k]
  exact Nat.mul_le_mul_right _ hk

/-- The place of the first row that is meant, if a revision is looked for. -/
def place (wanted : Option String) (rows : List Row) : Option Nat :=
  wanted.bind fun name => rows.findIdx? (isNamed name)

variable {wanted : Option String} {rows more : List Row} {j : Nat}

@[simp] theorem place_nil (wanted : Option String) : place wanted [] = none := by
  cases wanted <;> rfl

theorem place_append (wanted : Option String) (rows more : List Row) :
    place wanted (rows ++ more) =
      (place wanted rows).or ((place wanted more).map (· + rows.length)) := by
  cases wanted with
  | none => rfl
  | some name => exact List.findIdx?_append

theorem place_append_of_some (h : place wanted rows = some j) (more : List Row) :
    place wanted (rows ++ more) = some j := by
  rw [place_append, h, Option.some_or]

theorem place_lt (h : place wanted rows = some j) : j < rows.length := by
  obtain ⟨name, -, hname⟩ := Option.bind_eq_some_iff.mp h
  exact (List.findIdx?_eq_some_iff_getElem.mp hname).1

theorem place_take_of_lt (h : place wanted rows = some j) {m : Nat} (hm : j < m) :
    place wanted (rows.take m) = some j := by
  have happend := place_append wanted (rows.take m) (rows.drop m)
  rw [List.take_append_drop, h] at happend
  cases htake : place wanted (rows.take m) with
  | some i =>
      rw [htake] at happend
      exact happend.symm
  | none =>
      rw [htake, Option.none_or] at happend
      obtain ⟨i, hi, hij⟩ := Option.map_eq_some_iff.mp happend.symm
      have hdrop := place_lt hi
      rw [List.length_drop] at hdrop
      rw [List.length_take] at hij
      omega

theorem place_take_of_none (h : place wanted rows = none) (m : Nat) :
    place wanted (rows.take m) = none := by
  have happend := place_append wanted (rows.take m) (rows.drop m)
  rw [List.take_append_drop, h] at happend
  exact (Option.or_eq_none_iff.mp happend.symm).1

theorem selectPending_of_looks {v : RevisionList} (hrows : v.rows = rows ++ more)
    (hpending : v.pendingSelection = if (place wanted rows).isSome then none else wanted) :
    v.selectPending.cursor =
        (if (place wanted rows).isSome then v.cursor else (place wanted v.rows).getD v.cursor) ∧
      v.selectPending.pendingSelection =
        if (place wanted v.rows).isSome then none else wanted := by
  cases hplace : place wanted rows with
  | some j =>
      rw [hplace] at hpending
      have hsame : v.selectPending = v := by
        simp only [selectPending, hpending]
        rfl
      rw [hsame, hrows, place_append_of_some hplace]
      exact ⟨rfl, hpending⟩
  | none =>
      rw [hplace] at hpending
      have hfound : v.pendingSelection.bind v.findRevision? = place wanted v.rows :=
        congrArg (fun name => place name v.rows) hpending
      cases hall : place wanted v.rows with
      | none =>
          rw [hall] at hfound
          simp only [selectPending, hfound]
          exact ⟨rfl, hpending⟩
      | some j =>
          rw [hall] at hfound
          simp only [selectPending, hfound]
          exact ⟨rfl, rfl⟩

section

variable {name : String} {row : Row} {c : Nat}

theorem exists_place (hrow : rows[c]? = some row) (hnamed : isNamed name row = true) :
    ∃ j, place (some name) rows = some j := by
  cases hplace : place (some name) rows with
  | some j => exact ⟨j, rfl⟩
  | none =>
      have habsent := List.findIdx?_eq_none_iff.mp hplace row (List.mem_of_getElem? hrow)
      rw [hnamed] at habsent
      contradiction

theorem place_eq_some_iff (hrow : rows[c]? = some row) (hnamed : isNamed name row = true) :
    place (some name) rows = some c ↔ ∀ above ∈ rows.take c, isNamed name above = false := by
  obtain ⟨hc, hget⟩ := List.getElem?_eq_some_iff.mp hrow
  rw [place, Option.bind_some, List.findIdx?_eq_some_iff_getElem]
  constructor
  · rintro ⟨_, _, habove⟩ above hmem
    obtain ⟨i, hi, rfl⟩ := List.mem_take_iff_getElem.mp hmem
    have hi : i < c := (Nat.lt_min.mp hi).1
    exact Bool.eq_false_iff.mpr (habove i hi)
  · intro hnone
    refine ⟨hc, hget.symm ▸ hnamed, fun i hi => Bool.eq_false_iff.mp (hnone _ ?_)⟩
    exact List.mem_take_iff_getElem.mpr ⟨i, Nat.lt_min.mpr ⟨hi, hi.trans hc⟩, rfl⟩

theorem getD_place_take_eq_iff {m : Nat} (hrow : rows[c]? = some row)
    (hnamed : isNamed name row = true) (hm : 0 < m) :
    (place (some name) (rows.take m)).getD 0 = c ↔
      c < m ∧ ∀ above ∈ rows.take c, isNamed name above = false := by
  by_cases hcm : c < m
  · have hseen : (rows.take m)[c]? = some row := by rwa [List.getElem?_take_of_lt hcm]
    obtain ⟨j, hj⟩ := exists_place hseen hnamed
    have hfirst := place_eq_some_iff hseen hnamed
    rw [List.take_take, Nat.min_eq_left (Nat.le_of_lt hcm), hj, Option.some_inj] at hfirst
    rw [hj, Option.getD_some, and_iff_right hcm]
    exact hfirst
  · have hlt : (place (some name) (rows.take m)).getD 0 < m := by
      cases htake : place (some name) (rows.take m) with
      | none => exact hm
      | some j => exact (place_lt htake).trans_le (List.length_take_le m rows)
    constructor
    · intro heq
      omega
    · rintro ⟨hlt, -⟩
      contradiction

end

end RevisionList

end RevisionGraph
