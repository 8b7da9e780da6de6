import Mathlib.Algebra.Ring.Parity
import Mathlib.Data.List.Nodup
import Mathlib.Data.String.Basic
import RevisionGraph.Proofs.Following
import RevisionGraph.Proofs.Reloading

/-!
# Toggling rows

Revisions are checked by their change ids, so rows with one id are checked together, and to toggle a
range of rows is to toggle their ids: a row outside the range follows a row inside that has its id.
Only where no id stands twice are the rows of the range the only ones that change sides.

The marks are a sorted list of ids (`CheckedSet.Ascending`). Every toggle keeps them in order, and so
does every run of actions (`RevisionList.ascending_performAll`).
-/

namespace RevisionGraph

/-! ## Checked sets -/

namespace CheckedSet

variable {ids : List String} {s : CheckedSet}

def Ascending (s : CheckedSet) : Prop :=
  s.ids.Pairwise (· < ·)

theorem mem_of_mem_toggleId {id x : String} (h : x ∈ toggleId id ids) : x = id ∨ x ∈ ids := by
  induction ids with
  | nil => exact .inl (List.mem_singleton.mp h)
  | cons other rest ih =>
      unfold toggleId at h
      split at h
      · exact .inr (List.mem_cons_of_mem _ h)
      · split at h
        · exact List.mem_cons.mp h
        · obtain rfl | hlater := List.mem_cons.mp h
          · exact .inr List.mem_cons_self
          · exact (ih hlater).imp_right (List.mem_cons_of_mem _)

theorem pairwise_toggleId (h : ids.Pairwise (· < ·)) (id : String) :
    (toggleId id ids).Pairwise (· < ·) := by
  induction ids with
  | nil => exact List.pairwise_singleton _ _
  | cons other rest ih =>
      obtain ⟨hother, hrest⟩ := List.pairwise_cons.mp h
      unfold toggleId
      split
      · exact hrest
      · next hne =>
          split
          · next hlt =>
              refine List.pairwise_cons.mpr ⟨fun x hx => ?_, h⟩
              obtain rfl | hlater := List.mem_cons.mp hx
              · exact hlt
              · exact hlt.trans (hother x hlater)
          · next hge =>
              refine List.pairwise_cons.mpr ⟨fun x hx => ?_, ih hrest⟩
              obtain rfl | hlater := mem_of_mem_toggleId hx
              · exact lt_of_le_of_ne (not_lt.mp hge) (Ne.symm hne)
              · exact hother x hlater

theorem contains_toggleId (h : ids.Pairwise (· < ·)) (id x : String) :
    (toggleId id ids).contains x = if x = id then !ids.contains x else ids.contains x := by
  induction ids with
  | nil => by_cases hx : x = id <;> simp [toggleId, hx]
  | cons other rest ih =>
      obtain ⟨hother, hrest⟩ := List.pairwise_cons.mp h
      unfold toggleId
      split
      · next heq =>
          subst heq
          have habsent : id ∉ rest := fun hmem => lt_irrefl id (hother id hmem)
          by_cases hx : x = id
          · subst hx
            simp [habsent]
          · simp [hx]
      · next hne =>
          split
          · next hlt =>
              have habsent : id ∉ rest := fun hmem => lt_asymm hlt (hother id hmem)
              by_cases hx : x = id
              · subst hx
                simp [hne, habsent]
              · simp [hx]
          · by_cases hx : x = other
            · subst hx
              simp [Ne.symm hne]
            · simpa [hx] using ih hrest

theorem ascending_empty : empty.Ascending :=
  .nil

theorem Ascending.toggle (h : s.Ascending) (c : Commit) : (s.toggle c).Ascending :=
  pairwise_toggleId h _

theorem Ascending.clear (h : s.Ascending) : s.clear.Ascending := by
  unfold CheckedSet.clear
  split
  · exact h
  · exact .nil

theorem Ascending.toggleAll (h : s.Ascending) (cs : List Commit) : (s.toggleAll cs).Ascending :=
  List.foldlRecOn cs _ h fun _ hids c _ => pairwise_toggleId hids c.changeId

def occurrences (id : String) (cs : List Commit) : Nat :=
  cs.countP fun c => c.changeId == id

theorem contains_foldl_toggleId (h : ids.Pairwise (· < ·)) (cs : List Commit) (x : String) :
    (cs.foldl (fun ids c => toggleId c.changeId ids) ids).contains x =
      if Odd (occurrences x cs) then !ids.contains x else ids.contains x := by
  induction cs generalizing ids with
  | nil => simp [occurrences]
  | cons c cs ih =>
      rw [List.foldl_cons, ih (pairwise_toggleId h _), contains_toggleId h]
      by_cases hc : c.changeId = x
      · have hodd : Odd (occurrences x (c :: cs)) ↔ ¬Odd (occurrences x cs) := by
          unfold occurrences
          rw [List.countP_cons_of_pos (by simpa using hc), Nat.odd_add_one]
        by_cases hrest : Odd (occurrences x cs) <;> simp [hodd, hrest, hc]
      · have hsame : occurrences x (c :: cs) = occurrences x cs :=
          List.countP_cons_of_neg (by simpa using hc)
        rw [hsame, if_neg (Ne.symm hc)]

theorem contains_toggleAll (h : s.Ascending) (cs : List Commit) (c : Commit) :
    (s.toggleAll cs).contains c =
      if Odd (occurrences c.changeId cs) then !s.contains c else s.contains c :=
  contains_foldl_toggleId h cs c.changeId

end CheckedSet

/-! ## Ranges of rows -/

namespace RevisionList

variable {v : RevisionList} {id : String} {a b lo hi k : Nat} {c : Commit} {row : Row}

def changeIds (v : RevisionList) : List String :=
  v.rows.map fun row => row.commit.changeId

/-- The rows from `lo` to `hi` change sides, and no other row does. -/
def Flips (v w : RevisionList) (lo hi : Nat) : Prop :=
  ∀ k row, v.rows[k]? = some row → w.checked.contains row.commit =
    if lo ≤ k ∧ k ≤ hi then !v.checked.contains row.commit else v.checked.contains row.commit

theorem isSome_indexOf?_iff (v : RevisionList) (id : String) :
    (v.indexOf? id).isSome = true ↔ id ∈ v.changeIds := by
  simp [indexOf?, changeIds]

theorem toggleRange_of_indices {first last : String} (hfirst : v.indexOf? first = some a)
    (hlast : v.indexOf? last = some b) :
    v.toggleRange first last =
      ({ v with checked := v.checked.toggleAll (v.commitsBetween (min a b) (max a b)) }, true) := by
  simp [toggleRange, hfirst, hlast]

theorem toggleRange_of_absent {first last : String}
    (habsent : first ∉ v.changeIds ∨ last ∉ v.changeIds) :
    v.toggleRange first last = (v, false) := by
  rw [← isSome_indexOf?_iff, ← isSome_indexOf?_iff] at habsent
  unfold toggleRange
  split
  · next hfirst hlast => simp [hfirst, hlast] at habsent
  · rfl

theorem toggleRange_cases (v : RevisionList) (first last : String) :
    (∃ a b, v.indexOf? first = some a ∧ v.indexOf? last = some b) ∨
      first ∉ v.changeIds ∨ last ∉ v.changeIds := by
  rw [← isSome_indexOf?_iff, ← isSome_indexOf?_iff]
  cases v.indexOf? first <;> cases v.indexOf? last <;> simp

theorem toggleRange_comm (v : RevisionList) (first last : String) :
    v.toggleRange last first = v.toggleRange first last := by
  rcases v.toggleRange_cases first last with ⟨a, b, hfirst, hlast⟩ | habsent
  · rw [toggleRange_of_indices hfirst hlast, toggleRange_of_indices hlast hfirst, Nat.min_comm,
      Nat.max_comm]
  · rw [toggleRange_of_absent habsent, toggleRange_of_absent habsent.symm]

theorem toggleRange_true_iff (v : RevisionList) (first last : String) :
    (v.toggleRange first last).2 = true ↔ first ∈ v.changeIds ∧ last ∈ v.changeIds := by
  rcases v.toggleRange_cases first last with ⟨a, b, hfirst, hlast⟩ | habsent
  · rw [toggleRange_of_indices hfirst hlast, ← isSome_indexOf?_iff, ← isSome_indexOf?_iff, hfirst,
      hlast]
    simp
  · rw [toggleRange_of_absent habsent]
    exact iff_of_false Bool.false_ne_true fun hthere => habsent.elim (· hthere.1) (· hthere.2)

theorem toggleRange_of_false {first last : String} (h : (v.toggleRange first last).2 = false) :
    (v.toggleRange first last).1 = v := by
  rcases v.toggleRange_cases first last with ⟨a, b, hfirst, hlast⟩ | habsent
  · rw [toggleRange_of_indices hfirst hlast] at h
    contradiction
  · rw [toggleRange_of_absent habsent]

/-! ## Marks in a run -/

section

variable {w : RevisionList}

theorem TakesIn.checked_eq (h : v.TakesIn w) : w.checked = v.checked := by
  cases h with
  | nothing => rfl
  | ending => rfl
  | @batch s t batch stream receive =>
      have hadded (u : RevisionList) : (u.addRows batch.rows).checked = u.checked := by
        unfold addRows
        split <;> rfl
      have hselected (u : RevisionList) : u.selectPending.checked = u.checked := by
        unfold selectPending
        split <;> rfl
      simp only [applyBatch]
      split
      · exact (hselected _).trans (hadded _)
      · exact (hselected _).trans (hadded _)

theorem ascending_toggleRange (h : v.checked.Ascending) (first last : String) :
    (v.toggleRange first last).1.checked.Ascending := by
  rcases v.toggleRange_cases first last with ⟨a, b, hfirst, hlast⟩ | habsent
  · rw [toggleRange_of_indices hfirst hlast]
    exact h.toggleAll _
  · rw [toggleRange_of_absent habsent]
    exact h

theorem ascending_select (h : v.checked.Ascending) (index : Nat) :
    (v.select index).1.checked.Ascending := by
  obtain ⟨cursor, heq, -⟩ := v.select_eq index
  rw [heq]
  exact h

theorem ascending_perform (h : v.checked.Ascending) {action : Action}
    (haction : ∀ checked, action = .check checked → checked.Ascending) :
    (v.perform action).checked.Ascending := by
  have htakes (u x : RevisionList) (hu : u.checked.Ascending) (hx : u.TakesIn x) :
      x.checked.Ascending := hx.checked_eq ▸ hu
  cases action with
  | produce => exact h
  | load => exact h
  | turn blocking =>
      exact turn_keeps (P := fun u => u.checked.Ascending) (fun _ hu => hu) htakes h blocking
  | pump blocking =>
      exact pump_keeps (P := fun u => u.checked.Ascending) (fun _ hu => hu) htakes h blocking
  | requestMore =>
      obtain ⟨stream, awaiting, heq, -⟩ := v.requestMore_eq
      simp only [perform, heq]
      exact h
  | select index => exact ascending_select h index
  | moveCursor delta => exact ascending_select h _
  | selectFirst => exact ascending_select h _
  | selectLast => exact ascending_select h _
  | scrollBy => exact h
  | toggleSelected =>
      simp only [perform, toggleSelected]
      cases v.selected with
      | none => exact h
      | some c => exact h.toggle c
  | toggleRange first last => exact ascending_toggleRange h first last
  | check checked => exact haction checked rfl
  | draw area theme operation follow targets =>
      obtain ⟨viewport, heq⟩ := v.draw_eq area theme operation follow targets
      simp only [perform, heq]
      exact h

theorem ascending_performAll (h : v.checked.Ascending) {actions : List Action}
    (hactions : ∀ checked, .check checked ∈ actions → checked.Ascending) :
    (v.performAll actions).checked.Ascending := by
  induction actions generalizing v with
  | nil => exact h
  | cons action actions ih =>
      have haction : (v.perform action).checked.Ascending :=
        ascending_perform h fun checked heq => hactions checked (heq ▸ List.mem_cons_self)
      exact ih haction fun checked hmem => hactions checked (List.mem_cons_of_mem _ hmem)

end

/-! ## Ids that stand once -/

theorem changeIds_commitsBetween (v : RevisionList) (lo hi : Nat) :
    (v.commitsBetween lo hi).map Commit.changeId = (v.changeIds.take (hi + 1)).drop lo := by
  rw [commitsBetween, changeIds, List.map_map, List.map_drop, List.map_take]
  rfl

theorem occurrences_commitsBetween (v : RevisionList) (lo hi : Nat) (id : String) :
    CheckedSet.occurrences id (v.commitsBetween lo hi) =
      ((v.changeIds.take (hi + 1)).drop lo).count id := by
  rw [← changeIds_commitsBetween, List.count, List.countP_map]
  rfl

theorem mem_take_drop_iff {ids : List String} (hids : ids.Nodup) (hk : ids[k]? = some id) :
    id ∈ (ids.take (hi + 1)).drop lo ↔ lo ≤ k ∧ k ≤ hi := by
  obtain ⟨hlt, rfl⟩ := List.getElem?_eq_some_iff.mp hk
  constructor
  · intro hmem
    obtain ⟨j, hj, heq⟩ := List.mem_iff_getElem.mp hmem
    rw [List.getElem_drop, List.getElem_take] at heq
    rw [List.length_drop, List.length_take] at hj
    have hsame : lo + j = k := (List.Nodup.getElem_inj_iff hids).mp heq
    omega
  · rintro ⟨hle, hge⟩
    refine List.mem_iff_getElem.mpr ⟨k - lo, ?_, ?_⟩
    · rw [List.length_drop, List.length_take]
      omega
    · rw [List.getElem_drop, List.getElem_take]
      congr 1
      omega

theorem occurrences_of_nodup (hids : v.changeIds.Nodup) (hrow : v.rows[k]? = some row) :
    CheckedSet.occurrences row.commit.changeId (v.commitsBetween lo hi) =
      if lo ≤ k ∧ k ≤ hi then 1 else 0 := by
  have hk : v.changeIds[k]? = some row.commit.changeId := by simp [changeIds, hrow]
  have hrange : ((v.changeIds.take (hi + 1)).drop lo).Nodup :=
    hids.sublist ((List.drop_sublist ..).trans (List.take_sublist ..))
  rw [occurrences_commitsBetween, hrange.count]
  simp only [mem_take_drop_iff hids hk]

end RevisionList

/-- Toggling a range does the same in both directions, and nothing unless both ids are there. It
changes the marks only. Since these are kept by id, a row whose id stands once in the range changes
sides, be the row in the range or not, and one whose id does not stand there stays. So just the rows
of the range change sides when no id stands twice. -/
theorem toggleRange_flips {v : RevisionList} (hchecked : v.checked.Ascending)
    (first last : String) :
    let w := (v.toggleRange first last).1
    v.toggleRange last first = v.toggleRange first last ∧
      ((v.toggleRange first last).2 = true ↔ first ∈ v.changeIds ∧ last ∈ v.changeIds) ∧
      ((v.toggleRange first last).2 = false → w = v) ∧
      ∀ a b, v.indexOf? first = some a → v.indexOf? last = some b →
        let stands (id : String) := CheckedSet.occurrences id (v.commitsBetween (min a b) (max a b))
        w = { v with checked := w.checked } ∧ w.checked.Ascending ∧
        (∀ c, stands c.changeId = 1 → w.checked.contains c = !v.checked.contains c) ∧
        (∀ c, stands c.changeId = 0 → w.checked.contains c = v.checked.contains c) ∧
        (v.changeIds.Nodup → v.Flips w (min a b) (max a b)) := by
  intro w
  refine ⟨v.toggleRange_comm first last, v.toggleRange_true_iff first last,
    RevisionList.toggleRange_of_false, fun a b hfirst hlast => ?_⟩
  intro stands
  have hw : w = { v with checked := v.checked.toggleAll (v.commitsBetween (min a b) (max a b)) } :=
    congrArg Prod.fst (RevisionList.toggleRange_of_indices hfirst hlast)
  have hmarks (c : Commit) : w.checked.contains c =
      if Odd (stands c.changeId) then !v.checked.contains c else v.checked.contains c := by
    rw [hw]
    exact CheckedSet.contains_toggleAll hchecked _ c
  refine ⟨by rw [hw], ?_, fun c hc => ?_, fun c hc => ?_, fun hids k row hrow => ?_⟩
  · rw [hw]
    exact hchecked.toggleAll _
  · rw [hmarks, hc, if_pos odd_one]
  · rw [hmarks, hc, if_neg (by decide)]
  · have hstands : stands row.commit.changeId = if min a b ≤ k ∧ k ≤ max a b then 1 else 0 :=
      RevisionList.occurrences_of_nodup hids hrow
    rw [hmarks, hstands]
    split <;> simp

theorem toggleRange_flips_three_rows :
    let v := { (RevisionList.initial 0) with
      rows := rowsOf [rowLine "k" " x", rowLine "m" " x", rowLine "n" " x"]
      checked := CheckedSet.empty.toggle (.ofChangeId "m") }
    let w := (v.toggleRange "n" "m").1
    v.checked.Ascending ∧ v.indexOf? "n" = some 2 ∧ v.indexOf? "m" = some 1 ∧ v.changeIds.Nodup ∧
      v.Flips w 1 2 ∧ w.checked.ids = ["n"] := by
  intro v w
  have hchecked : v.checked.Ascending := CheckedSet.ascending_empty.toggle _
  obtain ⟨-, -, -, hrange⟩ := toggleRange_flips hchecked "n" "m"
  have hfirst : v.indexOf? "n" = some 2 := by decide +kernel
  have hlast : v.indexOf? "m" = some 1 := by decide +kernel
  have hids : v.changeIds.Nodup := by decide +kernel
  obtain ⟨-, -, -, -, hflips⟩ := hrange 2 1 hfirst hlast
  exact ⟨hchecked, hfirst, hlast, hids, hflips hids, by decide +kernel⟩

/-! Two commits that share a change id, one of them between two commits with ids of their own. -/

def straddlingLog : Source :=
  [.bytes (Text.Utf8.bytes "* \x1B[1mm\x1B[m x\n"),
    .bytes (Text.Utf8.bytes "* \x1B[1mk\x1B[m\x1B[31m??\x1B[m \x1B[32mc1\x1B[m\n"),
    .bytes (Text.Utf8.bytes "* \x1B[1mn\x1B[m x\n"),
    .bytes (Text.Utf8.bytes "* \x1B[1mk\x1B[m\x1B[31m??\x1B[m \x1B[32mc2\x1B[m\n")]

theorem transcript_straddlingLog :
    straddlingLog.transcript =
      ⟨[rowLine "m" " x", divergentLine "c1", rowLine "n" " x", divergentLine "c2"], none⟩ := by
  rw [Source.transcript_eq_ofChunks, Source.chunks_eq]
  decide +kernel

/-- The last row is not in the range, but it shares its id with a row that is. -/
theorem toggleRange_flips_row_outside :
    let v := (RevisionList.initial 50).performAll [.load straddlingLog none, .pump true]
    let w := v.toggleRange "m" "n"
    v.changeIds = ["m", "k??", "n", "k??"] ∧ v.checked.ids = [] ∧ v.indexOf? "m" = some 0 ∧
      v.indexOf? "n" = some 2 ∧ w.2 = true ∧ w.1.checked.ids = ["k??", "m", "n"] ∧
      ¬ v.Flips w.1 0 2 := by
  intro v w
  have hfacts : v.changeIds = ["m", "k??", "n", "k??"] ∧ v.checked.ids = [] ∧
      v.indexOf? "m" = some 0 ∧ v.indexOf? "n" = some 2 ∧ w.2 = true ∧
      w.1.checked.ids = ["k??", "m", "n"] := by
    simp only [w, v, RevisionList.performAll, List.foldl, RevisionList.perform,
      RevisionList.startLoad, Stream.start, transcript_straddlingLog]
    decide +kernel
  obtain ⟨hids, hbefore, hfirst, hlast, htrue, hafter⟩ := hfacts
  refine ⟨hids, hbefore, hfirst, hlast, htrue, hafter, fun hflips => ?_⟩
  have hid : (v.rows.map fun row => row.commit.changeId)[3]? = some "k??" :=
    congrArg (·[3]?) hids
  rw [List.getElem?_map] at hid
  obtain ⟨row, hrow, hchangeId⟩ := Option.map_eq_some_iff.mp hid
  have hstays := hflips 3 row hrow
  simp [CheckedSet.contains, hbefore, hafter, hchangeId] at hstays

end RevisionGraph
