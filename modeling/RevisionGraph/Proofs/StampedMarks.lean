import Mathlib.Data.List.DropRight
import RevisionGraph.Proofs.Toggling

/-!
# Marks after any calls

What is marked after any calls depends on parities alone: an id is marked if it has been toggled an
odd number of times since the marks were last cleared, be it one by one or many at once.

The stamp goes up with every call except for a clear that finds nothing marked, which changes
nothing. So as long as it has not gone all the way round, equal stamps mean equal marks
(`eq_of_stamp_eq`), and not longer (`stamp_comes_round`).
-/

namespace RevisionGraph.CheckedSet

inductive Action where
  | toggle (c : Commit)
  | toggleAll (cs : List Commit)
  | clear

namespace Action

def toggled : Action → List Commit
  | .toggle c => [c]
  | .toggleAll cs => cs
  | .clear => []

def isToggle : Action → Bool
  | .toggle _ | .toggleAll _ => true
  | .clear => false

end Action

def perform (s : CheckedSet) : Action → CheckedSet
  | .toggle c => s.toggle c
  | .toggleAll cs => s.toggleAll cs
  | .clear => s.clear

def performAll (s : CheckedSet) (actions : List Action) : CheckedSet :=
  actions.foldl perform s

def toggledSinceClear (actions : List Action) : List Commit :=
  (actions.rtakeWhile Action.isToggle).flatMap Action.toggled

/-- How often an id has been toggled since the marks were last cleared. -/
def togglesSinceClear (id : String) (actions : List Action) : Nat :=
  occurrences id (toggledSinceClear actions)

variable {s t u : CheckedSet} {m n : Nat}

theorem performAll_append (s : CheckedSet) (before after : List Action) :
    s.performAll (before ++ after) = (s.performAll before).performAll after :=
  List.foldl_append

/-! ## Parities -/

theorem ids_perform_of_isToggle (s : CheckedSet) {action : Action}
    (h : action.isToggle = true) : (s.perform action).ids =
      action.toggled.foldl (fun ids c => toggleId c.changeId ids) s.ids := by
  cases action with
  | toggle c => rfl
  | toggleAll cs => rfl
  | clear => contradiction

theorem ids_perform_of_not_isToggle (s : CheckedSet) {action : Action}
    (h : ¬action.isToggle = true) : (s.perform action).ids = [] := by
  cases action with
  | toggle c => exact absurd rfl h
  | toggleAll cs => exact absurd rfl h
  | clear =>
      simp only [perform, clear]
      split
      · next hempty => exact List.isEmpty_iff.mp hempty
      · rfl

theorem ids_performAll (actions : List Action) :
    (empty.performAll actions).ids =
      (toggledSinceClear actions).foldl (fun ids c => toggleId c.changeId ids) [] := by
  unfold toggledSinceClear
  -- The last clear is looked for from the end of the actions, so they are taken from there.
  induction actions using List.reverseRecOn with
  | nil => rfl
  | append_singleton actions action ih =>
      rw [performAll_append]
      by_cases htoggle : action.isToggle = true
      · rw [List.rtakeWhile_concat_pos _ _ _ htoggle, List.flatMap_append,
          List.flatMap_singleton, List.foldl_append, ← ih]
        exact ids_perform_of_isToggle _ htoggle
      · rw [List.rtakeWhile_concat_neg _ _ _ htoggle]
        exact ids_perform_of_not_isToggle _ htoggle

theorem Ascending.performAll (h : s.Ascending) (actions : List Action) :
    (s.performAll actions).Ascending := by
  refine List.foldlRecOn actions _ h fun t ht action _ => ?_
  cases action with
  | toggle c => exact ht.toggle c
  | toggleAll cs => exact ht.toggleAll cs
  | clear => exact ht.clear

theorem mem_performAll_iff (id : String) (actions : List Action) :
    id ∈ (empty.performAll actions).ids ↔ Odd (togglesSinceClear id actions) := by
  have hparity := contains_foldl_toggleId .nil (toggledSinceClear actions) id
  rw [← List.contains_iff_mem, ids_performAll, hparity, togglesSinceClear]
  split
  · next hodd => exact iff_of_true rfl hodd
  · next heven => exact iff_of_false Bool.false_ne_true heven

/-! ## Stamps -/

/-- The stamp has gone up `n` times on the way, and the marks are the same if it has not. -/
structure Bumps (s t : CheckedSet) (n : Nat) : Prop where
  stamp_eq : t.stamp = s.stamp + UInt64.ofNat n
  eq_of_zero : n = 0 → t = s

theorem Bumps.refl (s : CheckedSet) : s.Bumps s 0 :=
  ⟨(UInt64.add_zero s.stamp).symm, fun _ => rfl⟩

theorem Bumps.once (h : t.stamp = s.stamp + 1) : s.Bumps t 1 :=
  ⟨h, fun hzero => absurd hzero Nat.one_ne_zero⟩

theorem Bumps.trans (hst : s.Bumps t m) (htu : t.Bumps u n) : s.Bumps u (m + n) := by
  constructor
  · rw [htu.stamp_eq, hst.stamp_eq, UInt64.ofNat_add, UInt64.add_assoc]
  · intro hzero
    obtain ⟨hm, hn⟩ := Nat.add_eq_zero_iff.mp hzero
    exact (htu.eq_of_zero hn).trans (hst.eq_of_zero hm)

theorem bumps_perform (s : CheckedSet) (action : Action) :
    ∃ n ≤ 1, s.Bumps (s.perform action) n := by
  cases action with
  | toggle c => exact ⟨1, Nat.le_refl 1, .once rfl⟩
  | toggleAll cs => exact ⟨1, Nat.le_refl 1, .once rfl⟩
  | clear =>
      simp only [perform, clear]
      split
      · exact ⟨0, Nat.zero_le 1, .refl s⟩
      · exact ⟨1, Nat.le_refl 1, .once rfl⟩

theorem bumps_performAll (s : CheckedSet) (actions : List Action) :
    ∃ n ≤ actions.length, s.Bumps (s.performAll actions) n := by
  induction actions generalizing s with
  | nil => exact ⟨0, Nat.le_refl 0, .refl s⟩
  | cons action actions ih =>
      obtain ⟨m, hm, hfirst⟩ := s.bumps_perform action
      obtain ⟨n, hn, hrest⟩ := ih (s.perform action)
      refine ⟨m + n, ?_, hfirst.trans hrest⟩
      rw [List.length_cons]
      omega

theorem eq_of_stamp_eq {actions : List Action} (hlength : actions.length < 2 ^ 64)
    (hstamp : (s.performAll actions).stamp = s.stamp) : s.performAll actions = s := by
  obtain ⟨n, hn, hbumps⟩ := s.bumps_performAll actions
  apply hbumps.eq_of_zero
  have hnothing : UInt64.ofNat n = 0 := by
    have hstay := hbumps.stamp_eq.symm.trans hstamp
    simpa using hstay
  -- As a number `n` is below the length, so it has not been reduced.
  have hzero := congrArg UInt64.toNat hnothing
  rw [UInt64.toNat_ofNat', Nat.mod_eq_of_lt (by omega)] at hzero
  exact hzero

theorem performAll_replicate_toggleAll_nil (s : CheckedSet) (n : Nat) :
    s.performAll (List.replicate n (.toggleAll [])) = ⟨s.stamp + UInt64.ofNat n, s.ids⟩ := by
  induction n generalizing s with
  | zero => exact congrArg (mk · s.ids) (UInt64.add_zero s.stamp).symm
  | succ n ih =>
      rw [List.replicate_succ, performAll, List.foldl_cons, ← performAll, ih, Nat.add_comm n 1,
        UInt64.ofNat_add, ← UInt64.add_assoc]
      rfl

theorem stamp_comes_round :
    ∃ actions : List Action, actions.length = 2 ^ 64 ∧
      (empty.performAll actions).stamp = empty.stamp ∧
      (empty.performAll actions).ids ≠ empty.ids := by
  obtain ⟨n, hn⟩ : ∃ n, n + 1 = 2 ^ 64 := ⟨2 ^ 64 - 1, rfl⟩
  have hrun : empty.performAll (.toggle (.ofChangeId "k") :: List.replicate n (.toggleAll [])) =
      ⟨1 + UInt64.ofNat n, ["k"]⟩ :=
    performAll_replicate_toggleAll_nil (empty.toggle (.ofChangeId "k")) n
  refine ⟨.toggle (.ofChangeId "k") :: List.replicate n (.toggleAll []), ?_, ?_, ?_⟩
  · rw [List.length_cons, List.length_replicate, hn]
  · rw [hrun]
    apply UInt64.toNat_inj.mp
    simp [UInt64.toNat_add, Nat.add_comm 1 n, hn, empty]
  · rw [hrun]
    simp [empty]

/-- After any calls just those ids are marked that have been toggled an odd number of times since
the marks were last cleared, and the stamp tells of every change: while fewer than `2 ^ 64` calls
follow, they leave the same marks whenever they leave the same stamp. -/
theorem marks_are_odd_toggles (actions : List Action) :
    let s := empty.performAll actions
    s.Ascending ∧ (∀ id, id ∈ s.ids ↔ Odd (togglesSinceClear id actions)) ∧
      ∀ more : List Action, more.length < 2 ^ 64 →
        let t := empty.performAll (actions ++ more)
        t.stamp = s.stamp → t.ids = s.ids := by
  intro s
  refine ⟨ascending_empty.performAll actions, (mem_performAll_iff · actions), ?_⟩
  intro more hlength t hstamp
  have ht : t = s.performAll more := performAll_append empty actions more
  rw [ht] at hstamp ⊢
  rw [eq_of_stamp_eq hlength hstamp]

theorem marks_are_odd_toggles_of_repeated_id :
    let a : Commit := .ofChangeId "a"
    let b : Commit := .ofChangeId "b"
    let actions : List Action := [.toggle b, .clear, .toggleAll [b, a, b], .toggle a]
    let s := empty.performAll actions
    let t := empty.performAll (actions ++ [.clear, .clear])
    togglesSinceClear "a" actions = 2 ∧ togglesSinceClear "b" actions = 2 ∧ "b" ∉ s.ids ∧
      s.stamp = 4 ∧ t.stamp = s.stamp ∧ t.ids = s.ids := by
  intro a b actions s t
  obtain ⟨-, hmarked, hstamped⟩ := marks_are_odd_toggles actions
  have hb : togglesSinceClear "b" actions = 2 := by decide +kernel
  have hstamp : t.stamp = s.stamp := by decide +kernel
  have habsent : "b" ∉ s.ids := by
    rw [hmarked, hb]
    decide
  exact ⟨by decide +kernel, hb, habsent, by decide +kernel, hstamp,
    hstamped [.clear, .clear] (by decide) hstamp⟩

end RevisionGraph.CheckedSet
