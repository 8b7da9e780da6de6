import Mathlib.Data.List.Basic
import RevisionGraph.Terminal.Unstyled
import RevisionGraph.Text.Blank

/-!
# Taking out renditions

A rendition at the front of a text is taken out whole (`unstyled_rendition_append`), and any other
character but an escape stays (`unstyled_cons`). No rendition goes past a character that cannot stand
in one, so a text can be cut at such characters before or after its renditions are taken out
(`splitOnP_unstyled`).
-/

namespace RevisionGraph

namespace Unstyled

/-- A control sequence that sets a rendition, with digits and semicolons as its parameters. -/
def IsRendition (sequence : List Char) : Prop :=
  ∃ parameters, sequence = '\x1B' :: '[' :: (parameters ++ ['m']) ∧
    ∀ c ∈ parameters, c.isDigit = true ∨ c = ';'

def EscapesSet (cs : List Char) : Prop :=
  ∀ before after, cs = before ++ '\x1B' :: after →
    ∃ sequence, IsRendition sequence ∧ sequence <+: '\x1B' :: after

/-- Made up of characters that are no escapes, and of renditions. -/
inductive Composed : List Char → Prop
  | nil : Composed []
  | char {c : Char} {cs : List Char} : c ≠ '\x1B' → Composed cs → Composed (c :: cs)
  | rendition {sequence cs : List Char} :
      IsRendition sequence → Composed cs → Composed (sequence ++ cs)

/-! ## Renditions -/

theorem isParameter_iff {c : Char} : isParameter c = true ↔ c.isDigit = true ∨ c = ';' := by
  simp [isParameter]

theorem isRendition_of_all (parameters : List Char) (h : parameters.all isParameter = true) :
    IsRendition ('\x1B' :: '[' :: (parameters ++ ['m'])) :=
  ⟨parameters, rfl, fun _ hc => isParameter_iff.mp (List.all_eq_true.mp h _ hc)⟩

theorem toNat_of_isParameter {c : Char} (h : isParameter c = true) :
    0x30 ≤ c.toNat ∧ c.toNat ≤ 0x3B := by
  rcases isParameter_iff.mp h with hdigit | rfl
  · simp only [Char.isDigit, ge_iff_le, Bool.and_eq_true, decide_eq_true_eq,
      UInt32.le_iff_toNat_le] at hdigit
    exact ⟨hdigit.1, Nat.le_trans hdigit.2 (by decide)⟩
  · decide

theorem isParameter_ne {c d : Char} (hc : isParameter c = true) (hd : isParameter d = false) :
    c ≠ d := by
  rintro rfl
  simp [hc] at hd

theorem run_parameters {parameters : List Char} (h : ∀ c ∈ parameters, isParameter c = true)
    (reversed cs : List Char) :
    State.run (.control reversed) (parameters ++ 'm' :: cs) = unstyled cs := by
  induction parameters generalizing reversed with
  | nil => simp [State.run, State.step, unstyled]
  | cons c parameters ih =>
      have hc := h c (by simp)
      have hm : c ≠ 'm' := isParameter_ne hc (by decide)
      have hrest := ih (fun d hd => h d (by simp [hd])) (c :: reversed)
      simp only [List.cons_append, State.run, State.step, if_neg hm, hc, if_true, List.nil_append]
      exact hrest

theorem unstyled_rendition_append {sequence : List Char} (h : IsRendition sequence)
    (cs : List Char) : unstyled (sequence ++ cs) = unstyled cs := by
  obtain ⟨parameters, rfl, hparameters⟩ := h
  have hrun := run_parameters (fun c hc => isParameter_iff.mpr (hparameters c hc)) [] cs
  simpa [unstyled, State.run, State.step, fresh] using hrun

@[simp] theorem unstyled_nil : unstyled [] = [] :=
  rfl

theorem unstyled_cons {c : Char} (h : c ≠ '\x1B') (cs : List Char) :
    unstyled (c :: cs) = c :: unstyled cs := by
  simp [unstyled, State.run, State.step, fresh, h]

/-! ## Texts in which every escape begins a rendition -/

theorem IsRendition.ne_nil {sequence : List Char} (h : IsRendition sequence) : sequence ≠ [] := by
  obtain ⟨parameters, rfl, -⟩ := h
  exact List.cons_ne_nil _ _

theorem IsRendition.eq_nil_of_escape {sequence before after : List Char} (h : IsRendition sequence)
    (heq : sequence = before ++ '\x1B' :: after) : before = [] := by
  obtain ⟨parameters, rfl, hparameters⟩ := h
  cases before with
  | nil => rfl
  | cons c before =>
      have htail : '[' :: (parameters ++ ['m']) = before ++ '\x1B' :: after := (List.cons.inj heq).2
      have hmem : '\x1B' ∈ '[' :: (parameters ++ ['m']) := by simp [htail]
      simp only [List.mem_cons, List.mem_append, List.not_mem_nil, or_false] at hmem
      rcases hmem with hbracket | hparameter | hm
      · exact absurd hbracket (by decide)
      · exact absurd (hparameters _ hparameter) (by decide)
      · exact absurd hm (by decide)

theorem EscapesSet.of_append {front cs : List Char} (h : EscapesSet (front ++ cs)) :
    EscapesSet cs := by
  rintro before after rfl
  exact h (front ++ before) after (List.append_assoc ..).symm

theorem EscapesSet.composed {cs : List Char} (h : EscapesSet cs) : Composed cs := by
  cases cs with
  | nil => exact .nil
  | cons c rest =>
      by_cases hc : c = '\x1B'
      · subst hc
        obtain ⟨sequence, hsequence, tail, htail⟩ := h [] rest rfl
        have hlt : tail.length < ('\x1B' :: rest).length := by
          have hpos := List.length_pos_iff.mpr hsequence.ne_nil
          rw [← htail, List.length_append]
          omega
        rw [← htail] at h ⊢
        exact .rendition hsequence h.of_append.composed
      · have happend : EscapesSet ([c] ++ rest) := h
        exact .char hc happend.of_append.composed
termination_by cs.length

theorem Composed.escapesSet {cs : List Char} (h : Composed cs) : EscapesSet cs := by
  induction h with
  | nil => exact fun before after heq => absurd heq (by simp)
  | @char c cs hc _ ih =>
      intro before after heq
      cases before with
      | nil => exact absurd (List.cons.inj heq).1 hc
      | cons d before => exact ih before after (List.cons.inj heq).2
  | @rendition sequence cs hsequence _ ih =>
      intro before after heq
      rcases List.append_eq_append_iff.mp heq with ⟨between, rfl, hcs⟩ | ⟨between, hseq, hcs⟩
      · exact ih between after hcs
      · cases between with
        | nil => exact ih [] after hcs.symm
        | cons d between =>
            obtain ⟨rfl, rfl⟩ := List.cons.inj hcs
            obtain rfl := hsequence.eq_nil_of_escape hseq
            exact ⟨sequence, hsequence, cs, by rw [hseq]; simp⟩

theorem composed_of_escape_notMem {cs : List Char} (h : '\x1B' ∉ cs) : Composed cs := by
  induction cs with
  | nil => exact .nil
  | cons c cs ih =>
      rw [List.mem_cons, not_or] at h
      exact .char (Ne.symm h.1) (ih h.2)

theorem escape_notMem_unstyled {cs : List Char} (h : Composed cs) : '\x1B' ∉ unstyled cs := by
  induction h with
  | nil => exact List.not_mem_nil
  | char hc _ ih =>
      rw [unstyled_cons hc, List.mem_cons, not_or]
      exact ⟨hc.symm, ih⟩
  | rendition hsequence _ ih =>
      rw [unstyled_rendition_append hsequence]
      exact ih

theorem unstyled_eq_self {cs : List Char} (h : '\x1B' ∉ cs) : unstyled cs = cs := by
  induction cs with
  | nil => rfl
  | cons c cs ih =>
      rw [List.mem_cons, not_or] at h
      rw [unstyled_cons (Ne.symm h.1), ih h.2]

/-! ## Characters outside of renditions -/

def IsOutside (c : Char) : Prop :=
  c ≠ '\x1B' ∧ c ≠ '[' ∧ c ≠ 'm' ∧ isParameter c = false

theorem isOutside_of_isBlank {c : Char} (h : Text.isBlank c = true) : IsOutside c := by
  refine ⟨?_, ?_, ?_, ?_⟩
  · rintro rfl
    exact absurd h (by decide)
  · rintro rfl
    exact absurd h (by decide)
  · rintro rfl
    exact absurd h (by decide)
  · rw [Bool.eq_false_iff]
    intro hparameter
    have hbounds := toNat_of_isParameter hparameter
    simp only [Text.isBlank, Bool.or_eq_true, Bool.and_eq_true, decide_eq_true_eq, beq_iff_eq] at h
    omega

theorem State.step_of_isOutside {c : Char} (h : IsOutside c) (s : State) :
    s.step c = (.text, s.held ++ [c]) := by
  obtain ⟨hescape, hbracket, hm, hparameter⟩ := h
  cases s <;> simp [State.step, release, fresh, State.held, hescape, hbracket, hm, hparameter]

theorem State.run_append_cons {c : Char} (h : IsOutside c) (s : State) (front back : List Char) :
    s.run (front ++ c :: back) = s.run front ++ c :: unstyled back := by
  induction front generalizing s with
  | nil => simp [State.run, State.step_of_isOutside h, unstyled]
  | cons d front ih => simp only [List.cons_append, State.run, ih, List.append_assoc]

theorem unstyled_append_cons {c : Char} (h : IsOutside c) (front back : List Char) :
    unstyled (front ++ c :: back) = unstyled front ++ c :: unstyled back :=
  State.run_append_cons h .text front back

theorem fresh_held (c : Char) : (fresh c).2 ++ (fresh c).1.held = [c] := by
  unfold fresh
  split
  · next hescape => simp [State.held, hescape]
  · rfl

theorem State.step_sublist (s : State) (c : Char) :
    ((s.step c).2 ++ (s.step c).1.held).Sublist (s.held ++ [c]) := by
  have hrelease (s : State) : (release s c).2 ++ (release s c).1.held = s.held ++ [c] := by
    simp [release, fresh_held]
  cases s with
  | text =>
      simp only [State.step]
      rw [fresh_held]
      exact List.Sublist.refl _
  | escape =>
      simp only [State.step]
      split
      · next hbracket => simp [State.held, hbracket]
      · rw [hrelease]
  | control reversed =>
      simp only [State.step]
      split
      · exact List.nil_sublist _
      · split
        · simp [State.held]
        · rw [hrelease]

theorem State.run_sublist (s : State) (cs : List Char) : (s.run cs).Sublist (s.held ++ cs) := by
  induction cs generalizing s with
  | nil => simp [State.run]
  | cons c cs ih =>
      have hstep := (s.step_sublist c).append_right cs
      rw [List.append_assoc, List.append_assoc, List.singleton_append] at hstep
      exact ((ih _).append_left _).trans hstep

theorem unstyled_sublist (cs : List Char) : (unstyled cs).Sublist cs :=
  State.run_sublist .text cs

theorem splitOnP_unstyled {p : Char → Bool} (hp : ∀ c, p c = true → IsOutside c) (cs : List Char) :
    (unstyled cs).splitOnP p = (cs.splitOnP p).map unstyled := by
  by_cases h : ∃ c ∈ cs, p c = true
  · obtain ⟨c, hmem, hc⟩ := h
    obtain ⟨front, back, rfl⟩ := List.append_of_mem hmem
    rw [unstyled_append_cons (hp c hc), List.splitOnP_append_cons _ _ hc,
      List.splitOnP_append_cons _ _ hc, List.map_append, splitOnP_unstyled hp front,
      splitOnP_unstyled hp back]
  · have hnone : ∀ c ∈ cs, p c = false := fun c hc =>
      Bool.eq_false_iff.mpr fun htrue => h ⟨c, hc, htrue⟩
    rw [List.splitOnP_eq_singleton hnone, List.splitOnP_eq_singleton, List.map_singleton]
    exact fun c hc => hnone c ((unstyled_sublist cs).subset hc)
termination_by cs.length

theorem subset_of_mem_splitOnP {p : Char → Bool} {cs piece : List Char}
    (h : piece ∈ cs.splitOnP p) : piece ⊆ cs := by
  by_cases hsep : ∃ c ∈ cs, p c = true
  · obtain ⟨c, hmem, hc⟩ := hsep
    obtain ⟨front, back, rfl⟩ := List.append_of_mem hmem
    rw [List.splitOnP_append_cons _ _ hc, List.mem_append] at h
    rcases h with hfront | hback
    · exact List.subset_append_of_subset_left _ (subset_of_mem_splitOnP hfront)
    · exact List.subset_append_of_subset_right _
        (List.subset_cons_of_subset _ (subset_of_mem_splitOnP hback))
  · have hnone : ∀ c ∈ cs, p c = false := fun c hc =>
      Bool.eq_false_iff.mpr fun htrue => hsep ⟨c, hc, htrue⟩
    rw [List.splitOnP_eq_singleton hnone, List.mem_singleton] at h
    exact h ▸ List.Subset.refl _
termination_by cs.length

theorem unstyled_subset_of_mem_splitOnP {p : Char → Bool} (hp : ∀ c, p c = true → IsOutside c)
    {cs piece : List Char} (h : piece ∈ cs.splitOnP p) : unstyled piece ⊆ unstyled cs := by
  have hmem : unstyled piece ∈ (unstyled cs).splitOnP p := by
    rw [splitOnP_unstyled hp]
    exact List.mem_map_of_mem h
  exact subset_of_mem_splitOnP hmem

end Unstyled

end RevisionGraph
