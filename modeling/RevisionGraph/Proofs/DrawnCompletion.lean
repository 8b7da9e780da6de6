import RevisionGraph.Proofs.Editing
import RevisionGraph.Proofs.Suggestions

/-!
# The completion as it is drawn

Blanks become hyphens in two ways: one by one where the text is drawn, and word by word in the name
that is taken. The completion goes on the name but is drawn behind the text, so the two read alike
only where the text has single blanks between words and none at its ends.
-/

namespace RevisionGraph

namespace Text

/-- The text with each blank as a hyphen. -/
def hyphened (cs : List Char) : List Char :=
  cs.map fun c => if isBlank c then '-' else c

structure IsSpacedOnce (cs : List Char) : Prop where
  head : ∀ c ∈ cs.head?, isBlank c = false
  last : ∀ c ∈ cs.getLast?, isBlank c = false
  inner : cs.IsChain fun c d => isBlank c = false ∨ isBlank d = false

theorem hyphened_eq_intercalate (cs : List Char) :
    hyphened cs = List.intercalate ['-'] (cs.splitOnP isBlank) := by
  induction cs with
  | nil => rfl
  | cons c rest ih =>
      obtain ⟨first, others, hsplit⟩ := List.exists_cons_of_ne_nil (List.splitOnP_ne_nil isBlank rest)
      rw [List.splitOnP_cons_eq_if_modifyHead, hyphened, List.map_cons, ← hyphened, ih, hsplit]
      split
      · rw [List.intercalate_cons_cons]
        rfl
      · rw [List.modifyHead_cons]
        cases others <;> simp [List.intercalate_cons_cons]

section

variable {c : Char} {cs first : List Char} {others : List (List Char)}

theorem first_ne_nil_iff (h : (c :: cs).splitOnP isBlank = first :: others) :
    first ≠ [] ↔ isBlank c = false := by
  rw [List.splitOnP_cons_eq_if_modifyHead] at h
  split at h
  · next hblank =>
      obtain ⟨rfl, -⟩ := List.cons.inj h
      simp [hblank]
  · next hblank =>
      obtain ⟨word, rest, hsplit⟩ := List.exists_cons_of_ne_nil (List.splitOnP_ne_nil isBlank cs)
      rw [hsplit, List.modifyHead_cons] at h
      obtain ⟨rfl, -⟩ := List.cons.inj h
      simp [hblank]

theorem others_ne_nil_iff (h : cs.splitOnP isBlank = first :: others) :
    (∀ piece ∈ others, piece ≠ []) ↔
      (∀ c ∈ cs.getLast?, isBlank c = false) ∧
        cs.IsChain fun c d => isBlank c = false ∨ isBlank d = false := by
  induction cs generalizing first others with
  | nil =>
      obtain ⟨-, rfl⟩ := List.cons.inj h
      simp
  | cons c rest ih =>
      obtain ⟨word, pieces, hsplit⟩ := List.exists_cons_of_ne_nil (List.splitOnP_ne_nil isBlank rest)
      rw [List.splitOnP_cons_eq_if_modifyHead, hsplit, List.modifyHead_cons] at h
      cases rest with
      | nil =>
          obtain ⟨rfl, rfl⟩ := List.cons.inj hsplit
          split at h
          · next hblank =>
              obtain ⟨-, rfl⟩ := List.cons.inj h
              simp [hblank]
          · next hblank =>
              obtain ⟨-, rfl⟩ := List.cons.inj h
              simp [hblank]
      | cons d rest =>
          have hword := first_ne_nil_iff hsplit
          rw [List.getLast?_cons_cons, List.isChain_cons_cons]
          split at h
          · next hblank =>
              obtain ⟨-, rfl⟩ := List.cons.inj h
              rw [List.forall_mem_cons, hword, ih hsplit]
              simp [hblank, and_left_comm]
          · next hblank =>
              obtain ⟨-, rfl⟩ := List.cons.inj h
              rw [ih hsplit]
              simp [hblank]

theorem isSpacedOnce_iff (hne : cs ≠ []) :
    IsSpacedOnce cs ↔ ∀ piece ∈ cs.splitOnP isBlank, piece ≠ [] := by
  obtain ⟨c, rest, rfl⟩ := List.exists_cons_of_ne_nil hne
  obtain ⟨first, others, hsplit⟩ :=
    List.exists_cons_of_ne_nil (List.splitOnP_ne_nil isBlank (c :: rest))
  have hothers := others_ne_nil_iff hsplit
  rw [hsplit, List.forall_mem_cons, first_ne_nil_iff hsplit, hothers]
  constructor
  · rintro ⟨hhead, hlast, hinner⟩
    exact ⟨hhead c rfl, hlast, hinner⟩
  · rintro ⟨hhead, hlast, hinner⟩
    exact ⟨by simpa using hhead, hlast, hinner⟩

end

theorem span_filter_eq_iff {pieces : List (List Char)} :
    span (pieces.filter fun w => !w.isEmpty) = span pieces ↔ ∀ piece ∈ pieces, piece ≠ [] := by
  induction pieces with
  | nil => simp
  | cons first rest ih =>
      rw [List.forall_mem_cons, ← ih]
      cases first with
      | nil =>
          have hle := span_filter_le (fun w => !w.isEmpty) rest
          have hcons : span ([] :: rest) = span rest + 1 := Nat.add_comm _ _
          rw [List.filter_cons_of_neg (by simp), hcons]
          simp only [ne_eq, not_true_eq_false, false_and, iff_false]
          omega
      | cons c word =>
          rw [List.filter_cons_of_pos (by simp)]
          simp [span]

end Text

namespace NameInput

theorem hyphened_eq_normalize_iff {text : List Char} (hwords : Text.words text ≠ []) :
    Text.hyphened text = normalize text ↔ Text.IsSpacedOnce text := by
  have hne : text ≠ [] := by
    rintro rfl
    exact hwords rfl
  rw [Text.isSpacedOnce_iff hne, ← Text.span_filter_eq_iff, ← Text.words, Text.span_splitOnP]
  constructor
  · intro h
    have hlength := congrArg List.length h
    rw [Text.hyphened, List.length_map, normalize, Text.length_intercalate] at hlength
    obtain ⟨word, others, hsplit⟩ := List.exists_cons_of_ne_nil hwords
    have hpos : 0 < Text.span (Text.words text) := by
      simp [hsplit, Text.span]
    omega
  · intro h
    rw [← Text.span_splitOnP, Text.words, Text.span_filter_eq_iff] at h
    rw [Text.hyphened_eq_intercalate, normalize, Text.words, List.filter_eq_self.mpr]
    intro piece hpiece
    simp [h piece hpiece]

theorem words_ne_nil {n : NameInput} (h : n.name ≠ "") : Text.words n.value ≠ [] := by
  intro hnone
  rw [name, normalize, hnone] at h
  exact h rfl

theorem join_view {n : NameInput} {rest : String} (h : n.completion = some rest) :
    Decoration.join n.view = String.ofList (Text.hyphened n.value) ++ rest := by
  simp [view, h, Decoration.join, Decoration.plain, Decoration.dimmed, Text.hyphened]

theorem accepted_value {n : NameInput} {best : String} (h : n.ranked.head? = some best)
    (hlimit : best.length ≤ limit) : n.accept.1.value = best.toList := by
  rw [accept, h]
  exact List.take_of_length_le (by rwa [String.length_toList])

/-- What is drawn while a name is entered is what Tab takes, if the blanks of the text are single and
between words, and only then. -/
theorem drawn_eq_accepted_iff {n : NameInput} (hcompletion : n.completion.isSome)
    (hlimit : ∀ s ∈ n.suggestions, s.length ≤ 120) :
    Decoration.join n.view = String.ofList n.accept.1.value ↔ Text.IsSpacedOnce n.value := by
  obtain ⟨rest, hrest⟩ := Option.isSome_iff_exists.mp hcompletion
  have hplace := completionBy_eq_some_iff.mp (n.completion_eq_completionBy.symm.trans hrest)
  obtain ⟨⟨hname, -⟩, -, hbest⟩ := hplace
  have hshort : (n.name ++ rest).length ≤ limit := by
    rw [rankedBy_of_name hname] at hbest
    exact hlimit _ (Ranking.mem_of_mem_rankWith _ _ _ (List.mem_of_mem_head? hbest))
  rw [join_view hrest, accepted_value hbest hshort, String.ofList_toList, String.append_left_inj, name,
    String.ofList_inj]
  exact hyphened_eq_normalize_iff (words_ne_nil hname)

theorem drawn_eq_accepted_iff_of_two_words :
    let n : NameInput := ⟨"my f".toList, 4, ["my-feature"]⟩
    n.completion.isSome ∧ (∀ s ∈ n.suggestions, s.length ≤ 120) ∧ Text.IsSpacedOnce n.value ∧
      Decoration.join n.view = String.ofList n.accept.1.value := by
  intro n
  have hcompletion : n.completion.isSome := by decide +kernel
  have hlimit : ∀ s ∈ n.suggestions, s.length ≤ 120 := by decide +kernel
  have hvalue : n.value = ['m', 'y', ' ', 'f'] := by decide +kernel
  have hspaced : Text.IsSpacedOnce n.value := by
    rw [hvalue]
    refine ⟨?_, ?_, by decide +kernel⟩
    · intro c hc
      obtain rfl := Option.some.inj hc
      decide
    · intro c hc
      obtain rfl := Option.some.inj hc
      decide
  exact ⟨hcompletion, hlimit, hspaced, (drawn_eq_accepted_iff hcompletion hlimit).mpr hspaced⟩

/-- Two blanks between the words are drawn as two hyphens, where the name has one. -/
theorem drawn_ne_accepted_of_double_blank :
    let typed := ['m', 'y', ' ', ' ', 'f'].map fun c => Event.key (.plain (.char c))
    let n := empty.performAll (.suggest ["my-feature"] :: typed)
    (∀ s ∈ n.suggestions, s.length ≤ 120 ∧ s.toList.all (!Text.isBlank ·)) ∧
      n.completion = some "eature" ∧ Decoration.join n.view = "my--feature" ∧
        String.ofList n.accept.1.value = "my-feature" ∧
          Decoration.join n.view ≠ String.ofList n.accept.1.value := by
  decide +kernel

end NameInput

end RevisionGraph
