import RevisionGraph.Cli.Json

/-!
# The text of a dump

Strings are escaped when they are written, so the text of a value has line feeds between its parts
and no other control character, whatever its strings hold (`isClean_render`).
-/

namespace RevisionGraph

namespace JsonValue

/-- A text without control characters other than line feeds. -/
def IsClean (text : String) : Prop :=
  ∀ c ∈ text.toList, c = '\n' ∨ 0x20 ≤ c.toNat

instance (text : String) : Decidable (IsClean text) :=
  List.decidableBAll _ text.toList

theorem isClean_append {s t : String} : IsClean (s ++ t) ↔ IsClean s ∧ IsClean t := by
  rw [IsClean, String.toList_append]
  exact List.forall_mem_append

theorem isClean_newLine (level : Nat) : IsClean (newLine level) := by
  refine isClean_append.mpr ⟨by decide, fun c hc => ?_⟩
  rw [String.toList_ofList] at hc
  rw [List.eq_of_mem_replicate hc]
  exact .inr (by decide)

theorem isClean_number (n : Nat) : IsClean (toString n) := by
  intro c hc
  rw [Nat.toString_eq_repr, Nat.toList_repr] at hc
  have hdigit := Nat.isDigit_of_mem_toDigits (by decide) (by decide) hc
  have hlow : '0'.toNat ≤ c.toNat := (Char.isDigit_iff_toNat.mp hdigit).1
  exact .inr (Nat.le_trans (by decide) hlow)

/-! ## Strings -/

theorem le_toNat_hexDigit {n : Nat} (h : n < 16) : 0x20 ≤ (hexDigit n).toNat := by
  decide +revert

theorem le_toNat_of_mem_escape {c e : Char} (h : e ∈ escape c) : 0x20 ≤ e.toNat := by
  unfold escape at h
  split at h
  case h_8 =>
    split at h
    · have hhigh : 0x20 ≤ (hexDigit (c.toNat / 16)).toNat := le_toNat_hexDigit (by omega)
      have hlow : 0x20 ≤ (hexDigit (c.toNat % 16)).toNat := le_toNat_hexDigit (by omega)
      simp only [List.mem_cons, List.not_mem_nil, or_false] at h
      rcases h with rfl | rfl | rfl | rfl | rfl | rfl <;> first | assumption | decide
    · rw [List.mem_singleton.mp h]
      omega
  all_goals
    simp only [List.mem_cons, List.not_mem_nil, or_false] at h
    rcases h with rfl | rfl <;> decide

theorem isClean_quote (s : String) : IsClean (quote s) := by
  have hinside : IsClean (String.ofList (s.toList.flatMap escape)) := by
    intro e he
    rw [String.toList_ofList] at he
    obtain ⟨c, -, hmem⟩ := List.mem_flatMap.mp he
    exact .inr (le_toNat_of_mem_escape hmem)
  have hquote : IsClean "\"" := by decide
  exact isClean_append.mpr ⟨isClean_append.mpr ⟨hquote, hinside⟩, hquote⟩

/-! ## Values -/

mutual

theorem isClean_render (level : Nat) (value : JsonValue) : IsClean (render level value) := by
  cases value with
  | null =>
      rw [render]
      decide
  | bool b =>
      rw [render]
      cases b <;> decide
  | number n =>
      rw [render]
      exact isClean_number n
  | string s =>
      rw [render]
      exact isClean_quote s
  | array items =>
      cases items with
      | nil =>
          rw [render]
          decide
      | cons v rest =>
          rw [render]
          simp only [isClean_append, isClean_newLine, isClean_render (level + 1) v,
            isClean_renderItems (level + 1) rest]
          decide
  | object fields =>
      cases fields with
      | nil =>
          rw [render]
          decide
      | cons field rest =>
          rw [render]
          simp only [isClean_append, isClean_newLine, isClean_quote,
            isClean_render (level + 1) field.2, isClean_renderFields (level + 1) rest]
          decide

theorem isClean_renderItems (level : Nat) (items : List JsonValue) :
    IsClean (renderItems level items) := by
  cases items with
  | nil =>
      rw [renderItems]
      decide
  | cons v rest =>
      rw [renderItems]
      simp only [isClean_append, isClean_newLine, isClean_render level v,
        isClean_renderItems level rest]
      decide

theorem isClean_renderFields (level : Nat) (fields : List (String × JsonValue)) :
    IsClean (renderFields level fields) := by
  cases fields with
  | nil =>
      rw [renderFields]
      decide
  | cons field rest =>
      rw [renderFields]
      simp only [isClean_append, isClean_newLine, isClean_quote, isClean_render level field.2,
        isClean_renderFields level rest]
      decide

end

end JsonValue

theorem escape_notMem_dumpText (rows : List Row) : '\x1B' ∉ (dumpText rows).toList := by
  have hclean : JsonValue.IsClean (dumpText rows) :=
    JsonValue.isClean_append.mpr ⟨JsonValue.isClean_render 0 _, by decide⟩
  intro hmem
  rcases hclean _ hmem with hbreak | hlow
  · contradiction
  · exact absurd hlow (by decide)

end RevisionGraph
