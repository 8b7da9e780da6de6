import Mathlib.Algebra.Order.Ring.Unbundled.Rat
import Mathlib.Data.List.Sort
import Mathlib.Data.String.Basic
import RevisionGraph.Operation.NameInput

/-!
# The order of suggestions

Two sorted parts, one behind the other: what goes on the name, and what is like it. Both sort keys end
with the text itself, so no two texts share one, and each part is the only sorted list of its members.
Nothing here depends on how likeness is measured, so it is stated for any measure with values in a
linear order (`NameInput.rankedBy`).
-/

namespace RevisionGraph

variable {α : Type} [LinearOrder α]

namespace Ranking

def Extends (name suggestion : String) : Prop :=
  ∃ rest, rest ≠ "" ∧ suggestion = name ++ rest

theorem extends_of_toList {name suggestion : String} {rest : List Char}
    (h : name.toList ++ rest = suggestion.toList) : suggestion = name ++ String.ofList rest := by
  rw [← String.toList_inj, String.toList_append, String.toList_ofList, h]

theorem continues_iff {name suggestion : String} :
    continues name suggestion = true ↔ Extends name suggestion := by
  rw [continues, Bool.and_eq_true, List.isPrefixOf_iff_prefix, bne_iff_ne]
  constructor
  · rintro ⟨⟨rest, hrest⟩, hne⟩
    have heq := extends_of_toList hrest
    refine ⟨String.ofList rest, fun hempty => hne ?_, heq⟩
    rw [heq, hempty, String.append_empty]
  · rintro ⟨rest, hrest, rfl⟩
    refine ⟨⟨rest.toList, String.toList_append.symm⟩, fun heq => hrest ?_⟩
    simpa using heq

instance (name suggestion : String) : Decidable (Extends name suggestion) :=
  decidable_of_iff _ continues_iff

def remainder? (name best : String) : Option String := do
  let rest ← name.toList.isPrefixOf? best.toList
  if rest.isEmpty then none else some (String.ofList rest)

theorem remainder?_eq_some_iff {name best rest : String} :
    remainder? name best = some rest ↔ rest ≠ "" ∧ best = name ++ rest := by
  constructor
  · intro h
    obtain ⟨chars, hchars, hsome⟩ := Option.bind_eq_some_iff.mp h
    split at hsome
    · contradiction
    · next hfull =>
        obtain rfl := Option.some.inj hsome
        refine ⟨fun hempty => hfull ?_,
          extends_of_toList (List.isPrefixOf?_eq_some_iff_append_eq.mp hchars)⟩
        rw [List.isEmpty_iff, ← String.toList_ofList (l := chars), hempty]
        rfl
  · rintro ⟨hne, rfl⟩
    have hstart : name.toList.isPrefixOf? (name ++ rest).toList = some rest.toList :=
      List.isPrefixOf?_eq_some_iff_append_eq.mpr String.toList_append.symm
    simp only [remainder?, hstart]
    simp [hne]

/-! ## Sort keys -/

variable {β : Type} [LinearOrder β]

/-- By a key, and by the texts themselves where the keys are equal. -/
def ByKey (key : String → β) (s t : String) : Prop :=
  key s < key t ∨ key s = key t ∧ s ≤ t

def ShorterFirst (s t : String) : Prop :=
  s.utf8ByteSize < t.utf8ByteSize ∨ s.utf8ByteSize = t.utf8ByteSize ∧ s ≤ t

def CloserFirst (likeness : String → α) (s t : String) : Prop :=
  likeness t < likeness s ∨ likeness s = likeness t ∧ s ≤ t

theorem shorter_iff (s t : String) : shorter s t = true ↔ ByKey String.utf8ByteSize s t := by
  simp [shorter, ByKey]

theorem closer_iff (likeness : String → α) (s t : String) :
    closer (fun a b => decide (a ≤ b)) likeness s t = true ↔
      ByKey (fun s => OrderDual.toDual (likeness s)) s t := by
  simp only [closer, Bool.or_eq_true, Bool.and_eq_true, Bool.not_eq_true', decide_eq_false_iff_not,
    decide_eq_true_eq, not_le, ByKey, OrderDual.toDual_lt_toDual, OrderDual.toDual_inj]
  constructor
  · rintro (hlt | ⟨hle, hst⟩)
    · exact .inl hlt
    · exact hle.lt_or_eq.imp id fun heq => ⟨heq.symm, hst⟩
  · rintro (hlt | ⟨heq, hst⟩)
    · exact .inl hlt
    · exact .inr ⟨heq.ge, hst⟩

variable {key : String → β} {s t u : String}

theorem ByKey.trans (hst : ByKey key s t) (htu : ByKey key t u) : ByKey key s u := by
  rcases hst with hst | ⟨hst, hle⟩
  · rcases htu with htu | ⟨htu, -⟩
    · exact .inl (hst.trans htu)
    · exact .inl (htu ▸ hst)
  · rcases htu with htu | ⟨htu, hle'⟩
    · exact .inl (hst ▸ htu)
    · exact .inr ⟨hst.trans htu, hle.trans hle'⟩

theorem ByKey.total (key : String → β) (s t : String) : ByKey key s t ∨ ByKey key t s := by
  rcases lt_trichotomy (key s) (key t) with hlt | heq | hgt
  · exact .inl (.inl hlt)
  · exact (le_total s t).imp (fun h => .inr ⟨heq, h⟩) fun h => .inr ⟨heq.symm, h⟩
  · exact .inr (.inl hgt)

theorem ByKey.antisymm (hst : ByKey key s t) (hts : ByKey key t s) : s = t := by
  rcases hst with hlt | ⟨heq, hst⟩
  · rcases hts with hgt | ⟨heq, -⟩
    · exact absurd hgt hlt.asymm
    · exact absurd heq hlt.ne'
  · rcases hts with hgt | ⟨-, hts⟩
    · exact absurd heq hgt.ne'
    · exact hst.antisymm hts

section

variable {le : String → String → Bool} (hle : ∀ s t, le s t = true ↔ ByKey key s t)

include hle

theorem pairwise_mergeSort_of_key (texts : List String) :
    (texts.mergeSort le).Pairwise (ByKey key) := by
  have htrans (a b c : String) (hab : le a b = true) (hbc : le b c = true) : le a c = true :=
    (hle a c).mpr (((hle a b).mp hab).trans ((hle b c).mp hbc))
  have htotal (a b : String) : (le a b || le b a) = true := by
    rw [Bool.or_eq_true, hle, hle]
    exact ByKey.total key a b
  exact (List.pairwise_mergeSort htrans htotal texts).imp (hle _ _).mp

theorem mergeSort_of_perm {texts texts' : List String} (h : texts.Perm texts') :
    texts.mergeSort le = texts'.mergeSort le :=
  List.Perm.eq_of_pairwise (fun _ _ _ _ => ByKey.antisymm)
    (pairwise_mergeSort_of_key hle texts) (pairwise_mergeSort_of_key hle texts')
    (((texts.mergeSort_perm le).trans h).trans (texts'.mergeSort_perm le).symm)

end

/-! ## The two parts -/

variable (likeness : String → α) (threshold : α) (name : String)

/-- A text that is like the name, but neither the name itself nor more of it. -/
def Resembles (s : String) : Prop :=
  s ≠ name ∧ ¬ Extends name s ∧ threshold ≤ likeness s

instance : DecidablePred (Resembles likeness threshold name) := fun _ =>
  inferInstanceAs (Decidable (_ ∧ _ ∧ _))

def extensions (suggestions : List String) : List String :=
  (suggestions.filter (Extends name ·)).mergeSort shorter

def resemblances (suggestions : List String) : List String :=
  (suggestions.filter (Resembles likeness threshold name ·)).mergeSort
    (closer (fun a b => decide (a ≤ b)) likeness)

theorem rankWith_eq (suggestions : List String) :
    rankWith (fun a b => decide (a ≤ b)) threshold likeness name suggestions =
      extensions name suggestions ++ resemblances likeness threshold name suggestions := by
  have hextends : continues name = fun s => decide (Extends name s) := by
    funext s
    rw [Bool.eq_iff_iff, continues_iff, decide_eq_true_eq]
  have hresembles : (fun s => s != name && !continues name s && decide (threshold ≤ likeness s)) =
      fun s => decide (Resembles likeness threshold name s) := by
    funext s
    rw [Bool.eq_iff_iff, decide_eq_true_eq]
    simp [Resembles, ← continues_iff, and_assoc]
  rw [extensions, resemblances, ← hextends, ← hresembles]
  rfl

theorem extensions_perm (suggestions : List String) :
    (extensions name suggestions).Perm (suggestions.filter (Extends name ·)) :=
  List.mergeSort_perm _ _

theorem resemblances_perm (suggestions : List String) :
    (resemblances likeness threshold name suggestions).Perm
      (suggestions.filter (Resembles likeness threshold name ·)) :=
  List.mergeSort_perm _ _

theorem pairwise_extensions (suggestions : List String) :
    (extensions name suggestions).Pairwise ShorterFirst :=
  pairwise_mergeSort_of_key shorter_iff _

theorem pairwise_resemblances (suggestions : List String) :
    (resemblances likeness threshold name suggestions).Pairwise (CloserFirst likeness) :=
  (pairwise_mergeSort_of_key (closer_iff likeness) _).imp id

theorem mem_of_mem_rankWith {suggestions : List String} {s : String}
    (h : s ∈ rankWith (fun a b => decide (a ≤ b)) threshold likeness name suggestions) :
    s ∈ suggestions := by
  rw [rankWith_eq, List.mem_append, (extensions_perm ..).mem_iff,
    (resemblances_perm ..).mem_iff] at h
  rcases h with h | h
  · exact List.mem_of_mem_filter h
  · exact List.mem_of_mem_filter h

theorem rankWith_of_perm {suggestions suggestions' : List String}
    (h : suggestions.Perm suggestions') :
    rankWith (fun a b => decide (a ≤ b)) threshold likeness name suggestions =
      rankWith (fun a b => decide (a ≤ b)) threshold likeness name suggestions' := by
  rw [rankWith_eq, rankWith_eq, extensions, extensions, resemblances, resemblances,
    mergeSort_of_perm shorter_iff (h.filter _),
    mergeSort_of_perm (closer_iff likeness) (h.filter _)]

theorem head?_rankWith_extends (suggestions : List String) :
    (∃ best, (rankWith (fun a b => decide (a ≤ b)) threshold likeness name suggestions).head? =
        some best ∧ Extends name best) ↔ ∃ s ∈ suggestions, Extends name s := by
  have hmem (s : String) : s ∈ extensions name suggestions ↔ s ∈ suggestions ∧ Extends name s := by
    rw [(extensions_perm name suggestions).mem_iff, List.mem_filter, decide_eq_true_eq]
  rw [rankWith_eq]
  constructor
  · rintro ⟨best, hbest, hextends⟩
    rcases List.mem_append.mp (List.mem_of_mem_head? hbest) with hlonger | hlike
    · exact ⟨best, (hmem best).mp hlonger⟩
    · rw [(resemblances_perm ..).mem_iff, List.mem_filter, decide_eq_true_eq] at hlike
      exact absurd hextends hlike.2.2.1
  · rintro ⟨s, hs⟩
    obtain ⟨best, others, hsplit⟩ := List.exists_cons_of_ne_nil
      (List.ne_nil_of_mem ((hmem s).mpr hs))
    refine ⟨best, by rw [hsplit]; rfl, ((hmem best).mp ?_).2⟩
    rw [hsplit]
    exact List.mem_cons_self

end Ranking

/-! ## Names -/

namespace NameInput

variable (likeness : String → String → α) (threshold : α) (n : NameInput)

def rankedBy : List String :=
  if n.name.isEmpty then n.suggestions
  else Ranking.rankWith (fun a b => decide (a ≤ b)) threshold (likeness n.name) n.name n.suggestions

def completionBy : Option String :=
  if n.name.isEmpty ∨ n.cursor ≠ n.value.length then none
  else (n.rankedBy likeness threshold).head?.bind (Ranking.remainder? n.name)

theorem ranked_eq_rankedBy : n.ranked = n.rankedBy Text.similarity Ranking.threshold :=
  rfl

theorem completion_eq_completionBy :
    n.completion = n.completionBy Text.similarity Ranking.threshold :=
  rfl

variable {likeness threshold n}

theorem rankedBy_of_name (hname : n.name ≠ "") :
    n.rankedBy likeness threshold =
      Ranking.rankWith (fun a b => decide (a ≤ b)) threshold (likeness n.name) n.name
        n.suggestions :=
  if_neg (by simpa using hname)

theorem completionBy_eq_some_iff {rest : String} :
    n.completionBy likeness threshold = some rest ↔
      (n.name ≠ "" ∧ n.cursor = n.value.length) ∧ rest ≠ "" ∧
        (n.rankedBy likeness threshold).head? = some (n.name ++ rest) := by
  have hguard : (n.name.isEmpty ∨ n.cursor ≠ n.value.length) ↔
      ¬ (n.name ≠ "" ∧ n.cursor = n.value.length) := by
    rw [String.isEmpty_iff, not_and_or, not_not]
  rw [completionBy]
  split
  · next hnone => simp [hguard.mp hnone]
  · next hsome =>
      have hplace := not_not.mp (mt hguard.mpr hsome)
      rw [Option.bind_eq_some_iff]
      constructor
      · rintro ⟨best, hbest, hrest⟩
        obtain ⟨hne, rfl⟩ := Ranking.remainder?_eq_some_iff.mp hrest
        exact ⟨hplace, hne, hbest⟩
      · rintro ⟨-, hne, hbest⟩
        exact ⟨_, hbest, Ranking.remainder?_eq_some_iff.mpr ⟨hne, rfl⟩⟩

theorem isSome_completionBy_iff (hname : n.name ≠ "") (hcursor : n.cursor = n.value.length) :
    (n.completionBy likeness threshold).isSome ↔
      ∃ s ∈ n.suggestions, Ranking.Extends n.name s := by
  rw [← Ranking.head?_rankWith_extends (likeness n.name) threshold, ← rankedBy_of_name hname,
    Option.isSome_iff_exists]
  constructor
  · rintro ⟨rest, hrest⟩
    obtain ⟨-, hne, hbest⟩ := completionBy_eq_some_iff.mp hrest
    exact ⟨_, hbest, rest, hne, rfl⟩
  · rintro ⟨_, hbest, rest, hne, rfl⟩
    exact ⟨rest, completionBy_eq_some_iff.mpr ⟨⟨hname, hcursor⟩, hne, hbest⟩⟩

/-- Suggestions that extend the name come first, the shortest at the front, then those that are
like it, the closest at the front. -/
theorem extensions_then_resemblances (likeness : String → String → α) (threshold : α)
    (n : NameInput) (hname : n.name ≠ "") :
    (∃ longer near, n.rankedBy likeness threshold = longer ++ near ∧
      longer.Perm (n.suggestions.filter (Ranking.Extends n.name ·)) ∧
      longer.Pairwise Ranking.ShorterFirst ∧
      near.Perm (n.suggestions.filter (Ranking.Resembles (likeness n.name) threshold n.name ·)) ∧
      near.Pairwise (Ranking.CloserFirst (likeness n.name))) ∧
    (∀ suggestions, suggestions.Perm n.suggestions →
      { n with suggestions := suggestions }.rankedBy likeness threshold =
        n.rankedBy likeness threshold) ∧
    (n.cursor = n.value.length →
      ((n.completionBy likeness threshold).isSome ↔
        ∃ s ∈ n.suggestions, Ranking.Extends n.name s) ∧
      ∀ rest, n.completionBy likeness threshold = some rest ↔
        rest ≠ "" ∧ (n.rankedBy likeness threshold).head? = some (n.name ++ rest)) ∧
    n.ranked = n.rankedBy Text.similarity Ranking.threshold ∧
    n.completion = n.completionBy Text.similarity Ranking.threshold := by
  refine ⟨⟨_, _, ?_, Ranking.extensions_perm .., Ranking.pairwise_extensions ..,
    Ranking.resemblances_perm .., Ranking.pairwise_resemblances ..⟩, fun suggestions hperm => ?_,
    fun hcursor => ⟨isSome_completionBy_iff hname hcursor, fun rest => ?_⟩,
    n.ranked_eq_rankedBy, n.completion_eq_completionBy⟩
  · rw [rankedBy_of_name hname, Ranking.rankWith_eq]
  · rw [rankedBy_of_name hname, rankedBy_of_name (n := { n with suggestions := suggestions }) hname]
    exact Ranking.rankWith_of_perm _ _ _ hperm
  · rw [completionBy_eq_some_iff]
    exact and_iff_right ⟨hname, hcursor⟩

def threeLetters : NameInput :=
  ⟨"fea".toList, 3, ["fae", "feature-long", "feat", "zzzzzzzz"]⟩

theorem extensions_then_resemblances_of_three_letters :
    threeLetters.name ≠ "" ∧ threeLetters.ranked = ["feat", "feature-long", "fae"] ∧
      threeLetters.completion = some "t" := by
  have hname : threeLetters.name ≠ "" := by decide +kernel
  obtain ⟨⟨longer, near, hparts, hlonger, hshorter, hnear, -⟩, -, hcompletion, hranked, hcompleted⟩ :=
    extensions_then_resemblances Text.similarity Ranking.threshold threeLetters hname
  have hsorted : ["feat", "feature-long"].Pairwise Ranking.ShorterFirst :=
    List.pairwise_pair.mpr (.inl (by decide +kernel))
  obtain rfl : longer = ["feat", "feature-long"] :=
    (hlonger.trans (by decide +kernel)).eq_of_pairwise
      (fun _ _ _ _ => Ranking.ByKey.antisymm) hshorter hsorted
  obtain rfl : near = ["fae"] := List.perm_singleton.mp (hnear.trans (by decide +kernel))
  have hfirst : threeLetters.ranked = ["feat", "feature-long", "fae"] := hranked.trans hparts
  refine ⟨hname, hfirst, ?_⟩
  rw [hcompleted, (hcompletion (by decide +kernel)).2, ← hranked, hfirst]
  decide +kernel

end NameInput

end RevisionGraph
