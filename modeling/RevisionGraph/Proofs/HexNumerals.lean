import Mathlib.Data.List.Induction
import Mathlib.Tactic.IntervalCases
import RevisionGraph.Text.Numeral

/-!
# Hexadecimal numerals

A numeral is read from its first character on, which may be a plus sign (`IsDigitOrPlus`), and each
character behind it is a digit that adds a place (`digitsValue?_dropPlus_concat`).
-/

namespace RevisionGraph.Text.Hex

def IsDigit (c : Char) (value : Nat) : Prop :=
  "0123456789abcdef".toList[value]? = some c ∨ "0123456789ABCDEF".toList[value]? = some c

instance (c : Char) (value : Nat) : Decidable (IsDigit c value) :=
  inferInstanceAs (Decidable (_ ∨ _))

/-- A digit, or a plus sign in the place of one, which adds nothing. -/
def IsDigitOrPlus (c : Char) (value : Nat) : Prop :=
  IsDigit c value ∨ c = '+' ∧ value = 0

/-! ## Digits -/

section

variable {c d : Char} {value : Nat}

theorem isDigit_iff : IsDigit c value ↔
    value < 10 ∧ c.toNat = 48 + value ∨
      10 ≤ value ∧ value < 16 ∧ (c.toNat = 87 + value ∨ c.toNat = 55 + value) := by
  constructor
  · intro h
    have hlt : value < 16 := by
      rcases h with h | h <;> exact (List.getElem?_eq_some_iff.mp h).1
    rcases h with h | h <;> interval_cases value <;> obtain rfl := Option.some.inj h <;> decide
  · rintro (⟨hlt, hc⟩ | ⟨hle, hlt, hc | hc⟩) <;>
      rw [← Char.ofNat_toNat c, hc] <;> clear hc <;> interval_cases value <;> decide

theorem le_iff_toNat_le {c d : Char} : c ≤ d ↔ c.toNat ≤ d.toNat :=
  Char.le_def.trans UInt32.le_iff_toNat_le

theorem digitValue?_eq_some_iff : digitValue? 16 c = some value ↔ IsDigit c value := by
  have h0 : '0'.toNat = 48 := rfl
  have h9 : '9'.toNat = 57 := rfl
  have ha : 'a'.toNat = 97 := rfl
  have hf : 'f'.toNat = 102 := rfl
  have hA : 'A'.toNat = 65 := rfl
  have hF : 'F'.toNat = 70 := rfl
  rw [isDigit_iff, digitValue?]
  simp only [Option.filter_eq_some_iff, decide_eq_true_eq, le_iff_toNat_le, h0, h9, ha, hf, hA, hF]
  grind

theorem IsDigit.ne (h : IsDigit c value) (hd : digitValue? 16 d = none) : c ≠ d := by
  rintro rfl
  rw [digitValue?_eq_some_iff.mpr h] at hd
  contradiction

theorem IsDigit.ne_plus (h : IsDigit c value) : '+' ≠ c :=
  (h.ne rfl).symm

end

/-! ## Numerals -/

theorem dropPlus_append {cs : List Char} (h : cs ≠ []) (ds : List Char) :
    dropPlus (cs ++ ds) = dropPlus cs ++ ds := by
  cases cs with
  | nil => contradiction
  | cons c rest =>
      rw [List.cons_append]
      unfold dropPlus
      split
      · next heq =>
          obtain ⟨rfl, rfl⟩ := List.cons.inj heq
          rfl
      · next hplus =>
          split
          · next heq => exact absurd (congrArg (· ++ ds) heq) (hplus _)
          · rfl

theorem digitsValue?_concat_eq_some_iff {cs : List Char} {c : Char} {n : Nat} :
    digitsValue? 16 (cs ++ [c]) = some n ↔
      ∃ v a, digitsValue? 16 cs = some v ∧ IsDigit c a ∧ n = 16 * v + a := by
  have hlast : digitsValue? 16 (cs ++ [c]) =
      (digitsValue? 16 cs).bind fun v =>
        (digitValue? 16 c).bind fun a => some (v * 16 + a) :=
    List.foldl_append
  simp only [hlast, Option.bind_eq_some_iff, digitValue?_eq_some_iff, Option.some.injEq]
  constructor
  · rintro ⟨v, hv, a, ha, rfl⟩
    exact ⟨v, a, hv, ha, by omega⟩
  · rintro ⟨v, a, hv, ha, rfl⟩
    exact ⟨v, hv, a, ha, by omega⟩

theorem digitsValue?_dropPlus_singleton {c : Char} {n : Nat} :
    digitsValue? 16 (dropPlus [c]) = some n ↔ IsDigitOrPlus c n := by
  by_cases hc : c = '+'
  · subst hc
    have hzero : digitsValue? 16 (dropPlus ['+']) = some 0 := rfl
    have hdigit : ¬IsDigit '+' n := fun h => h.ne rfl rfl
    rw [hzero, IsDigitOrPlus, or_iff_right hdigit, Option.some.injEq, eq_comm]
    exact (and_iff_right rfl).symm
  · have hdrop : dropPlus [c] = [] ++ [c] := by
      simp [dropPlus, hc]
    have hnil : digitsValue? 16 [] = some 0 := rfl
    rw [hdrop, digitsValue?_concat_eq_some_iff, hnil, IsDigitOrPlus]
    simp [hc]

theorem digitsValue?_dropPlus_concat {cs : List Char} (h : cs ≠ []) {c : Char} {n : Nat} :
    digitsValue? 16 (dropPlus (cs ++ [c])) = some n ↔
      ∃ v a, digitsValue? 16 (dropPlus cs) = some v ∧ IsDigit c a ∧ n = 16 * v + a := by
  rw [dropPlus_append h, digitsValue?_concat_eq_some_iff]

theorem digitsValue?_dropPlus_pair {c d : Char} {n : Nat} :
    digitsValue? 16 (dropPlus [c, d]) = some n ↔
      ∃ a b, IsDigitOrPlus c a ∧ IsDigit d b ∧ n = 16 * a + b := by
  have hconcat := digitsValue?_dropPlus_concat (List.cons_ne_nil c []) (c := d) (n := n)
  simp only [digitsValue?_dropPlus_singleton] at hconcat
  exact hconcat

theorem digitsValue?_dropPlus_four {c d e f : Char} {n : Nat} :
    digitsValue? 16 (dropPlus [c, d, e, f]) = some n ↔
      ∃ v x y, digitsValue? 16 (dropPlus [c, d]) = some v ∧ IsDigit e x ∧ IsDigit f y ∧
        n = 256 * v + 16 * x + y := by
  have hthree (v : Nat) := digitsValue?_dropPlus_concat (List.cons_ne_nil c [d]) (c := e) (n := v)
  have hfour := digitsValue?_dropPlus_concat (List.cons_ne_nil c [d, e]) (c := f) (n := n)
  simp only [List.cons_append, List.nil_append] at hthree hfour
  rw [hfour]
  simp only [hthree]
  constructor
  · rintro ⟨w, y, ⟨v, x, hv, hx, rfl⟩, hy, rfl⟩
    exact ⟨v, x, y, hv, hx, hy, by omega⟩
  · rintro ⟨v, x, y, hv, hx, hy, rfl⟩
    exact ⟨16 * v + x, y, ⟨v, x, hv, hx, rfl⟩, hy, by omega⟩

theorem numeral?_eq_some_iff {c d : Char} {cs : List Char} {n bound : Nat} :
    numeral? 16 bound (c :: d :: cs) = some n ↔
      digitsValue? 16 (dropPlus (c :: d :: cs)) = some n ∧ n ≤ bound := by
  have hsome : (dropPlus (c :: d :: cs)).isEmpty = false := by
    rw [← List.singleton_append, dropPlus_append (List.cons_ne_nil c [])]
    simp
  rw [numeral?, hsome]
  simp [Option.filter_eq_some_iff]

/-! ## Sizes

A numeral has ASCII characters only, so its size in bytes is its length. -/

theorem toNat_lt_of_isDigit {c : Char} {value : Nat} (h : IsDigit c value) :
    value < 16 ∧ c.toNat < 128 := by
  rw [isDigit_iff] at h
  omega

theorem toNat_lt_of_isDigitOrPlus {c : Char} {value : Nat} (h : IsDigitOrPlus c value) :
    value < 16 ∧ c.toNat < 128 := by
  rcases h with h | ⟨rfl, rfl⟩
  · exact toNat_lt_of_isDigit h
  · decide

theorem toNat_lt_of_digitsValue? {cs : List Char} {n : Nat}
    (h : digitsValue? 16 cs = some n) : ∀ c ∈ cs, c.toNat < 128 := by
  induction cs using List.reverseRecOn generalizing n with
  | nil => exact fun _ hc => absurd hc List.not_mem_nil
  | append_singleton cs c ih =>
      obtain ⟨v, a, hv, ha, -⟩ := digitsValue?_concat_eq_some_iff.mp h
      intro d hd
      rcases List.mem_append.mp hd with hd | hd
      · exact ih hv d hd
      · exact List.mem_singleton.mp hd ▸ (toNat_lt_of_isDigit ha).2

theorem toNat_lt_of_numeral? {bound n : Nat} {cs : List Char}
    (h : numeral? 16 bound cs = some n) : ∀ c ∈ cs, c.toNat < 128 := by
  have hdigits : digitsValue? 16 (dropPlus cs) = some n := by
    rw [numeral?] at h
    split at h
    · contradiction
    · exact (Option.filter_eq_some_iff.mp h).1
  have hlt := toNat_lt_of_digitsValue? hdigits
  unfold dropPlus at hlt
  split at hlt
  · exact List.forall_mem_cons.mpr ⟨by decide, hlt⟩
  · exact hlt

theorem utf8ByteSize_ofList {cs : List Char} (h : ∀ c ∈ cs, c.toNat < 128) :
    (String.ofList cs).utf8ByteSize = cs.length := by
  induction cs with
  | nil => rfl
  | cons c cs ih =>
      obtain ⟨hc, hcs⟩ := List.forall_mem_cons.mp h
      have hone : c.utf8Size = 1 :=
        Char.utf8Size_eq_one_iff.mpr (UInt32.le_iff_toNat_le.mpr (Nat.le_of_lt_succ hc))
      rw [String.ofList_cons, String.utf8ByteSize_append, String.utf8ByteSize_singleton, hone,
        ih hcs, List.length_cons, Nat.add_comm]

end RevisionGraph.Text.Hex
