import Mathlib.Algebra.Group.Nat.Defs
import Mathlib.Data.List.Induction
import RevisionGraph.Proofs.Encoding

/-!
# What any bytes read as

The reader makes characters of all bytes, well-formed or not. A character below 0x80 can come only
from a byte of its own, since an encoding of several bytes that could be shorter is not well-formed
(`mem_of_mem_decode`), and no byte goes without a trace (`decode_ne_nil`).
-/

namespace RevisionGraph.Text.Utf8

/-- The numbers that the bytes to come can make are characters above 0x7F. -/
def State.Fits : State → Prop
  | .start => True
  | .inside missing value low high =>
      0x80 ≤ low ∧ ∀ n, (value * 64 + (low - 0x80)) * 64 ^ missing ≤ n →
        n < (value * 64 + (high - 0x80) + 1) * 64 ^ missing → 0x80 ≤ n ∧ n.isValidChar

def Fitting (b : Nat) (read : State × List Char) : Prop :=
  read.1.Fits ∧ ∀ c ∈ read.2, c.toNat = b ∨ 0x80 ≤ c.toNat

theorem toNat_ofNat {n : Nat} (h : n.isValidChar) : (Char.ofNat n).toNat = n := by
  rw [Char.ofNat, dif_pos h]
  rfl

/-- What a byte outside of a character comes to: it is one, begins none, or begins one. -/
inductive Begins (b : Nat) : State × List Char → Prop
  | ascii : b < 0x80 → Begins b (.start, [Char.ofNat b])
  | replacement : Begins b (.start, [replacement])
  | inside {missing value low high : Nat} :
      (State.inside missing value low high).Fits → Begins b (.inside missing value low high, [])

theorem begins_first {b : Nat} (hb : b < 256) : Begins b (first b) := by
  unfold first
  repeat' split
  · next hascii => exact .ascii hascii
  · exact .replacement
  all_goals try exact .replacement
  all_goals
    refine .inside ⟨by omega, fun n hlow hhigh => ?_⟩
    unfold Nat.isValidChar
    omega

theorem fitting_first {b : Nat} (hb : b < 256) : Fitting b (first b) := by
  have hbegins := begins_first hb
  generalize first b = read at hbegins
  cases hbegins with
  | ascii hascii =>
      refine ⟨trivial, fun c hc => .inl ?_⟩
      rw [List.mem_singleton.mp hc, toNat_ofNat (.inl (by omega))]
  | replacement =>
      refine ⟨trivial, fun c hc => .inr ?_⟩
      rw [List.mem_singleton.mp hc]
      decide
  | inside hfits => exact ⟨hfits, by simp⟩

theorem State.Fits.tail {missing value low high b : Nat}
    (h : (State.inside (missing + 1) value low high).Fits) (hlow : low ≤ b) (hhigh : b ≤ high) :
    (State.inside missing (value * 64 + (b - 0x80)) 0x80 0xBF).Fits := by
  obtain ⟨hleast, hall⟩ := h
  have hpow : 64 ^ (missing + 1) = 64 * 64 ^ missing := Nat.pow_succ'
  rw [hpow] at hall
  refine ⟨Nat.le_refl _, fun n hn hn' => hall n ?_ ?_⟩
  · calc
      (value * 64 + (low - 0x80)) * (64 * 64 ^ missing)
          = (value * 64 + (low - 0x80)) * 64 * 64 ^ missing := (Nat.mul_assoc ..).symm
      _ ≤ ((value * 64 + (b - 0x80)) * 64 + (0x80 - 0x80)) * 64 ^ missing :=
          Nat.mul_le_mul_right _ (by omega)
      _ ≤ n := hn
  · calc
      n < ((value * 64 + (b - 0x80)) * 64 + (0xBF - 0x80) + 1) * 64 ^ missing := hn'
      _ ≤ (value * 64 + (high - 0x80) + 1) * 64 * 64 ^ missing :=
          Nat.mul_le_mul_right _ (by omega)
      _ = (value * 64 + (high - 0x80) + 1) * (64 * 64 ^ missing) := Nat.mul_assoc ..

theorem fitting_step {state : State} (h : state.Fits) {b : Nat} (hb : b < 256) :
    Fitting b (step state b) := by
  cases state with
  | start => exact fitting_first hb
  | inside missing value low high =>
      simp only [step]
      split
      · next hbounds =>
          cases missing with
          | zero =>
              obtain ⟨hleast, hall⟩ := h
              have hchar := hall (value * 64 + (b - 0x80)) (by omega) (by omega)
              refine ⟨trivial, fun c hc => .inr ?_⟩
              rw [List.mem_singleton.mp hc, toNat_ofNat hchar.2]
              exact hchar.1
          | succ missing => exact ⟨h.tail hbounds.1 hbounds.2, by simp⟩
      · obtain ⟨hfits, hchars⟩ := fitting_first hb
        refine ⟨hfits, fun c hc => ?_⟩
        rcases List.mem_cons.mp hc with rfl | hc
        · exact .inr (by decide)
        · exact hchars c hc

/-! ## Texts -/

theorem run_concat (state : State) (out : Array Char) (bytes : List UInt8) (b : UInt8) :
    run (state, out) (bytes ++ [b]) =
      ((step (run (state, out) bytes).1 b.toNat).1,
        (run (state, out) bytes).2 ++ (step (run (state, out) bytes).1 b.toNat).2) := by
  rw [run_append, run_cons _ rfl]
  rfl

theorem fits_run (bytes : List UInt8) : (run (.start, #[]) bytes).1.Fits := by
  induction bytes using List.reverseRecOn with
  | nil => trivial
  | append_singleton bytes b ih =>
      rw [run_concat]
      exact (fitting_step ih b.toNat_lt).1

theorem decode_eq (bytes : List UInt8) :
    decode bytes = (run (.start, #[]) bytes).2.toList ++ leftover (run (.start, #[]) bytes).1 :=
  rfl

theorem mem_of_mem_run {bytes : List UInt8} {c : Char} (hc : c ∈ (run (.start, #[]) bytes).2)
    (hlow : c.toNat < 0x80) : UInt8.ofNat c.toNat ∈ bytes := by
  induction bytes using List.reverseRecOn with
  | nil => simp [run] at hc
  | append_singleton bytes b ih =>
      rw [run_concat, ← Array.mem_toList_iff, Array.toList_appendList, List.mem_append,
        Array.mem_toList_iff] at hc
      rw [List.mem_append, List.mem_singleton]
      rcases hc with hbefore | hnew
      · exact .inl (ih hbefore)
      · rcases (fitting_step (fits_run bytes) b.toNat_lt).2 c hnew with hb | hhigh
        · exact .inr (by rw [hb, UInt8.ofNat_toNat])
        · omega

theorem mem_of_mem_decode {bytes : List UInt8} {c : Char} (hc : c ∈ decode bytes)
    (hlow : c.toNat < 0x80) : UInt8.ofNat c.toNat ∈ bytes := by
  rw [decode_eq, List.mem_append, Array.mem_toList_iff] at hc
  rcases hc with hout | hleft
  · exact mem_of_mem_run hout hlow
  · cases hstate : (run (.start, #[]) bytes).1 with
    | start =>
        rw [hstate] at hleft
        contradiction
    | inside missing value low high =>
        rw [hstate, leftover, List.mem_singleton] at hleft
        rw [hleft] at hlow
        exact absurd hlow (by decide)

theorem step_ne (state : State) {b : Nat} (hb : b < 256) : step state b ≠ (.start, []) := by
  cases state with
  | start =>
      have hbegins : Begins b (step .start b) := begins_first hb
      generalize step .start b = read at hbegins
      cases hbegins <;> simp
  | inside missing value low high =>
      simp only [step]
      split
      · cases missing <;> simp
      · simp

theorem decode_ne_nil {bytes : List UInt8} (h : bytes ≠ []) : decode bytes ≠ [] := by
  obtain ⟨front, b, rfl⟩ := (List.eq_nil_or_concat' bytes).resolve_left h
  have hstep := step_ne (run (.start, #[]) front).1 b.toNat_lt
  rw [decode_eq, run_concat]
  cases hstate : (step (run (.start, #[]) front).1 b.toNat).1 with
  | start =>
      have hout : (step (run (.start, #[]) front).1 b.toNat).2 ≠ [] := fun hout =>
        hstep (Prod.ext hstate hout)
      simp [hout]
  | inside missing value low high => simp [leftover]

theorem text_ne_empty {bytes : List UInt8} (h : bytes ≠ []) : text bytes ≠ "" := by
  intro hempty
  have hnil := congrArg String.toList hempty
  rw [text, String.toList_ofList] at hnil
  exact decode_ne_nil h hnil

end RevisionGraph.Text.Utf8
