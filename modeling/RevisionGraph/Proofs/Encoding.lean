import Mathlib.Data.List.Basic
import RevisionGraph.Text.Utf8

/-!
# Characters come back from their bytes

The reader takes the bytes of a character one after another. The first one says what the character
begins with and where the second must lie, and every character that there is respects it, so that
what is written is read back (`decode_encode`).
-/

namespace RevisionGraph.Text.Utf8

/-! ## Bytes of one character -/

theorem toNat_lt (c : Char) : c.toNat < 0x110000 := by
  rcases c.valid with h | ⟨_, h⟩
  · exact Nat.lt_trans h (by decide)
  · exact h

theorem not_surrogate (c : Char) : c.toNat < 0xD800 ∨ 0xDFFF < c.toNat :=
  c.valid.imp_right And.left

theorem toNat_of_mem_encodeChar {b : UInt8} {c : Char} (h : b ∈ encodeChar c) :
    b.toNat = c.toNat ∨ 0x80 ≤ b.toNat := by
  have hc := toNat_lt c
  simp only [encodeChar] at h
  split at h
  · next hone =>
      left
      rw [List.mem_singleton.mp h]
      exact UInt8.toNat_ofNat_of_lt' (Nat.lt_trans hone (by decide))
  · right
    have hlead {n : Nat} (hlow : 0x80 ≤ n) (hhigh : n < 256) : 0x80 ≤ (UInt8.ofNat n).toNat := by
      rw [UInt8.toNat_ofNat_of_lt' hhigh]
      exact hlow
    split at h
    · simp only [List.mem_cons, List.not_mem_nil, or_false] at h
      rcases h with rfl | rfl <;> apply hlead <;> omega
    · split at h
      · simp only [List.mem_cons, List.not_mem_nil, or_false] at h
        rcases h with rfl | rfl | rfl <;> apply hlead <;> omega
      · simp only [List.mem_cons, List.not_mem_nil, or_false] at h
        rcases h with rfl | rfl | rfl | rfl <;> apply hlead <;> omega

/-! ## Reading one character -/

theorem run_cons {state state' : State} {more : List Char} {b : UInt8} (out : Array Char)
    (h : step state b.toNat = (state', more)) (bytes : List UInt8) :
    run (state, out) (b :: bytes) = run (state', out ++ more) bytes := by
  simp only [run, List.foldl_cons, h]

theorem run_inside {value low high n : Nat} (out : Array Char) (missing : Nat) (hlow : low ≤ n)
    (hhigh : n ≤ high) (hn : n < 256) (bytes : List UInt8) :
    run (.inside (missing + 1) value low high, out) (UInt8.ofNat n :: bytes) =
      run (.inside missing (value * 64 + (n - 0x80)) 0x80 0xBF, out) bytes := by
  have hstep : step (.inside (missing + 1) value low high) (UInt8.ofNat n).toNat =
      (.inside missing (value * 64 + (n - 0x80)) 0x80 0xBF, []) := by
    rw [UInt8.toNat_ofNat_of_lt' hn, step, if_pos ⟨hlow, hhigh⟩]
  rw [run_cons out hstep, Array.appendList_nil]

theorem run_last {value low high n : Nat} (out : Array Char) (hlow : low ≤ n) (hhigh : n ≤ high)
    (hn : n < 256) :
    run (.inside 0 value low high, out) [UInt8.ofNat n] =
      (.start, out.push (Char.ofNat (value * 64 + (n - 0x80)))) := by
  have hstep : step (.inside 0 value low high) (UInt8.ofNat n).toNat =
      (.start, [Char.ofNat (value * 64 + (n - 0x80))]) := by
    rw [UInt8.toNat_ofNat_of_lt' hn, step, if_pos ⟨hlow, hhigh⟩]
  rw [run_cons out hstep]
  rfl

theorem first_of_three {n : Nat} (hlow : 0x800 ≤ n) (hhigh : n < 0x10000)
    (hvalid : n < 0xD800 ∨ 0xDFFF < n) :
    ∃ low high, first (0xE0 + n / 4096) = (.inside 1 (n / 4096) low high, []) ∧
      low ≤ 0x80 + n / 64 % 64 ∧ 0x80 + n / 64 % 64 ≤ high := by
  by_cases h0 : n / 4096 = 0
  · refine ⟨0xA0, 0xBF, ?_, by omega, by omega⟩
    rw [h0]
    rfl
  · by_cases hd : n / 4096 = 0xD
    · refine ⟨0x80, 0x9F, ?_, by omega, by omega⟩
      rw [hd]
      rfl
    · refine ⟨0x80, 0xBF, ?_, by omega, by omega⟩
      unfold first
      rw [if_neg (by omega), if_neg (by omega), if_neg (by omega), if_neg (by omega),
        if_neg (by omega), if_pos (by omega), Nat.add_sub_cancel_left]

theorem first_of_four {n : Nat} (hlow : 0x10000 ≤ n) (hhigh : n < 0x110000) :
    ∃ low high, first (0xF0 + n / 262144) = (.inside 2 (n / 262144) low high, []) ∧
      low ≤ 0x80 + n / 4096 % 64 ∧ 0x80 + n / 4096 % 64 ≤ high := by
  by_cases h0 : n / 262144 = 0
  · refine ⟨0x90, 0xBF, ?_, by omega, by omega⟩
    rw [h0]
    rfl
  · by_cases h4 : n / 262144 = 4
    · refine ⟨0x80, 0x8F, ?_, by omega, by omega⟩
      rw [h4]
      rfl
    · refine ⟨0x80, 0xBF, ?_, by omega, by omega⟩
      unfold first
      rw [if_neg (by omega), if_neg (by omega), if_neg (by omega), if_neg (by omega),
        if_neg (by omega), if_neg (by omega), if_neg (by omega), if_pos (by omega),
        Nat.add_sub_cancel_left]

theorem run_first {n : Nat} {state : State} {more : List Char} (out : Array Char) (hn : n < 256)
    (h : first n = (state, more)) (bytes : List UInt8) :
    run (.start, out) (UInt8.ofNat n :: bytes) = run (state, out ++ more) bytes := by
  apply run_cons
  rw [UInt8.toNat_ofNat_of_lt' hn]
  exact h

theorem run_encodeChar (c : Char) (out : Array Char) :
    run (.start, out) (encodeChar c) = (.start, out.push c) := by
  have hc := toNat_lt c
  have hvalid := not_surrogate c
  have hback {n : Nat} (hn : n = c.toNat) : out.push (Char.ofNat n) = out.push c := by
    rw [hn, Char.ofNat_toNat]
  simp only [encodeChar]
  generalize c.toNat = n at hc hvalid hback
  split
  · next hone =>
      have hfirst : first n = (.start, [Char.ofNat n]) := if_pos hone
      rw [run_first out (by omega) hfirst]
      exact Prod.ext rfl (hback rfl)
  · split
    · have hfirst : first (0xC0 + n / 64) = (.inside 0 (n / 64) 0x80 0xBF, []) := by
        unfold first
        rw [if_neg (by omega), if_neg (by omega), if_pos (by omega), Nat.add_sub_cancel_left]
      rw [run_first out (by omega) hfirst, Array.appendList_nil,
        run_last out (by omega) (by omega) (by omega)]
      exact Prod.ext rfl (hback (by omega))
    · split
      · obtain ⟨low, high, hfirst, hlow, hhigh⟩ :=
          first_of_three (n := n) (by omega) (by omega) hvalid
        rw [run_first out (by omega) hfirst, Array.appendList_nil,
          run_inside out 0 hlow hhigh (by omega), run_last out (by omega) (by omega) (by omega)]
        exact Prod.ext rfl (hback (by omega))
      · obtain ⟨low, high, hfirst, hlow, hhigh⟩ := first_of_four (n := n) (by omega) hc
        rw [run_first out (by omega) hfirst, Array.appendList_nil,
          run_inside out 1 hlow hhigh (by omega),
          run_inside out 0 (by omega) (by omega) (by omega),
          run_last out (by omega) (by omega) (by omega)]
        exact Prod.ext rfl (hback (by omega))

/-! ## Texts -/

theorem run_append (read : State × Array Char) (xs ys : List UInt8) :
    run read (xs ++ ys) = run (run read xs) ys :=
  List.foldl_append

theorem run_encode (cs : List Char) (out : Array Char) :
    run (.start, out) (encode cs) = (.start, out ++ cs) := by
  induction cs generalizing out with
  | nil => simp [encode, run]
  | cons c cs ih =>
      have hcons : encode (c :: cs) = encodeChar c ++ encode cs := List.flatMap_cons
      rw [hcons, run_append, run_encodeChar, ih]
      simp

theorem decode_encode (cs : List Char) : decode (encode cs) = cs := by
  simp [decode, run_encode, leftover]

@[simp] theorem text_bytes (s : String) : text (bytes s) = s := by
  rw [text, bytes, decode_encode, String.ofList_toList]

@[simp] theorem bytes_append (s t : String) : bytes (s ++ t) = bytes s ++ bytes t := by
  simp [bytes, encode]

theorem bytes_join (texts : List String) : bytes (String.join texts) = texts.flatMap bytes := by
  rw [bytes, encode, String.toList_join, List.flatMap_assoc]
  rfl

theorem bytes_intercalate (separator : String) (texts : List String) :
    bytes (String.intercalate separator texts) =
      List.intercalate (bytes separator) (texts.map bytes) := by
  have hpieces (pieces : List (List Char)) :
      encode (List.intercalate separator.toList pieces) =
        List.intercalate (bytes separator) (pieces.map encode) := by
    induction pieces with
    | nil => rfl
    | cons piece rest ih =>
        cases rest with
        | nil => simp
        | cons next rest =>
            simp only [List.map_cons, List.intercalate_cons_cons] at ih ⊢
            rw [← ih]
            simp [encode, bytes]
  rw [bytes, String.toList_intercalate, hpieces, List.map_map]
  rfl

theorem bytes_ne_nil {s : String} (h : s ≠ "") : bytes s ≠ [] := by
  intro hnil
  apply h
  rw [← text_bytes s, hnil]
  rfl

end RevisionGraph.Text.Utf8
