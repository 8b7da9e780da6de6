import Mathlib.Data.List.TakeWhile
import RevisionGraph.Proofs.Encoding
import RevisionGraph.Terminal.Decoder

/-!
# Decoding slices

Taking text or a command in one go does what its bytes do one after another, so reading a slice is a
fold over its bytes (`scan_eq_foldl`). The decoder therefore carries all that a cut between two slices
separates: feeding slices is feeding what they make up (`feedAll_eq_feed`).
-/

namespace RevisionGraph.Decoder

/-! ## Bytes taken in one go -/

private theorem foldl_push_text {d : Decoder} (hd : d.mode = .text) {run : List UInt8}
    (hrun : ∀ b ∈ run, endsText b = false) (out : Array Chunk) :
    run.foldl push (d, out) = ({ d with held := d.held ++ run }, out) := by
  induction run generalizing d with
  | nil => simp
  | cons b run ih =>
      have hb : b ≠ 0x1B ∧ b ≠ 0x0A ∧ b ≠ 0x0D := by
        have h := hrun b (by simp)
        simp only [endsText, Bool.or_eq_false_iff, beq_eq_false_iff_ne, ne_eq] at h
        exact ⟨h.1.1, h.1.2, h.2⟩
      have hstep : d.step b = ({ d with held := d.held.push b }, []) := by
        simp only [step, hd, if_neg hb.1, if_neg hb.2.1, if_neg hb.2.2]
      have hrest : ∀ c ∈ run, endsText c = false := fun c hc => hrun c (by simp [hc])
      rw [List.foldl_cons]
      simp only [push, hstep, Array.append_empty]
      rw [ih (by exact hd) hrest]
      simp

private theorem foldl_push_command {d : Decoder} (hd : d.mode = .command) {run : List UInt8}
    (hrun : ∀ b ∈ run, endsCommand b = false) (out : Array Chunk) :
    run.foldl push (d, out) = (d, out) := by
  induction run with
  | nil => rfl
  | cons b run ih =>
      have hb : b ≠ 0x07 ∧ b ≠ 0x1B := by
        have h := hrun b (by simp)
        simp only [endsCommand, Bool.or_eq_false_iff, beq_eq_false_iff_ne, ne_eq] at h
        exact h
      have hstep : d.step b = (d, []) := by
        simp only [step, hd, if_neg hb.1, if_neg hb.2]
      rw [List.foldl_cons]
      simp only [push, hstep, Array.append_empty]
      exact ih fun c hc => hrun c (by simp [hc])

theorem foldl_push_skim (d : Decoder) (out : Array Chunk) (bytes : List UInt8) :
    bytes.foldl push (d, out) = (d.skim bytes).2.foldl push ((d.skim bytes).1, out) := by
  cases hd : d.mode with
  | text =>
      have hrun : ∀ b ∈ bytes.takeWhile fun b => !endsText b, endsText b = false := by
        intro b hb
        have h := List.mem_takeWhile_imp hb
        simpa using h
      simp only [skim, hd]
      calc
        bytes.foldl push (d, out)
            = ((bytes.takeWhile fun b => !endsText b) ++
                bytes.dropWhile fun b => !endsText b).foldl push (d, out) := by
              rw [List.takeWhile_append_dropWhile]
        _ = _ := by rw [List.foldl_append, foldl_push_text hd hrun, hd]
  | command =>
      have hrun : ∀ b ∈ bytes.takeWhile fun b => !endsCommand b, endsCommand b = false := by
        intro b hb
        have h := List.mem_takeWhile_imp hb
        simpa using h
      simp only [skim, hd]
      calc
        bytes.foldl push (d, out)
            = ((bytes.takeWhile fun b => !endsCommand b) ++
                bytes.dropWhile fun b => !endsCommand b).foldl push (d, out) := by
              rw [List.takeWhile_append_dropWhile]
        _ = _ := by rw [List.foldl_append, foldl_push_command hd hrun]
  | escape => simp only [skim, hd]
  | control parameters => simp only [skim, hd]
  | commandEscape => simp only [skim, hd]

theorem scan_eq_foldl (s : Decoder × Array Chunk) (bytes : List UInt8) :
    scan s bytes = bytes.foldl push s := by
  fun_induction scan s bytes with
  | case1 s bytes d hskim =>
      have h := foldl_push_skim s.1 s.2 bytes
      rw [hskim] at h
      exact h.symm
  | case2 s bytes d b rest hskim ih =>
      have h := foldl_push_skim s.1 s.2 bytes
      rw [hskim, List.foldl_cons] at h
      exact ih.trans h.symm

/-! ## Slices one after another -/

private theorem foldl_push (bytes : List UInt8) (d : Decoder) (out : Array Chunk) :
    bytes.foldl push (d, out) =
      ((bytes.foldl push (d, #[])).1, out ++ (bytes.foldl push (d, #[])).2) := by
  induction bytes generalizing d out with
  | nil => simp
  | cons b bytes ih =>
      rw [List.foldl_cons, List.foldl_cons]
      simp only [push]
      rw [ih, ih (d.step b).1 (#[] ++ (d.step b).2.toArray)]
      simp

private theorem feed_eq_foldl (d : Decoder) (bytes : List UInt8) :
    d.feed bytes = ((bytes.foldl push (d, #[])).1, (bytes.foldl push (d, #[])).2.toList) := by
  simp only [feed, scan_eq_foldl]

@[simp] theorem feed_nil (d : Decoder) : d.feed [] = (d, []) := by
  rw [feed_eq_foldl]
  rfl

theorem feed_append (d : Decoder) (xs ys : List UInt8) :
    d.feed (xs ++ ys) =
      (((d.feed xs).1.feed ys).1, (d.feed xs).2 ++ ((d.feed xs).1.feed ys).2) := by
  simp only [feed_eq_foldl, List.foldl_append]
  rw [foldl_push ys]
  simp

theorem feed_cons (d : Decoder) (b : UInt8) (bytes : List UInt8) :
    d.feed (b :: bytes) =
      (((d.step b).1.feed bytes).1, (d.step b).2 ++ ((d.step b).1.feed bytes).2) := by
  have hone : d.feed [b] = d.step b := by
    rw [feed_eq_foldl]
    simp [push]
  rw [← List.singleton_append, feed_append, hone]

theorem feed_text {d : Decoder} (hd : d.mode = .text) {run : List UInt8}
    (hrun : ∀ b ∈ run, endsText b = false) :
    d.feed run = ({ d with held := d.held ++ run }, []) := by
  rw [feed_eq_foldl, foldl_push_text hd hrun]

theorem endsText_of_mem_encode {cs : List Char} (h : ∀ c ∈ cs, c ≠ '\x1B' ∧ c ≠ '\n' ∧ c ≠ '\r')
    {b : UInt8} (hb : b ∈ Text.Utf8.encode cs) : endsText b = false := by
  obtain ⟨c, hc, hmem⟩ := List.mem_flatMap.mp hb
  have hother (n : UInt8) (special : Char) (hn : n.toNat < 0x80) (hspecial : n.toNat = special.toNat)
      (hne : c ≠ special) : b ≠ n := by
    rintro rfl
    rcases Text.Utf8.toNat_of_mem_encodeChar hmem with heq | hhigh
    · apply hne
      rw [← Char.ofNat_toNat c, ← heq, hspecial, Char.ofNat_toNat]
    · omega
  have hescape := hother 0x1B '\x1B' (by decide) rfl (h c hc).1
  have hfeed := hother 0x0A '\n' (by decide) rfl (h c hc).2.1
  have hreturn := hother 0x0D '\r' (by decide) rfl (h c hc).2.2
  simp [endsText, hescape, hfeed, hreturn]

theorem isFinal_iff {b : UInt8} : isFinal b = true ↔ 0x40 ≤ b ∧ b ≤ 0x7E := by
  simp [isFinal]

theorem feed_control (d : Decoder) (parameters : Array UInt8) {run : List UInt8}
    (hrun : ∀ b ∈ run, isFinal b = false) :
    feed { d with mode := .control parameters } run =
      ({ d with mode := .control (parameters ++ run) }, []) := by
  induction run generalizing parameters with
  | nil => simp
  | cons b run ih =>
      have hstep : step { d with mode := .control parameters } b =
          ({ d with mode := .control (parameters.push b) }, []) := by
        simp [step, hrun b (by simp)]
      rw [feed_cons, hstep, ih _ fun c hc => hrun c (by simp [hc])]
      simp

theorem feed_controlSequence {d : Decoder} (hd : d.mode = .text) {parameters : List UInt8}
    (h : ∀ b ∈ parameters, isFinal b = false) (final : UInt8) :
    d.feed (0x1B :: 0x5B :: (parameters ++ [final])) =
      step { d with mode := .control parameters.toArray } final := by
  have hescape : d.step 0x1B = ({ d with mode := .escape }, []) := by
    simp [step, hd]
  have hcontrol : step { d with mode := .escape } 0x5B = ({ d with mode := .control #[] }, []) := by
    simp [step]
  have hparameters : (#[] : Array UInt8) ++ parameters = parameters.toArray := by simp
  rw [feed_cons, hescape, feed_cons, hcontrol, feed_append, feed_control d #[] h, hparameters,
    feed_cons, feed_nil]
  simp

theorem feed_command {d : Decoder} (hd : d.mode = .command) {run : List UInt8}
    (hrun : ∀ b ∈ run, endsCommand b = false) : d.feed run = (d, []) := by
  rw [feed_eq_foldl, foldl_push_command hd hrun]

def chunks (d : Decoder) (bytes : List UInt8) : List Chunk :=
  (d.feed bytes).2 ++ (d.feed bytes).1.heldChunks

theorem chunks_nil (d : Decoder) : d.chunks [] = d.heldChunks := by
  rw [chunks, feed_nil, List.nil_append]

theorem chunks_append (d : Decoder) (xs ys : List UInt8) :
    d.chunks (xs ++ ys) = (d.feed xs).2 ++ (d.feed xs).1.chunks ys := by
  simp only [chunks, feed_append, List.append_assoc]

theorem chunks_cons (d : Decoder) (b : UInt8) (bytes : List UInt8) :
    d.chunks (b :: bytes) = (d.step b).2 ++ (d.step b).1.chunks bytes := by
  simp only [chunks, feed_cons, List.append_assoc]

def feedAll (d : Decoder) : List (List UInt8) → Decoder × List Chunk
  | [] => (d, [])
  | slice :: rest =>
      let (d, out) := d.feed slice
      let (d, more) := d.feedAll rest
      (d, out ++ more)

theorem feedAll_eq_feed (d : Decoder) (slices : List (List UInt8)) :
    d.feedAll slices = d.feed slices.flatten := by
  induction slices generalizing d with
  | nil => rw [List.flatten_nil, feed_nil, feedAll]
  | cons slice rest ih =>
      rw [List.flatten_cons, feed_append, feedAll]
      simp only [ih]

/-- The chunks of slices that end the input, and the style after them. -/
def decode (slices : List (List UInt8)) : List Chunk × Style :=
  let (d, out) := initial.feedAll slices
  let (d, more) := d.finish
  (out ++ more, d.style)

theorem decode_eq (slices : List (List UInt8)) : decode slices = decode [slices.flatten] := by
  simp only [decode, feedAll_eq_feed, List.flatten_singleton]

end RevisionGraph.Decoder
