import RevisionGraph.Proofs.Decoding

/-!
# Sequences that set no rendition

A complete escape sequence that sets no rendition takes the decoder from text back to text and leaves
the pen and the text held as they were (`feed_of_isSilent`). So it can stand anywhere in an input, even
inside a character, and the input reads as it does without it (`decode_eq_of_isSilent`).
-/

namespace RevisionGraph.Decoder

/-- Bytes that make up one escape sequence other than a rendition. Between its ends there may be any
bytes that do not end it: line breaks, digits, and bytes of no character. -/
inductive IsSilent : List UInt8 → Prop
  | control {parameters : List UInt8} {final : UInt8}
      (inside : ∀ b ∈ parameters, ¬ (0x40 ≤ b ∧ b ≤ 0x7E)) (ends : 0x40 ≤ final ∧ final ≤ 0x7E)
      (other : final ≠ 0x6D) : IsSilent (0x1B :: 0x5B :: (parameters ++ [final]))
  | command {body ending : List UInt8} (inside : ∀ b ∈ body, b ≠ 0x07 ∧ b ≠ 0x1B)
      (ends : ending = [0x07] ∨ ∃ b, ending = [0x1B, b]) : IsSilent (0x1B :: 0x5D :: (body ++ ending))
  | pair {b : UInt8} (other : b ≠ 0x5B ∧ b ≠ 0x5D) : IsSilent [0x1B, b]

variable {d : Decoder} {sequence : List UInt8}

theorem feed_of_isSilent (hd : d.mode = .text) (h : IsSilent sequence) : d.feed sequence = (d, []) := by
  obtain ⟨mode, pen, held⟩ := d
  obtain rfl : mode = .text := hd
  have hescape : step ⟨.text, pen, held⟩ 0x1B = (⟨.escape, pen, held⟩, []) := rfl
  cases h with
  | @control parameters final inside ends other =>
      have hparameters : ∀ b ∈ parameters, isFinal b = false := fun b hb =>
        Bool.eq_false_iff.mpr fun hfinal => inside b hb (isFinal_iff.mp hfinal)
      rw [feed_controlSequence rfl hparameters]
      simp [step, isFinal_iff.mpr ends, other]
  | @command body ending inside ends =>
      have hopen : step ⟨.escape, pen, held⟩ 0x5D = (⟨.command, pen, held⟩, []) := rfl
      have hbody : feed ⟨.command, pen, held⟩ body = (⟨.command, pen, held⟩, []) := by
        apply feed_command rfl
        intro b hb
        simpa [endsCommand] using inside b hb
      have hending : feed ⟨.command, pen, held⟩ ending = (⟨.text, pen, held⟩, []) := by
        rcases ends with rfl | ⟨b, rfl⟩
        · rw [feed_cons, feed_nil]
          rfl
        · rw [feed_cons, feed_cons, feed_nil]
          rfl
      rw [feed_cons, hescape, feed_cons, hopen, feed_append, hbody, hending]
      rfl
  | @pair b other =>
      have hpair : step ⟨.escape, pen, held⟩ b = (⟨.text, pen, held⟩, []) := by
        simp [step, other]
      rw [feed_cons, hescape, feed_cons, hpair, feed_nil]
      rfl

/-- Behind bytes that leave the decoder in text, a sequence that sets no rendition makes no difference
to the chunks nor to the last style, however the input is cut. -/
theorem decode_eq_of_isSilent {before after : List UInt8}
    (hbefore : (initial.feed before).1.mode = .text) (h : IsSilent sequence)
    {slices others : List (List UInt8)} (hslices : slices.flatten = before ++ sequence ++ after)
    (hothers : others.flatten = before ++ after) : decode slices = decode others := by
  have hfeed : initial.feed (before ++ sequence ++ after) = initial.feed (before ++ after) := by
    rw [feed_append, feed_append, feed_of_isSilent hbefore h, feed_append]
    simp
  simp only [decode, feedAll_eq_feed, hslices, hothers, hfeed]

theorem decode_eq_of_isSilent_in_character :
    (initial.feed [0xC3]).1.mode = .text ∧ IsSilent [0x1B, 0x5B, 0x0A, 0x31, 0x4B] ∧
      decode [[0xC3, 0x1B], [0x5B, 0x0A], [0x31, 0x4B, 0xA9]] = decode [[0xC3, 0xA9]] := by
  have hbefore : (initial.feed [0xC3]).1.mode = .text := by
    rw [feed_cons, feed_nil]
    rfl
  have hsilent : IsSilent [0x1B, 0x5B, 0x0A, 0x31, 0x4B] :=
    @IsSilent.control [0x0A, 0x31] 0x4B (by simp) (by decide) (by decide)
  have hslices : [[0xC3, 0x1B], [0x5B, 0x0A], [0x31, 0x4B, 0xA9]].flatten =
      [0xC3] ++ [0x1B, 0x5B, 0x0A, 0x31, 0x4B] ++ [(0xA9 : UInt8)] := rfl
  exact ⟨hbefore, hsilent, decode_eq_of_isSilent hbefore hsilent hslices rfl⟩

end RevisionGraph.Decoder
