import Mathlib.Data.List.Chain
import Mathlib.Data.List.Infix
import RevisionGraph.Proofs.Decoding

/-!
# Neighbouring segments

The text held is given out as soon as the pen changes. A pen that changes and comes back before the
next text leaves two segments of one style next to each other, with nothing between them. This is the
only way for neighbours to share a style: they all differ if and only if the pen never comes back
between two texts of a line (`neighbours_differ_iff`).

What the bytes do to the text is written down as strokes of the pen (`Decoder.strokes`), so that the
condition speaks of the input alone.
-/

namespace RevisionGraph

def Chunk.Differ : Chunk → Chunk → Prop
  | .segment s, .segment t => s.style ≠ t.style
  | .segment _, .lineBreak | .lineBreak, .segment _ | .lineBreak, .lineBreak => True

@[simp] theorem Chunk.differ_lineBreak (c : Chunk) : c.Differ .lineBreak := by
  cases c <;> trivial

@[simp] theorem Chunk.lineBreak_differ (c : Chunk) : Chunk.Differ .lineBreak c := by
  cases c <;> trivial

/-! ## Strokes -/

/-- What a byte can do to the text. -/
inductive Stroke where
  | text (style : Style)
  | lineBreak
  | penChange
  deriving DecidableEq, Repr

/-- Somewhere on a line the pen changes after a text and is the same again at the next one. -/
def Stroke.Returns (ms : List Stroke) : Prop :=
  ∃ style n, (.text style :: List.replicate (n + 1) .penChange ++ [.text style]) <:+: ms

/-- The pen, which may change some more times, is this one at the next text of the line. -/
def Stroke.Resumes (style : Style) : List Stroke → Prop
  | .penChange :: ms => Resumes style ms
  | .text t :: _ => style = t
  | .lineBreak :: _ | [] => False

namespace Stroke

theorem resumes_iff {style : Style} {ms : List Stroke} :
    Resumes style ms ↔ ∃ n, (List.replicate n .penChange ++ [.text style]) <+: ms := by
  induction ms with
  | nil => simp [Resumes]
  | cons m ms ih =>
      cases m with
      | penChange =>
          rw [Resumes, ih]
          constructor
          · rintro ⟨n, hn⟩
            exact ⟨n + 1, by simpa [List.replicate_succ] using hn⟩
          · rintro ⟨n, hn⟩
            cases n with
            | zero => simp at hn
            | succ n => exact ⟨n, by simpa [List.replicate_succ] using hn⟩
      | text t =>
          rw [Resumes]
          constructor
          · rintro rfl
            exact ⟨0, by simp⟩
          · rintro ⟨n, hn⟩
            cases n with
            | zero => simpa using hn
            | succ n => simp [List.replicate_succ] at hn
      | lineBreak =>
          rw [Resumes]
          refine ⟨False.elim, ?_⟩
          rintro ⟨n, hn⟩
          cases n <;> simp [List.replicate_succ] at hn

@[simp] theorem not_returns_nil : ¬ Returns [] := by
  simp [Returns]

@[simp] theorem returns_penChange_cons {ms : List Stroke} :
    Returns (.penChange :: ms) ↔ Returns ms := by
  simp [Returns, List.infix_cons_iff]

@[simp] theorem returns_lineBreak_cons {ms : List Stroke} :
    Returns (.lineBreak :: ms) ↔ Returns ms := by
  simp [Returns, List.infix_cons_iff]

@[simp] theorem not_returns_text {style : Style} : ¬ Returns [.text style] := by
  simp [Returns, List.infix_cons_iff]

@[simp] theorem returns_text_text {s t : Style} {ms : List Stroke} :
    Returns (.text s :: .text t :: ms) ↔ Returns (.text t :: ms) := by
  simp [Returns, List.infix_cons_iff, List.replicate_succ]

@[simp] theorem returns_text_lineBreak {style : Style} {ms : List Stroke} :
    Returns (.text style :: .lineBreak :: ms) ↔ Returns ms := by
  simp [Returns, List.infix_cons_iff, List.replicate_succ]

@[simp] theorem returns_text_penChange {style : Style} {ms : List Stroke} :
    Returns (.text style :: .penChange :: ms) ↔ Resumes style ms ∨ Returns ms := by
  constructor
  · rintro ⟨t, n, h⟩
    rcases List.infix_cons_iff.mp h with hfirst | hlater
    · simp only [List.replicate_succ, List.cons_append, List.cons_prefix_cons, Stroke.text.injEq,
        true_and] at hfirst
      obtain ⟨rfl, hrest⟩ := hfirst
      exact .inl (resumes_iff.mpr ⟨n, hrest⟩)
    · exact .inr (returns_penChange_cons.mp ⟨t, n, hlater⟩)
  · rintro (h | ⟨t, n, h⟩)
    · obtain ⟨n, h⟩ := resumes_iff.mp h
      refine ⟨style, n, List.IsPrefix.isInfix ?_⟩
      simpa only [List.replicate_succ, List.cons_append, List.cons_prefix_cons, true_and] using h
    · exact ⟨t, n, List.infix_cons (List.infix_cons h)⟩

/-- The text that comes next on the line has the style of this chunk, after which the pen has
changed. -/
def Continues : Chunk → List Stroke → Prop
  | .segment s, ms => Resumes s.style ms
  | .lineBreak, _ => False

@[simp] theorem continues_segment {s : Segment} {ms : List Stroke} :
    Continues (.segment s) ms ↔ Resumes s.style ms :=
  Iff.rfl

@[simp] theorem not_lineBreak_continues {ms : List Stroke} : ¬ Continues .lineBreak ms :=
  id

@[simp] theorem not_continues_nil {before : Chunk} : ¬ Continues before [] := by
  cases before <;> exact id

@[simp] theorem not_continues_lineBreak_cons {before : Chunk} {ms : List Stroke} :
    ¬ Continues before (.lineBreak :: ms) := by
  cases before <;> exact id

@[simp] theorem continues_penChange_cons {before : Chunk} {ms : List Stroke} :
    Continues before (.penChange :: ms) ↔ Continues before ms := by
  cases before <;> exact Iff.rfl

theorem continues_text_cons {before : Chunk} (text : String) {style : Style} {ms : List Stroke} :
    Continues before (.text style :: ms) ↔ ¬ Chunk.Differ before (.segment ⟨text, style⟩) := by
  cases before with
  | segment s => exact not_not.symm
  | lineBreak => exact not_true.symm

end Stroke

namespace Decoder

/-- What a byte does to the text. A rendition that leaves the pen as it is does nothing. -/
def stroke? (d : Decoder) (b : UInt8) : Option Stroke :=
  match d.mode with
  | .text =>
      if b = 0x0A then some .lineBreak
      else if endsText b then none
      else some (.text d.style)
  | .control parameters =>
      if b = 0x6D ∧ Sgr.apply d.pen parameters.toList ≠ d.pen then some .penChange else none
  | .escape | .command | .commandEscape => none

def strokes (d : Decoder) : List UInt8 → List Stroke
  | [] => []
  | b :: rest => (d.stroke? b).toList ++ strokes (d.step b).1 rest

def heldStrokes (d : Decoder) : List Stroke :=
  if d.held.isEmpty then [] else [.text d.style]

inductive Reads (d : Decoder) : Decoder → List Chunk → Option Stroke → Prop
  | quiet (mode : Mode) : Reads d { d with mode } [] none
  | text (b : UInt8) : Reads d { d with held := d.held.push b } [] (some (.text d.style))
  | lineBreak :
      Reads d { d with held := #[] } (d.heldChunks ++ [.lineBreak]) (some .lineBreak)
  | penChange (pen : Pen) : Reads d ⟨.text, pen, #[]⟩ d.heldChunks (some .penChange)

theorem reads_step (d : Decoder) (b : UInt8) :
    d.Reads (d.step b).1 (d.step b).2 (d.stroke? b) := by
  obtain ⟨mode, pen, held⟩ := d
  cases mode with
  | text =>
      by_cases hescape : b = 0x1B
      · subst hescape
        exact .quiet .escape
      by_cases hbreak : b = 0x0A
      · subst hbreak
        exact .lineBreak
      by_cases hreturn : b = 0x0D
      · subst hreturn
        exact .quiet .text
      have hends : endsText b = false := by simp [endsText, hescape, hbreak, hreturn]
      simp only [step, stroke?, hescape, hbreak, hreturn, hends, if_false, Bool.false_eq_true]
      exact .text b
  | escape =>
      simp only [step, stroke?]
      split
      · exact .quiet _
      · split
        · exact .quiet _
        · exact .quiet _
  | control parameters =>
      simp only [step, stroke?, select]
      by_cases hrendition : b = 0x6D
      · subst hrendition
        have hfinal : isFinal 0x6D = true := rfl
        by_cases hpen : Sgr.apply pen parameters.toList = pen
        · simp only [hfinal, hpen, if_true, ne_eq, not_true, and_false, if_false]
          exact .quiet .text
        · simp only [hfinal, hpen, if_true, ne_eq, not_false_eq_true, and_self, if_false]
          exact .penChange _
      · simp only [hrendition, if_false, false_and]
        split
        · exact .quiet _
        · exact .quiet _
  | command =>
      simp only [step, stroke?]
      split
      · exact .quiet _
      · split
        · exact .quiet _
        · exact .quiet _
  | commandEscape => exact .quiet .text

theorem held_cases (d : Decoder) :
    (d.heldChunks = [] ∧ d.heldStrokes = []) ∨
      ∃ text, d.heldChunks = [.segment ⟨text, d.style⟩] ∧ d.heldStrokes = [.text d.style] := by
  by_cases hheld : d.held.isEmpty = true
  · exact .inl ⟨if_pos hheld, if_pos hheld⟩
  · exact .inr ⟨_, if_neg hheld, if_neg hheld⟩

theorem isChain_chunks (d : Decoder) (before : Chunk) (bytes : List UInt8) :
    (before :: d.chunks bytes).IsChain Chunk.Differ ↔
      ¬ (Stroke.Continues before (d.heldStrokes ++ d.strokes bytes) ∨
        Stroke.Returns (d.heldStrokes ++ d.strokes bytes)) := by
  induction bytes generalizing d before with
  | nil =>
      rw [chunks_nil, strokes, List.append_nil]
      rcases d.held_cases with ⟨hchunks, hstrokes⟩ | ⟨text, hchunks, hstrokes⟩
      · simp [hchunks, hstrokes]
      · simp [hchunks, hstrokes, Stroke.continues_text_cons text]
  | cons b bytes ih =>
      have hreads := d.reads_step b
      rw [chunks_cons, strokes]
      generalize (d.step b).1 = next at hreads
      generalize (d.step b).2 = out at hreads
      generalize d.stroke? b = stroke at hreads
      cases hreads with
      | quiet mode => exact ih { d with mode } before
      | text b =>
          have hnext : heldStrokes { d with held := d.held.push b } = [.text d.style] :=
            if_neg (by simp)
          have hrest := ih { d with held := d.held.push b } before
          rw [hnext] at hrest
          rcases d.held_cases with ⟨-, hstrokes⟩ | ⟨text, -, hstrokes⟩
          · rw [hstrokes]
            exact hrest
          · -- More text of the style of the text held.
            rw [hstrokes]
            simpa [Stroke.continues_text_cons text] using hrest
      | lineBreak =>
          have hrest := ih { d with held := #[] } .lineBreak
          have hnext : heldStrokes { d with held := #[] } = [] := rfl
          rcases d.held_cases with ⟨hchunks, hstrokes⟩ | ⟨text, hchunks, hstrokes⟩
          · simpa [hchunks, hstrokes, hnext] using hrest
          · simp [hchunks, hstrokes, hnext, hrest, Stroke.continues_text_cons text]
      | penChange pen =>
          have hnext : heldStrokes ⟨.text, pen, #[]⟩ = [] := rfl
          rcases d.held_cases with ⟨hchunks, hstrokes⟩ | ⟨text, hchunks, hstrokes⟩
          · simpa [hchunks, hstrokes, hnext] using ih ⟨.text, pen, #[]⟩ before
          · have hrest := ih ⟨.text, pen, #[]⟩ (.segment ⟨text, d.style⟩)
            simp [hchunks, hstrokes, hnext, hrest, Stroke.continues_text_cons text]

theorem decode_chunks (slices : List (List UInt8)) :
    (decode slices).1 = initial.chunks slices.flatten := by
  simp only [decode, feedAll_eq_feed]
  rfl

/-- However the input of a fresh decoder is sliced, all neighbouring segments differ in style if and
only if the pen never changes after a text and is back at the next text of the line. -/
theorem neighbours_differ_iff (slices : List (List UInt8)) :
    (decode slices).1.IsChain Chunk.Differ ↔ ¬ Stroke.Returns (initial.strokes slices.flatten) := by
  have hbreak := isChain_chunks initial .lineBreak slices.flatten
  have hheld : initial.heldStrokes = [] := rfl
  rw [decode_chunks]
  simpa [List.isChain_cons, hheld] using hbreak

/-- Bold is turned off and on again between two texts, and they become two bold segments. -/
theorem neighbours_share_style :
    let slices := [Text.Utf8.bytes "\x1B[1mx\x1B[m\x1B[1my"]
    let bold := Style.plain.withModifier .bold
    (decode slices).1 = [.segment ⟨"x", bold⟩, .segment ⟨"y", bold⟩] ∧
      ¬ (decode slices).1.IsChain Chunk.Differ := by
  intro slices bold
  have hchunks : (decode slices).1 = [.segment ⟨"x", bold⟩, .segment ⟨"y", bold⟩] := by
    decide +kernel
  refine ⟨hchunks, ?_⟩
  rw [hchunks, List.isChain_pair]
  exact fun hdiffer => hdiffer rfl

end Decoder

end RevisionGraph
