import RevisionGraph.Proofs.Encoding
import RevisionGraph.Proofs.Reading
import RevisionGraph.Proofs.Unstyling

/-!
# The texts of decoded lines

Two parts of the program read over renditions: the decoder, byte by byte and with a pen, and the
function that takes them out of a text. On texts in which every escape begins a rendition they agree.
The chunks of the decoder show the text that is left (`shows_chunks`), and chunks that show a text come
to the lines of that text (`Shows.map_text_lines`), so the decoded lines read as the pieces between its
line feeds (`map_text_decodeLines`).
-/

namespace RevisionGraph

open Text.Utf8 (encode encodeChar)
open Unstyled (Composed EscapesSet isRendition_of_all)

/-! ## What chunks show -/

/-- Chunks that give a text, line feeds as line breaks, in segments none of which is empty. -/
inductive Shows : List Chunk → List Char → Prop
  | nil : Shows [] []
  | segment {s : Segment} {cs : List Chunk} {text : List Char} :
      s.text ≠ "" → '\n' ∉ s.text.toList → Shows cs text →
        Shows (.segment s :: cs) (s.text.toList ++ text)
  | lineBreak {cs : List Chunk} {text : List Char} :
      Shows cs text → Shows (.lineBreak :: cs) ('\n' :: text)

namespace Decoder

variable {d : Decoder} {held : List Char}

theorem shows_heldChunks (hheld : d.held.toList = encode held) (hbreak : '\n' ∉ held)
    {cs : List Chunk} {text : List Char} (h : Shows cs text) :
    Shows (d.heldChunks ++ cs) (held ++ text) := by
  by_cases hempty : d.held.isEmpty = true
  · have hbytes : encode held = [] := by
      rw [← hheld]
      simpa using hempty
    have hnone : held = [] := by
      rw [← Text.Utf8.decode_encode held, hbytes]
      rfl
    rw [heldChunks, if_pos hempty, hnone]
    exact h
  · have htext : (Text.Utf8.text d.held.toList).toList = held := by
      rw [hheld, Text.Utf8.text, Text.Utf8.decode_encode, String.toList_ofList]
    have hne : Text.Utf8.text d.held.toList ≠ "" := by
      intro hnone
      rw [hnone] at htext
      rw [← htext] at hheld
      exact hempty (Array.isEmpty_iff.mpr (Array.toList_eq_nil_iff.mp hheld))
    have hsegment := Shows.segment (s := ⟨Text.Utf8.text d.held.toList, d.style⟩) hne
      (by rwa [htext]) h
    rw [htext] at hsegment
    rw [heldChunks, if_neg hempty]
    exact hsegment

theorem feed_rendition (hd : d.mode = .text) {sequence : List Char}
    (h : Unstyled.IsRendition sequence) :
    d.feed (encode sequence) = (d, []) ∨
      ∃ pen, d.feed (encode sequence) = (⟨.text, pen, #[]⟩, d.heldChunks) := by
  obtain ⟨parameters, rfl, hparameters⟩ := h
  have hencode : encode ('\x1B' :: '[' :: (parameters ++ ['m'])) =
      0x1B :: 0x5B :: (encode parameters ++ [0x6D]) := by
    simp [encode, encodeChar]
  have hinside : ∀ b ∈ encode parameters, isFinal b = false := by
    intro b hb
    obtain ⟨c, hc, hmem⟩ := List.mem_flatMap.mp hb
    have hbounds := Unstyled.toNat_of_isParameter (Unstyled.isParameter_iff.mpr (hparameters c hc))
    have hbyte := Text.Utf8.toNat_of_mem_encodeChar hmem
    rw [Bool.eq_false_iff, ne_eq, isFinal_iff, UInt8.le_iff_toNat_le, UInt8.le_iff_toNat_le]
    have hlow : (0x40 : UInt8).toNat = 0x40 := rfl
    have hhigh : (0x7E : UInt8).toNat = 0x7E := rfl
    omega
  have hend : step { d with mode := .control (encode parameters).toArray } 0x6D =
      d.select (encode parameters) := rfl
  rw [hencode, feed_controlSequence hd hinside, hend, select]
  split
  · rw [← hd]
    exact .inl rfl
  · exact .inr ⟨_, rfl⟩

theorem shows_chunks {cs : List Char} (h : Composed cs) (hreturn : '\r' ∉ cs)
    (hd : d.mode = .text) (hheld : d.held.toList = encode held) (hbreak : '\n' ∉ held) :
    Shows (d.chunks (encode cs)) (held ++ unstyled cs) := by
  induction h generalizing d held with
  | nil =>
      rw [encode, List.flatMap_nil, chunks_nil, ← List.append_nil d.heldChunks]
      exact shows_heldChunks hheld hbreak .nil
  | @char c cs hc _ ih =>
      rw [List.mem_cons, not_or] at hreturn
      rw [Unstyled.unstyled_cons hc]
      have hencode : encode (c :: cs) = encodeChar c ++ encode cs := List.flatMap_cons
      by_cases hfeed : c = '\n'
      · subst hfeed
        have hstep : d.step 0x0A = ({ d with held := #[] }, d.heldChunks ++ [.lineBreak]) := by
          simp [step, hd]
        have hrest : Shows (chunks { d with held := #[] } (encode cs)) ([] ++ unstyled cs) :=
          ih hreturn.2 hd rfl List.not_mem_nil
        have hbyte : encodeChar '\n' = [0x0A] := rfl
        rw [hencode, hbyte, List.singleton_append, chunks_cons, hstep, List.append_assoc]
        exact shows_heldChunks hheld hbreak (.lineBreak hrest)
      · have htext : ∀ b ∈ encode [c], endsText b = false := by
          intro b
          apply endsText_of_mem_encode
          simpa using ⟨hc, hfeed, Ne.symm hreturn.1⟩
        have hbytes : encode [c] = encodeChar c := List.flatMap_singleton ..
        rw [hbytes] at htext
        have hlonger : (d.held ++ encodeChar c).toList = encode (held ++ [c]) := by
          rw [Array.toList_appendList, hheld, ← hbytes]
          exact List.flatMap_append.symm
        have hunbroken : '\n' ∉ held ++ [c] := by
          simpa using ⟨hbreak, Ne.symm hfeed⟩
        have hrest : Shows (chunks { d with held := d.held ++ encodeChar c } (encode cs))
            ((held ++ [c]) ++ unstyled cs) := ih hreturn.2 hd hlonger hunbroken
        rw [hencode, chunks_append, feed_text hd htext]
        simpa using hrest
  | @rendition sequence cs hsequence _ ih =>
      rw [List.mem_append, not_or] at hreturn
      have hencode : encode (sequence ++ cs) = encode sequence ++ encode cs := List.flatMap_append
      rw [Unstyled.unstyled_rendition_append hsequence, hencode, chunks_append]
      rcases feed_rendition hd hsequence with hsame | ⟨pen, hother⟩
      · rw [hsame]
        exact ih hreturn.2 hd hheld hbreak
      · rw [hother]
        have hrest : Shows (chunks ⟨.text, pen, #[]⟩ (encode cs)) ([] ++ unstyled cs) :=
          ih hreturn.2 rfl rfl List.not_mem_nil
        exact shows_heldChunks hheld hbreak hrest

end Decoder

/-! ## Lines of what is shown -/

/-- What follows the last line feed is no line if it is empty. -/
def Text.withoutEmptyEnd (pieces : List (List Char)) : List (List Char) :=
  if pieces.getLast? = some [] then pieces.dropLast else pieces

namespace Text

theorem withoutEmptyEnd_cons (piece : List Char) {pieces : List (List Char)} (h : pieces ≠ []) :
    withoutEmptyEnd (piece :: pieces) = piece :: withoutEmptyEnd pieces := by
  obtain ⟨first, rest, rfl⟩ := List.exists_cons_of_ne_nil h
  simp only [withoutEmptyEnd, List.getLast?_cons_cons, List.dropLast_cons_cons]
  split <;> rfl

end Text

namespace Line

theorem text_concat (line : Line) (s : Segment) : Line.text (line ++ [s]) = line.text ++ s.text := by
  rw [text_append, text_cons, text_nil, String.append_empty]

theorem text_ne_empty {line : Line} (hline : line ≠ []) (h : ∀ s ∈ line, s.text ≠ "") :
    line.text ≠ "" := by
  obtain ⟨s, rest, rfl⟩ := List.exists_cons_of_ne_nil hline
  have hs := h s (by simp)
  simp [text_cons, hs]

end Line

theorem Shows.map_text_lines {cs : List Chunk} {text : List Char} (h : Shows cs text) {current : Line}
    (hne : ∀ s ∈ current, s.text ≠ "") (hbreak : '\n' ∉ current.text.toList) :
    (Transcript.ofChunks none current cs).lines.map Line.text =
      (Text.withoutEmptyEnd ((current.text.toList ++ text).splitOn '\n')).map String.ofList := by
  induction h generalizing current with
  | nil =>
      rw [List.append_nil, List.splitOn_eq_singleton hbreak]
      by_cases hnone : current = []
      · subst hnone
        rfl
      · have htext : current.text.toList ≠ [] := by
          simpa using Line.text_ne_empty hnone hne
        simp [Transcript.ofChunks, Text.withoutEmptyEnd, hnone, htext]
  | @segment s cs text hs hline _ ih =>
      have hrest : (Transcript.ofChunks none (current ++ [s]) cs).lines.map Line.text =
          (Text.withoutEmptyEnd (((current ++ [s] : Line).text.toList ++ text).splitOn '\n')).map
            String.ofList := by
        apply ih
        · intro t ht
          rcases List.mem_append.mp ht with hmem | hlast
          · exact hne t hmem
          · rw [List.mem_singleton.mp hlast]
            exact hs
        · rw [Line.text_concat, String.toList_append, List.mem_append, not_or]
          exact ⟨hbreak, hline⟩
      rw [Line.text_concat, String.toList_append, List.append_assoc] at hrest
      exact hrest
  | @lineBreak cs text _ ih =>
      have hrest : (Transcript.ofChunks none [] cs).lines.map Line.text =
          (Text.withoutEmptyEnd (text.splitOn '\n')).map String.ofList :=
        ih (by simp) List.not_mem_nil
      rw [List.splitOn_append_cons_self_of_not_mem hbreak,
        Text.withoutEmptyEnd_cons _ (List.splitOn_ne_nil _ _), List.map_cons, String.ofList_toList,
        ← hrest]
      rfl

/-- The lines of a text without carriage returns in which every escape begins a rendition read as the
pieces between the line feeds of what is left without the renditions. -/
theorem map_text_decodeLines (s : String) (hreturn : '\r' ∉ s.toList)
    (hescape : EscapesSet s.toList) :
    (decodeLines s).map Line.text =
      (Text.withoutEmptyEnd ((unstyled s.toList).splitOn '\n')).map String.ofList := by
  have hshows := Decoder.shows_chunks (d := .initial) hescape.composed hreturn rfl rfl
    List.not_mem_nil
  rw [decodeLines_eq_ofChunks]
  exact hshows.map_text_lines (by simp) List.not_mem_nil

theorem map_text_decodeLines_of_coloured_lines :
    let s := "\x1B[1mé\x1B[38;5;5mx\n\n\x1B[m│\n\x1B[0m"
    '\r' ∉ s.toList ∧ EscapesSet s.toList ∧
      (decodeLines s).map Line.text = ["éx", "", "│"] := by
  intro s
  have hreturn : '\r' ∉ s.toList := by decide
  have hchars : s.toList = ['\x1B', '[', '1', 'm'] ++ 'é' :: (['\x1B', '[', '3', '8', ';', '5', ';',
      '5', 'm'] ++ 'x' :: '\n' :: '\n' :: (['\x1B', '[', 'm'] ++ '│' :: '\n' ::
        (['\x1B', '[', '0', 'm'] ++ []))) := by
    decide
  have hescape : EscapesSet s.toList := by
    rw [hchars]
    apply Composed.escapesSet
    refine .rendition (isRendition_of_all ['1'] rfl) (.char (by decide) ?_)
    refine .rendition (isRendition_of_all ['3', '8', ';', '5', ';', '5'] rfl) ?_
    refine .char (by decide) (.char (by decide) (.char (by decide) ?_))
    refine .rendition (isRendition_of_all [] rfl) (.char (by decide) (.char (by decide) ?_))
    exact .rendition (isRendition_of_all ['0'] rfl) .nil
  refine ⟨hreturn, hescape, ?_⟩
  rw [map_text_decodeLines s hreturn hescape]
  decide

end RevisionGraph
