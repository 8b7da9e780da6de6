import RevisionGraph.Proofs.Decoding
import RevisionGraph.Terminal.Reader

/-!
# Reading does not depend on cuts

What a chunk reader still has to give is a function of its source (`Source.chunks`), and what a line
reader still has to give is a function of those chunks (`Transcript.ofChunks`). Both are unchanged by
a read, so a transcript depends on the bytes of a source and on its failure only.
-/

namespace RevisionGraph

/-! ## Sources -/

namespace Source

def failure? : Source → Option String
  | [] => none
  | .failed message :: _ => some message
  | .bytes _ :: rest | .interrupted :: rest => failure? rest

/-- Delivers bytes in pieces, with interruptions between them. -/
inductive Delivers : List UInt8 → Source → Prop
  | nil : Delivers [] []
  | piece {b rest : List UInt8} {source : Source} :
      b ≠ [] → Delivers rest source → Delivers (b ++ rest) (.bytes b :: source)
  | interrupted {b : List UInt8} {source : Source} :
      Delivers b source → Delivers b (.interrupted :: source)

theorem Delivers.content_eq {b : List UInt8} {source : Source} (h : Delivers b source) :
    source.content = b := by
  induction h with
  | nil => rfl
  | piece _ _ ih => rw [content, ih]
  | interrupted _ ih => rw [content, ih]

theorem Delivers.failure?_eq {b : List UInt8} {source : Source} (h : Delivers b source) :
    source.failure? = none := by
  induction h with
  | nil => rfl
  | piece _ _ ih => exact ih
  | interrupted _ ih => exact ih

def chunks (d : Decoder) : Source → List Chunk × Option String
  | [] => (d.finish.2, none)
  | .bytes b :: rest =>
      let (d', out) := d.feed b
      let (more, failure) := chunks d' rest
      (out ++ more, failure)
  | .interrupted :: rest => chunks d rest
  | .failed message :: _ => ([], some message)

theorem chunks_read (d : Decoder) (source : Source) :
    chunks d source =
      match source.read with
      | (.bytes [], _) => (d.finish.2, none)
      | (.bytes (b :: bs), rest) =>
          ((d.feed (b :: bs)).2 ++ (chunks (d.feed (b :: bs)).1 rest).1,
            (chunks (d.feed (b :: bs)).1 rest).2)
      | (.interrupted, rest) => chunks d rest
      | (.failed message, _) => ([], some message) := by
  fun_induction read source with
  | case1 => rfl
  | case2 rest => rfl
  | case3 message rest => rfl
  | case4 rest ih =>
      rw [← ih]
      simp only [chunks, Decoder.feed_nil, List.nil_append]
  | case5 b bs rest =>
      have hcut := List.take_append_drop bufferSize (b :: bs)
      have hfeed := Decoder.feed_append d ((b :: bs).take bufferSize) ((b :: bs).drop bufferSize)
      rw [hcut] at hfeed
      simp only [chunks, hfeed, List.append_assoc]
      rfl

theorem chunks_eq (d : Decoder) (source : Source) :
    chunks d source =
      ((d.feed source.content).2 ++
          (if source.failure? = none then (d.feed source.content).1.finish.2 else []),
        source.failure?) := by
  induction source generalizing d with
  | nil => simp [chunks, content, failure?]
  | cons r rest ih =>
      cases r with
      | bytes b =>
          have hfeed := Decoder.feed_append d b (content rest)
          simp only [chunks, content, failure?, hfeed, List.append_assoc]
          rw [ih]
      | interrupted => exact ih d
      | failed message => simp [chunks, content, failure?]

end Source

/-! ## Chunk readers -/

namespace ChunkReader

/-- What the reader has still to give. -/
def remaining (r : ChunkReader) : List Chunk × Option String :=
  if r.done then (r.pending, none)
  else (r.pending ++ (r.source.chunks r.decoder).1, (r.source.chunks r.decoder).2)

theorem remaining_fill (r : ChunkReader) :
    match r.fill with
    | (r', none) => r'.remaining = r.remaining ∧ (r'.pending = [] → r'.done = true)
    | (_, some message) => r.remaining = ([], some message) := by
  have hopen {r : ChunkReader} (h : (r.pending.isEmpty && !r.done) = true) :
      r.remaining = r.source.chunks r.decoder := by
    simp only [Bool.and_eq_true, List.isEmpty_iff, Bool.not_eq_true'] at h
    simp only [remaining, h.1, h.2, Bool.false_eq_true, if_false, List.nil_append]
  fun_induction fill r with
  | case1 r h rest hread ih =>
      have hrest : ChunkReader.remaining { r with source := rest } = r.remaining := by
        rw [hopen h, hopen (by exact h), Source.chunks_read r.decoder r.source, hread]
      rw [hrest] at ih
      exact ih
  | case2 r h message rest hread =>
      rw [hopen h, Source.chunks_read, hread]
  | case3 r h rest hread d out hfinish =>
      refine ⟨?_, fun _ => rfl⟩
      rw [hopen h, Source.chunks_read, hread]
      simp only [remaining, if_true, hfinish]
  | case4 r h b bs rest hread d out hfeed ih =>
      have hrest : ChunkReader.remaining ⟨rest, d, out, false⟩ = r.remaining := by
        rw [hopen h, Source.chunks_read, hread]
        simp only [remaining, Bool.false_eq_true, if_false, hfeed]
      rw [hrest] at ih
      exact ih
  | case5 r h =>
      refine ⟨rfl, fun hpending => ?_⟩
      simpa [hpending] using h

theorem remaining_next (r : ChunkReader) :
    match r.next with
    | (_, none) => r.remaining = ([], none)
    | (_, some (.error message)) => r.remaining = ([], some message)
    | (r', some (.ok c)) => r.remaining = (c :: r'.remaining.1, r'.remaining.2) := by
  have hfill := remaining_fill r
  unfold next
  cases hr : r.fill with
  | mk r₁ failure =>
      rw [hr] at hfill
      cases failure with
      | some message => exact hfill
      | none =>
          obtain ⟨hremaining, hdone⟩ := hfill
          cases hpending : r₁.pending with
          | nil =>
              simp only [hpending]
              rw [← hremaining]
              simp only [remaining, hdone hpending, hpending, if_true]
          | cons c cs =>
              simp only [hpending]
              rw [← hremaining]
              simp only [remaining, hpending]
              split <;> rfl

end ChunkReader

/-! ## Line readers -/

/-- The lines of chunks behind the segments of an open line. -/
def Transcript.ofChunks (failure : Option String) (current : Line) : List Chunk → Transcript
  | [] => ⟨if failure.isNone && !current.isEmpty then [current] else [], failure⟩
  | .segment s :: cs => ofChunks failure (current ++ [s]) cs
  | .lineBreak :: cs =>
      let t := ofChunks failure [] cs
      ⟨current :: t.lines, t.failure⟩

@[simp] theorem Transcript.failure_ofChunks (failure : Option String) (current : Line)
    (cs : List Chunk) : (ofChunks failure current cs).failure = failure := by
  fun_induction ofChunks failure current cs with
  | case1 current => rfl
  | case2 current s cs ih => exact ih
  | case3 current cs t ih => exact ih

namespace LineReader

def remaining (l : LineReader) : Transcript :=
  if l.done then ⟨[], none⟩
  else .ofChunks l.chunks.remaining.2 l.current.toList l.chunks.remaining.1

theorem remaining_next (l : LineReader) :
    match l.next with
    | (_, none) => l.remaining = ⟨[], none⟩
    | (_, some (.error message)) => l.remaining = ⟨[], some message⟩
    | (l', some (.ok line)) => l.remaining = ⟨line :: l'.remaining.lines, l'.remaining.failure⟩ := by
  fun_induction next l with
  | case1 l hdone => simp only [remaining, hdone, if_true]
  | case2 l hdone r s hnext ih =>
      have hchunks := ChunkReader.remaining_next l.chunks
      rw [hnext] at hchunks
      have hrest : LineReader.remaining { l with chunks := r, current := l.current.push s } =
          l.remaining := by
        simp only [remaining, hdone, hchunks, Bool.false_eq_true, if_false, Array.toList_push,
          Transcript.ofChunks]
      rw [hrest] at ih
      exact ih
  | case3 l hdone r hnext =>
      have hchunks := ChunkReader.remaining_next l.chunks
      rw [hnext] at hchunks
      simp only [remaining, hdone, hchunks, Bool.false_eq_true, if_false, Transcript.ofChunks]
  | case4 l hdone r message hnext =>
      have hchunks := ChunkReader.remaining_next l.chunks
      rw [hnext] at hchunks
      simp only [remaining, hdone, hchunks, Bool.false_eq_true, if_false, Transcript.ofChunks]
      rfl
  | case5 l hdone r hnext =>
      have hchunks := ChunkReader.remaining_next l.chunks
      rw [hnext] at hchunks
      simp only [remaining, hdone, hchunks, Bool.false_eq_true, if_false, Transcript.ofChunks]
      by_cases hempty : l.current.isEmpty <;> simp [hempty]

theorem collect_eq (lines : Array Line) (l : LineReader) :
    l.collect lines = ⟨lines.toList ++ l.remaining.lines, l.remaining.failure⟩ := by
  fun_induction collect lines l with
  | case1 lines l l' line hnext ih =>
      have hline := remaining_next l
      rw [hnext] at hline
      rw [ih, hline]
      simp
  | case2 lines l l' message hnext =>
      have hline := remaining_next l
      rw [hnext] at hline
      simp [hline]
  | case3 lines l l' hnext =>
      have hline := remaining_next l
      rw [hnext] at hline
      simp [hline]

end LineReader

/-! ## Transcripts -/

theorem Source.transcript_eq_ofChunks (source : Source) :
    source.transcript =
      .ofChunks (source.chunks .initial).2 [] (source.chunks .initial).1 := by
  unfold transcript
  rw [LineReader.collect_eq]
  simp [LineReader.remaining, LineReader.ofSource, ChunkReader.remaining, ChunkReader.ofSource,
    -Transcript.failure_ofChunks]

theorem Source.transcript_congr {source other : Source} (hcontent : source.content = other.content)
    (hfailure : source.failure? = other.failure?) : source.transcript = other.transcript := by
  simp only [transcript_eq_ofChunks, chunks_eq, hcontent, hfailure]

@[simp] theorem Source.failure_transcript (source : Source) :
    source.transcript.failure = source.failure? := by
  rw [transcript_eq_ofChunks, Transcript.failure_ofChunks, chunks_eq]

theorem decodeLines_eq (text : String) :
    decodeLines text = (Source.transcript [.bytes (Text.Utf8.bytes text)]).lines := by
  simp only [decodeLines]
  rw [LineReader.collect_eq, Source.transcript_eq_ofChunks, Source.chunks_eq]
  simp [LineReader.remaining, LineReader.ofChunks, ChunkReader.remaining, ChunkReader.ofChunks,
    Source.content, Source.failure?]

theorem decodeLines_eq_ofChunks (text : String) :
    decodeLines text =
      (Transcript.ofChunks none [] (Decoder.initial.chunks (Text.Utf8.bytes text))).lines := by
  rw [decodeLines_eq, Source.transcript_eq_ofChunks, Source.chunks_eq]
  simp only [Source.content, Source.failure?, List.append_nil, if_true]
  rfl

/-- Neither the chunks and the last style nor the lines depend on how the bytes are cut, be it inside
an escape sequence or inside a character. -/
theorem reading_ignores_cuts (b : List UInt8) :
    (∀ slices : List (List UInt8), slices.flatten = b →
      Decoder.decode slices = Decoder.decode [b]) ∧
    (∀ source : Source, source.Delivers b →
      source.transcript = Source.transcript [.bytes b] ∧ source.transcript.failure = none) ∧
    (∀ (source : Source) (text : String), source.Delivers b → text.toUTF8 = b.toByteArray →
      source.transcript = ⟨decodeLines text, none⟩) := by
  have hwhole (source : Source) (h : source.Delivers b) :
      source.transcript = Source.transcript [.bytes b] := by
    apply Source.transcript_congr
    · rw [h.content_eq, Source.content, Source.content, List.append_nil]
    · rw [h.failure?_eq]
      rfl
  refine ⟨?_, ?_, ?_⟩
  · rintro slices rfl
    exact Decoder.decode_eq slices
  · intro source h
    refine ⟨hwhole source h, ?_⟩
    rw [Source.failure_transcript, h.failure?_eq]
  · intro source text h htext
    rw [← Text.Utf8.toByteArray_bytes, List.toByteArray_inj] at htext
    subst htext
    have hfailure := Source.failure_transcript [.bytes (Text.Utf8.bytes text)]
    rw [hwhole source h, decodeLines_eq]
    exact congrArg (Transcript.mk _) hfailure

theorem reading_ignores_cuts_in_character_and_escape :
    Decoder.decode [[0xE2], [0x94, 0x82, 0x1B], [0x5B, 0x31], [0x6D, 0x61]] =
        Decoder.decode [[0xE2, 0x94, 0x82, 0x1B, 0x5B, 0x31, 0x6D, 0x61]] ∧
      Source.transcript [.bytes [0xE2], .interrupted, .bytes [0x94, 0x82, 0x1B, 0x5B],
          .bytes [0x31, 0x6D, 0x61]] =
        ⟨decodeLines "│\x1B[1ma", none⟩ := by
  have hdelivers : Source.Delivers [0xE2, 0x94, 0x82, 0x1B, 0x5B, 0x31, 0x6D, 0x61]
      [.bytes [0xE2], .interrupted, .bytes [0x94, 0x82, 0x1B, 0x5B], .bytes [0x31, 0x6D, 0x61]] := by
    apply Source.Delivers.piece (b := [0xE2]) (by simp)
    apply Source.Delivers.interrupted
    apply Source.Delivers.piece (b := [0x94, 0x82, 0x1B, 0x5B]) (by simp)
    exact .piece (b := [0x31, 0x6D, 0x61]) (by simp) .nil
  have h := reading_ignores_cuts [0xE2, 0x94, 0x82, 0x1B, 0x5B, 0x31, 0x6D, 0x61]
  exact ⟨h.1 _ rfl, h.2.2 _ _ hdelivers (by decide)⟩

end RevisionGraph
