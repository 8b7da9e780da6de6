import RevisionGraph.Terminal.Decoder
import RevisionGraph.Terminal.Source

/-!
# Reading lines

Chunks are decoded from a source as they are asked for, and lines are gathered from the chunks.
Reading lines gives every completed line; what follows the last line break is a line of its own at
the end of the input, but not at a failure. An interrupted read is tried again.
-/

namespace RevisionGraph

/-! ## Chunks -/

structure ChunkReader where
  source : Source
  decoder : Decoder
  pending : List Chunk
  done : Bool
  deriving DecidableEq, Repr

namespace ChunkReader

def ofSource (source : Source) : ChunkReader :=
  ⟨source, .initial, [], false⟩

def ofChunks (cs : List Chunk) : ChunkReader :=
  ⟨[], .initial, cs, true⟩

/-- Reads until a chunk is there or the input is over. Gives the message of a read that failed. -/
def fill (r : ChunkReader) : ChunkReader × Option String :=
  if r.pending.isEmpty && !r.done then
    match _ : r.source.read with
    | (.interrupted, rest) => fill { r with source := rest }
    | (.failed message, rest) => ({ r with source := rest, done := true }, some message)
    | (.bytes [], rest) =>
        let (d, out) := r.decoder.finish
        (⟨rest, d, out, true⟩, none)
    | (.bytes (b :: bs), rest) =>
        let (d, out) := r.decoder.feed (b :: bs)
        fill ⟨rest, d, out, false⟩
  else (r, none)
termination_by r.source.unread
decreasing_by all_goals exact Source.unread_read_lt ‹_› (by simp)

def next (r : ChunkReader) : ChunkReader × Option (Except String Chunk) :=
  match r.fill with
  | (r, some message) => (r, some (.error message))
  | (r, none) =>
      match r.pending with
      | [] => (r, none)
      | c :: cs => ({ r with pending := cs }, some (.ok c))

def toRead (r : ChunkReader) : Nat :=
  r.source.unread + if r.done then 0 else 1

theorem fill_eq_or_lt (r : ChunkReader) :
    r.fill = (r, none) ∨ r.fill.1.toRead < r.toRead := by
  fun_induction fill r with
  | case1 r h rest hread ih =>
      have hlt := Source.unread_read_lt hread (by simp)
      refine .inr ?_
      rcases ih with heq | ih
      · rw [heq]
        simp only [toRead]
        omega
      · simp only [toRead] at ih ⊢
        omega
  | case2 r h message rest hread =>
      have hlt := Source.unread_read_lt hread (by simp)
      refine .inr ?_
      simp only [toRead, if_true]
      omega
  | case3 r h rest hread d out hfinish =>
      have hle := Source.unread_read_le r.source
      rw [hread] at hle
      simp only [Bool.and_eq_true, Bool.not_eq_true'] at h
      refine .inr ?_
      simp only [toRead, h.2, if_true, Bool.false_eq_true, if_false] at hle ⊢
      omega
  | case4 r h b bs rest hread d out hfeed ih =>
      have hlt := Source.unread_read_lt hread (by simp)
      simp only [Bool.and_eq_true, Bool.not_eq_true'] at h
      refine .inr ?_
      rcases ih with heq | ih
      · rw [heq]
        simp only [toRead, h.2]
        omega
      · simp only [toRead, h.2] at ih ⊢
        omega
  | case5 r h => exact .inl rfl

theorem toRead_next_le (r : ChunkReader) : r.next.1.toRead ≤ r.toRead := by
  have hfill : r.fill.1.toRead ≤ r.toRead := by
    rcases fill_eq_or_lt r with heq | hlt
    · simp only [heq, Nat.le_refl]
    · exact Nat.le_of_lt hlt
  simp only [next]
  split
  · next r' message heq => simpa [heq] using hfill
  · next r' heq =>
      rw [heq] at hfill
      split
      · exact hfill
      · exact hfill

/-- A chunk given out is taken from those pending, unless something was read for it. -/
theorem next_lt {r r' : ChunkReader} {c : Chunk} (h : r.next = (r', some (.ok c))) :
    r'.toRead < r.toRead ∨ r'.toRead = r.toRead ∧ r'.pending.length < r.pending.length := by
  rcases fill_eq_or_lt r with heq | hlt
  · simp only [next, heq] at h
    split at h
    · simp at h
    · next c' cs hpending =>
        simp only [Prod.mk.injEq] at h
        obtain ⟨rfl, -⟩ := h
        refine .inr ⟨rfl, ?_⟩
        simp [hpending]
  · refine .inl ?_
    simp only [next] at h
    split at h
    · simp at h
    · next r₁ heq =>
        rw [heq] at hlt
        split at h
        · simp at h
        · simp only [Prod.mk.injEq] at h
          obtain ⟨rfl, -⟩ := h
          exact hlt

end ChunkReader

/-! ## Lines -/

structure Transcript where
  lines : List Line
  failure : Option String
  deriving DecidableEq, Repr

structure LineReader where
  chunks : ChunkReader
  current : Array Segment
  done : Bool
  deriving DecidableEq, Repr

namespace LineReader

def ofSource (source : Source) : LineReader :=
  ⟨.ofSource source, #[], false⟩

def ofChunks (cs : List Chunk) : LineReader :=
  ⟨.ofChunks cs, #[], false⟩

def next (l : LineReader) : LineReader × Option (Except String Line) :=
  if l.done then (l, none)
  else
    match _ : l.chunks.next with
    | (r, some (.ok (.segment s))) => next { l with chunks := r, current := l.current.push s }
    | (r, some (.ok .lineBreak)) => (⟨r, #[], false⟩, some (.ok l.current.toList))
    | (r, some (.error message)) => (⟨r, l.current, true⟩, some (.error message))
    | (r, none) =>
        (⟨r, #[], true⟩, if l.current.isEmpty then none else some (.ok l.current.toList))
termination_by (l.chunks.toRead, l.chunks.pending.length)
decreasing_by exact Prod.lex_def.2 (ChunkReader.next_lt ‹_›)

def toRead (l : LineReader) : Nat :=
  l.chunks.toRead + if l.done then 0 else 1

theorem next_lt {l l' : LineReader} {line : Line} (h : l.next = (l', some (.ok line))) :
    l'.toRead < l.toRead ∨
      l'.toRead = l.toRead ∧ l'.chunks.pending.length < l.chunks.pending.length := by
  fun_induction next l with
  | case1 l hdone => simp at h
  | case2 l hdone r s hnext ih =>
      have hchunk := ChunkReader.next_lt hnext
      have hline := ih h
      simp only [toRead, hdone] at hline ⊢
      omega
  | case3 l hdone r hnext =>
      have hchunk := ChunkReader.next_lt hnext
      obtain ⟨rfl, -⟩ := Prod.mk.inj h
      simp only [toRead, hdone]
      omega
  | case4 l hdone r message hnext => simp at h
  | case5 l hdone r hnext =>
      have hle := ChunkReader.toRead_next_le l.chunks
      obtain ⟨rfl, -⟩ := Prod.mk.inj h
      rw [hnext] at hle
      simp only [toRead, hdone, if_true, Bool.false_eq_true, if_false] at hle ⊢
      omega

def collect (lines : Array Line) (l : LineReader) : Transcript :=
  match _ : l.next with
  | (l', some (.ok line)) => collect (lines.push line) l'
  | (_, some (.error message)) => ⟨lines.toList, some message⟩
  | (_, none) => ⟨lines.toList, none⟩
termination_by (l.toRead, l.chunks.pending.length)
decreasing_by exact Prod.lex_def.2 (next_lt ‹_›)

end LineReader

def Source.transcript (source : Source) : Transcript :=
  (LineReader.ofSource source).collect #[]

def decodeLines (text : String) : List Line :=
  let (d, out) := Decoder.initial.feed (Text.Utf8.bytes text)
  ((LineReader.ofChunks (out ++ d.finish.2)).collect #[]).lines

end RevisionGraph
