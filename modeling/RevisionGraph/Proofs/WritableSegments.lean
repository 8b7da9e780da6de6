import RevisionGraph.Cli.Program
import RevisionGraph.Proofs.DumpedText
import RevisionGraph.Proofs.Exchange
import RevisionGraph.Proofs.LossyText
import RevisionGraph.Proofs.RowPartition
import RevisionGraph.Proofs.Writing

/-!
# Segments that are given out

The decoder never holds a byte that ends text, and its pen never has the terminal's own colour for
a setting (`Decoder.Sound`). Every byte and every end of the input keep this, so each segment given
out is one that could be written back (`Decoder.Sound.calls`), and no line of a row holds an escape.
-/

namespace RevisionGraph

/-! ## Pens -/

namespace Sgr

variable {pen : Pen}

theorem isWritable_setLayer (h : pen.style.IsWritable) {color : Option Color}
    (hcolor : color ≠ some .reset) (layer : Layer) :
    (setLayer pen color layer).style.IsWritable := by
  cases layer with
  | foreground => exact ⟨rfl, hcolor, h.bg⟩
  | background => exact ⟨rfl, h.fg, hcolor⟩

theorem isWritable_withModifiers (h : pen.style.IsWritable) (modifiers : Modifiers) :
    Style.IsWritable (Pen.style { pen with modifiers }) :=
  ⟨rfl, h.fg, h.bg⟩

theorem isWritable_applyCode (h : pen.style.IsWritable) (code : Nat) :
    (applyCode pen code).pen.style.IsWritable := by
  have hbasic (n : Nat) : some (basicColor n) ≠ some .reset := by simp [basicColor]
  have hbright (n : Nat) : some (brightColor n) ≠ some .reset := by simp [brightColor]
  unfold applyCode
  split
  · exact ⟨rfl, nofun, nofun⟩
  all_goals try exact isWritable_withModifiers h _
  · exact isWritable_setLayer h (by simp) .foreground
  · exact isWritable_setLayer h (by simp) .background
  · split_ifs
    · exact isWritable_setLayer h (hbasic _) .foreground
    · exact isWritable_setLayer h (hbasic _) .background
    · exact isWritable_setLayer h (hbright _) .foreground
    · exact isWritable_setLayer h (hbright _) .background
    · exact h

theorem isWritable_step {s : State} (h : s.pen.style.IsWritable) (n : Nat) :
    (s.step n).pen.style.IsWritable := by
  obtain ⟨pen, expecting⟩ := s
  cases expecting with
  | code => exact isWritable_applyCode h n
  | mode layer =>
      simp only [State.step]
      split_ifs
      · exact h
      · exact h
      · exact isWritable_applyCode h n
  | index layer => exact isWritable_setLayer h (by simp) layer
  | red layer => exact h
  | green layer r => exact h
  | blue layer r g => exact isWritable_setLayer h (by simp) layer

theorem isWritable_run {s : State} (h : s.pen.style.IsWritable) (codes : List Nat) :
    (s.run codes).pen.style.IsWritable := by
  induction codes generalizing s with
  | nil => exact h
  | cons n rest ih => exact ih (isWritable_step h n)

end Sgr

/-! ## Decoders -/

namespace Decoder

variable {d : Decoder}

/-- The text held can be a segment of the pen. -/
structure Sound (d : Decoder) : Prop where
  held : ∀ b ∈ d.held, endsText b = false
  pen : d.pen.style.IsWritable

def Clean (r : Decoder × List Chunk) : Prop :=
  r.1.Sound ∧ ∀ s, .segment s ∈ r.2 → s.IsWritable

theorem sound_initial : initial.Sound :=
  ⟨by simp [initial], ⟨rfl, nofun, nofun⟩⟩

theorem Sound.heldChunks (h : d.Sound) : ∀ s, .segment s ∈ d.heldChunks → s.IsWritable := by
  intro s hs
  rw [Decoder.heldChunks] at hs
  split at hs
  · contradiction
  · next hheld =>
      obtain rfl : s = ⟨Text.Utf8.text d.held.toList, d.style⟩ := by simpa using hs
      refine ⟨Text.Utf8.text_ne_empty (by simpa using hheld), ?_, h.pen⟩
      intro c hc
      have hother (special : Char) (hlow : special.toNat < 0x80)
          (hends : endsText (UInt8.ofNat special.toNat) = true) : c ≠ special := by
        rintro rfl
        rw [Text.Utf8.text, String.toList_ofList] at hc
        have hmem := Text.Utf8.mem_of_mem_decode hc hlow
        rw [h.held _ (Array.mem_toList_iff.mp hmem)] at hends
        contradiction
      exact ⟨hother _ (by decide) rfl, hother _ (by decide) rfl, hother _ (by decide) rfl⟩

theorem Sound.clean_quiet (h : d.Sound) (mode : Mode) : Clean ({ d with mode }, []) :=
  ⟨⟨h.held, h.pen⟩, by simp⟩

theorem Sound.clean_emptied (h : d.Sound) {pen : Pen} (hpen : pen.style.IsWritable) (mode : Mode)
    {more : List Chunk} (hmore : ∀ s, .segment s ∉ more) :
    Clean (⟨mode, pen, #[]⟩, d.heldChunks ++ more) := by
  refine ⟨⟨by simp, hpen⟩, fun s hs => ?_⟩
  rcases List.mem_append.mp hs with hs | hs
  · exact h.heldChunks s hs
  · exact absurd hs (hmore s)

theorem Sound.step (h : d.Sound) (b : UInt8) : Clean (d.step b) := by
  obtain ⟨mode, pen, held⟩ := d
  cases mode with
  | text =>
      simp only [Decoder.step]
      split_ifs with hescape hfeed hreturn
      · exact h.clean_quiet .escape
      · exact h.clean_emptied h.pen .text (by simp)
      · exact h.clean_quiet .text
      · refine ⟨⟨?_, h.pen⟩, by simp⟩
        intro b' hb'
        rcases Array.mem_push.mp hb' with hb' | rfl
        · exact h.held b' hb'
        · simp [endsText, hescape, hfeed, hreturn]
  | escape =>
      simp only [Decoder.step]
      split_ifs <;> exact h.clean_quiet _
  | control parameters =>
      simp only [Decoder.step, select]
      split_ifs
      · exact h.clean_quiet .text
      · have hpen : (Sgr.apply pen parameters.toList).style.IsWritable := Sgr.isWritable_run h.pen _
        rw [← List.append_nil (Decoder.heldChunks _)]
        exact h.clean_emptied hpen .text (by simp)
      · exact h.clean_quiet .text
      · exact h.clean_quiet _
  | command =>
      simp only [Decoder.step]
      split_ifs <;> exact h.clean_quiet _
  | commandEscape => exact h.clean_quiet .text

theorem Clean.append {r : Decoder × List Chunk} (h : Clean r) {next : Decoder × List Chunk}
    (hnext : r.1.Sound → Clean next) : Clean (next.1, r.2 ++ next.2) := by
  refine ⟨(hnext h.1).1, fun s hs => ?_⟩
  rcases List.mem_append.mp hs with hs | hs
  · exact h.2 s hs
  · exact (hnext h.1).2 s hs

theorem Sound.feed (h : d.Sound) (bytes : List UInt8) : Clean (d.feed bytes) := by
  induction bytes generalizing d with
  | nil =>
      rw [feed_nil]
      exact ⟨h, by simp⟩
  | cons b bytes ih =>
      rw [feed_cons]
      exact (h.step b).append fun hnext => ih hnext

theorem Sound.finish (h : d.Sound) : Clean d.finish := by
  rw [Decoder.finish, ← List.append_nil (Decoder.heldChunks _)]
  exact h.clean_emptied h.pen .text (by simp)

/-! ## Calls -/

inductive Call where
  | feed (bytes : List UInt8)
  | finish
  deriving DecidableEq, Repr

def call (d : Decoder) : Call → Decoder × List Chunk
  | .feed bytes => d.feed bytes
  | .finish => d.finish

/-- All chunks of some calls, in any order and also behind an end of the input. -/
def calls (d : Decoder) : List Call → Decoder × List Chunk
  | [] => (d, [])
  | c :: rest => (((d.call c).1.calls rest).1, (d.call c).2 ++ ((d.call c).1.calls rest).2)

theorem Sound.calls (h : d.Sound) (cs : List Call) : Clean (d.calls cs) := by
  induction cs generalizing d with
  | nil => exact ⟨h, by simp [Decoder.calls]⟩
  | cons c rest ih =>
      have hcall : Clean (d.call c) := by
        cases c with
        | feed bytes => exact h.feed bytes
        | finish => exact h.finish
      exact hcall.append fun hnext => ih hnext

end Decoder
/-! ## Lines -/

theorem Transcript.isWritable_of_mem_ofChunks {failure : Option String} {current : Line}
    {cs : List Chunk} (hcurrent : ∀ s ∈ current, s.IsWritable)
    (hcs : ∀ s, .segment s ∈ cs → s.IsWritable) :
    ∀ line ∈ (ofChunks failure current cs).lines, ∀ s ∈ line, s.IsWritable := by
  fun_induction ofChunks failure current cs with
  | case1 current =>
      intro line hline
      dsimp only at hline
      split at hline
      · rw [List.mem_singleton.mp hline]
        exact hcurrent
      · contradiction
  | case2 current s cs ih =>
      apply ih
      · intro t ht
        rcases List.mem_append.mp ht with ht | ht
        · exact hcurrent t ht
        · rw [List.mem_singleton.mp ht]
          exact hcs s List.mem_cons_self
      · exact fun t ht => hcs t (List.mem_cons_of_mem _ ht)
  | case3 current cs t ih =>
      intro line hline
      rcases List.mem_cons.mp hline with rfl | hline
      · exact hcurrent
      · exact ih (by simp) (fun s hs => hcs s (List.mem_cons_of_mem _ hs)) line hline

theorem Source.isWritable_of_mem_chunks (source : Source) :
    ∀ s, .segment s ∈ (source.chunks .initial).1 → s.IsWritable := by
  intro s hs
  obtain ⟨hsound, hfed⟩ := Decoder.sound_initial.feed source.content
  rw [chunks_eq] at hs
  rcases List.mem_append.mp hs with hs | hs
  · exact hfed s hs
  · split at hs
    · exact hsound.finish.2 s hs
    · contradiction

theorem Source.isWritable_of_mem_transcript (source : Source) :
    ∀ line ∈ source.transcript.lines, ∀ s ∈ line, s.IsWritable := by
  rw [transcript_eq_ofChunks]
  exact Transcript.isWritable_of_mem_ofChunks (by simp) source.isWritable_of_mem_chunks

theorem Line.escape_notMem_text {line : Line} (h : ∀ s ∈ line, s.IsWritable) :
    '\x1B' ∉ line.text.toList := by
  intro hmem
  rw [Line.text, String.toList_join] at hmem
  obtain ⟨text, htext, hc⟩ := List.mem_flatMap.mp hmem
  obtain ⟨s, hs, rfl⟩ := List.mem_map.mp htext
  exact ((h s hs).unbroken _ hc).1 rfl

theorem escape_notMem_summary {source : Source} {rows : List Row} (h : parseLog source = .ok rows)
    {row : Row} (hrow : row ∈ rows) {line : String} (hline : line ∈ row.summary.lines) :
    '\x1B' ∉ line.toList := by
  obtain ⟨graphLine, hmem, rfl⟩ := List.mem_map.mp hline
  rw [rows_of_parseLog h] at hrow
  have hread := mem_of_mem_segmentLines hrow (List.mem_map_of_mem hmem)
  exact Line.escape_notMem_text (source.isWritable_of_mem_transcript _ hread)

/-! ## Dumps -/

namespace Cli

def System.dumpedRows (s : System) (path : String) : Except String (List Row) :=
  if path = Options.standardInput then parseLog s.input else s.files.read path >>= parseLog

theorem dump_eq (s : System) (path : String) : dump s path = dumped (s.dumpedRows path) := by
  unfold dump System.dumpedRows
  split <;> rfl

theorem System.exists_source {s : System} {path : String} {rows : List Row}
    (h : s.dumpedRows path = .ok rows) : ∃ source, parseLog source = .ok rows := by
  unfold System.dumpedRows at h
  split at h
  · exact ⟨s.input, h⟩
  · cases hread : s.files.read path with
    | error message =>
        rw [hread] at h
        contradiction
    | ok source =>
        rw [hread] at h
        exact ⟨source, h⟩

end Cli

/-- Whatever bytes a decoder is fed, and wherever the input is ended in between, its segments are
writable: none is empty, holds an escape or a line break, takes a modifier away or sets the
terminal's own colour. So no line of a dumped row holds an escape, nor does the text of the dump. -/
theorem segments_hold_no_escapes :
    (∀ (calls : List Decoder.Call) (s : Segment),
        .segment s ∈ (Decoder.initial.calls calls).2 → s.IsWritable) ∧
      ∀ (system : Cli.System) (path : String) (rows : List Row),
        system.dumpedRows path = .ok rows →
          Cli.dump system path = ⟨0, dumpText rows, ""⟩ ∧ '\x1B' ∉ (dumpText rows).toList ∧
            ∀ row ∈ rows, ∀ line ∈ row.summary.lines, '\x1B' ∉ line.toList := by
  refine ⟨fun calls => (Decoder.sound_initial.calls calls).2, ?_⟩
  intro system path rows hrows
  obtain ⟨source, hsource⟩ := Cli.System.exists_source hrows
  refine ⟨?_, escape_notMem_dumpText rows, fun row hrow line => escape_notMem_summary hsource hrow⟩
  rw [Cli.dump_eq, hrows]
  rfl

theorem segments_hold_no_escapes_of_broken_input :
    let calls : List Decoder.Call :=
      [.feed [0x1B, 0x5B, 0x31], .finish, .feed [0x6D, 0xFF, 0x1B], .feed [0x5B, 0x33, 0x31, 0x6D]]
    let system : Cli.System :=
      ⟨["--dump"], fun _ => .unset, [.bytes (Text.Utf8.bytes "* \x1B[1mk\x1B[m x\n| \x1B7\x1B")],
        ⟨fun _ => .error "No such file or directory (os error 2)", fun _ => none⟩⟩
    (.segment ⟨"m\uFFFD", .plain⟩ ∈ (Decoder.initial.calls calls).2 ∧
      Segment.IsWritable ⟨"m\uFFFD", .plain⟩) ∧
      ∃ rows, system.dumpedRows Options.standardInput = .ok rows ∧
        rows.map (fun row => row.summary.lines) = [["* k x", "| "]] ∧
        ∀ row ∈ rows, ∀ line ∈ row.summary.lines, '\x1B' ∉ line.toList := by
  intro calls system
  obtain ⟨hsegments, hdump⟩ := segments_hold_no_escapes
  have hmem : .segment ⟨"m\uFFFD", .plain⟩ ∈ (Decoder.initial.calls calls).2 := by decide +kernel
  have hrows : system.dumpedRows Options.standardInput =
      .ok (rowsOf system.input.transcript.lines) := parseLog_of_failure? rfl
  have hlines : (rowsOf system.input.transcript.lines).map (fun row => row.summary.lines) =
      [["* k x", "| "]] := by
    rw [Source.transcript_eq_ofChunks, Source.chunks_eq]
    decide +kernel
  exact ⟨⟨hmem, hsegments calls _ hmem⟩, _, hrows, hlines,
    (hdump system Options.standardInput _ hrows).2.2⟩

end RevisionGraph
