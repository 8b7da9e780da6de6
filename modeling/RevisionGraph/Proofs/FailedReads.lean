import Mathlib.Data.List.Induction
import RevisionGraph.Proofs.Answering
import RevisionGraph.Proofs.Exchange
import RevisionGraph.Proofs.RowPartition

/-!
# Logs whose reading fails

A failure leaves an escape sequence, a text and a line unfinished. Parsing the log as a whole gives
the failure and nothing else, but the rows that are streamed are those of the bytes up to the last
line break (`failed_log_keeps_whole_lines`).
-/

namespace RevisionGraph

/-! ## Whole lines -/

namespace Decoder

variable {d : Decoder} {b : UInt8} {bytes part : List UInt8}

def breaksLine (d : Decoder) (b : UInt8) : Prop :=
  .lineBreak ∈ (d.step b).2

/-- The bytes up to the last one by which a decoder gives out a line break, and with it. -/
structure WholeLines (d : Decoder) (bytes part : List UInt8) : Prop where
  isPrefix : part <+: bytes
  ends : part = [] ∨ ∃ front b, part = front ++ [b] ∧ (d.feed front).1.breaksLine b
  longest : ∀ front b, front ++ [b] <+: bytes → (d.feed front).1.breaksLine b →
    front ++ [b] <+: part

theorem lineBreak_notMem_heldChunks (d : Decoder) : .lineBreak ∉ d.heldChunks := by
  unfold heldChunks
  split <;> simp

theorem lineBreak_notMem_select (d : Decoder) (parameters : List UInt8) :
    .lineBreak ∉ (d.select parameters).2 := by
  simp only [select]
  split
  · simp
  · exact d.lineBreak_notMem_heldChunks

theorem step_of_breaksLine (h : d.breaksLine b) :
    (d.step b).1.held = #[] ∧ (d.step b).2 = d.heldChunks ++ [.lineBreak] := by
  unfold breaksLine at h
  unfold step at h ⊢
  split at h
  · split at h
    · contradiction
    · next hescape =>
        split at h
        · next hbreak =>
            rw [if_neg hescape, if_pos hbreak]
            exact ⟨rfl, rfl⟩
        · split at h <;> contradiction
  · split at h
    · contradiction
    · split at h <;> contradiction
  · split at h
    · split at h
      · exact absurd h (d.lineBreak_notMem_select _)
      · contradiction
    · contradiction
  · split at h
    · contradiction
    · split at h <;> contradiction
  · contradiction

theorem exists_wholeLines (d : Decoder) (bytes : List UInt8) : ∃ part, d.WholeLines bytes part := by
  -- Whether a byte breaks a line depends on the bytes before it, so the induction is from the end.
  induction bytes using List.reverseRecOn with
  | nil => exact ⟨[], List.prefix_rfl, .inl rfl, fun front b hprefix => by simp at hprefix⟩
  | append_singleton bytes b ih =>
      by_cases hbreaks : (d.feed bytes).1.breaksLine b
      · exact ⟨bytes ++ [b], List.prefix_rfl, .inr ⟨bytes, b, rfl, hbreaks⟩,
          fun front c hprefix _ => hprefix⟩
      · obtain ⟨part, hpart⟩ := ih
        refine ⟨part, hpart.isPrefix.trans (List.prefix_append _ _), hpart.ends, ?_⟩
        intro front c hprefix hbreaksLine
        rcases List.prefix_concat_iff.mp hprefix with hsame | hearlier
        · obtain ⟨rfl, hlast⟩ := List.append_inj' hsame rfl
          obtain rfl := List.singleton_inj.mp hlast
          contradiction
        · exact hpart.longest front c hearlier hbreaksLine

theorem exists_breaksLine (h : .lineBreak ∈ (d.feed bytes).2) :
    ∃ front b rest, bytes = front ++ b :: rest ∧ (d.feed front).1.breaksLine b := by
  induction bytes generalizing d with
  | nil => simp at h
  | cons b bytes ih =>
      rw [feed_cons] at h
      rcases List.mem_append.mp h with hfirst | hlater
      · refine ⟨[], b, bytes, rfl, ?_⟩
        rw [feed_nil]
        exact hfirst
      · obtain ⟨front, c, rest, rfl, hbreaks⟩ := ih hlater
        refine ⟨b :: front, c, rest, rfl, ?_⟩
        rw [feed_cons]
        exact hbreaks

namespace WholeLines

theorem lineBreak_notMem {rest : List UInt8} (h : d.WholeLines (part ++ rest) part) :
    .lineBreak ∉ ((d.feed part).1.feed rest).2 := by
  intro hmem
  obtain ⟨front, b, later, rfl, hbreaks⟩ := exists_breaksLine hmem
  have hlonger : (part ++ front) ++ [b] <+: part := by
    apply h.longest
    · exact ⟨later, by simp⟩
    · rw [feed_append]
      exact hbreaks
  have hlength := hlonger.length_le
  simp only [List.length_append, List.length_singleton] at hlength
  omega

theorem held_eq (h : d.WholeLines bytes part) (hd : d.held = #[]) :
    (d.feed part).1.held = #[] := by
  rcases h.ends with rfl | ⟨front, b, rfl, hbreaks⟩
  · rw [feed_nil]
    exact hd
  · rw [feed_append, feed_cons, feed_nil]
    exact (step_of_breaksLine hbreaks).1

theorem chunks_eq (h : d.WholeLines bytes part) :
    (d.feed part).2 = [] ∨ ∃ cs, (d.feed part).2 = cs ++ [.lineBreak] := by
  rcases h.ends with rfl | ⟨front, b, rfl, hbreaks⟩
  · rw [feed_nil]
    exact .inl rfl
  · rw [feed_append, feed_cons, feed_nil, (step_of_breaksLine hbreaks).2, List.append_nil,
      ← List.append_assoc]
    exact .inr ⟨_, rfl⟩

end WholeLines

end Decoder

/-! ## Lines before a failure -/

namespace Transcript

theorem lines_ofChunks_append (message : String) (current : Line) (cs : List Chunk)
    {unfinished : List Chunk} (h : .lineBreak ∉ unfinished) :
    (ofChunks (some message) current (cs ++ unfinished)).lines =
      (ofChunks (some message) current cs).lines := by
  have hnone (current : Line) : (ofChunks (some message) current unfinished).lines = [] := by
    induction unfinished generalizing current with
    | nil => rfl
    | cons c unfinished ih =>
        cases c with
        | segment s => exact ih (fun hmem => h (List.mem_cons_of_mem _ hmem)) _
        | lineBreak => exact absurd List.mem_cons_self h
  induction cs generalizing current with
  | nil => exact hnone current
  | cons c cs ih =>
      cases c with
      | segment s => exact ih _
      | lineBreak => exact congrArg (current :: ·) (ih [])

theorem lines_ofChunks_lineBreak (failure other : Option String) (current : Line)
    (cs : List Chunk) :
    (ofChunks failure current (cs ++ [.lineBreak])).lines =
      (ofChunks other current (cs ++ [.lineBreak])).lines := by
  induction cs generalizing current with
  | nil => simp [ofChunks]
  | cons c cs ih =>
      cases c with
      | segment s => exact ih _
      | lineBreak => exact congrArg (current :: ·) (ih [])

end Transcript

theorem Source.lines_of_failure {source : Source} {message : String}
    (h : source.failure? = some message) {part : List UInt8}
    (hpart : Decoder.initial.WholeLines source.content part) :
    source.transcript.lines = (Source.transcript [.bytes part]).lines := by
  obtain ⟨rest, hcontent⟩ := hpart.isPrefix
  rw [← hcontent] at hpart
  have hfinish : (Decoder.initial.feed part).1.finish.2 = [] := by
    rw [Decoder.finish, Decoder.heldChunks, hpart.held_eq rfl]
    rfl
  have hwhole : (Source.transcript [.bytes part]).lines =
      (Transcript.ofChunks none [] (Decoder.initial.feed part).2).lines := by
    rw [transcript_eq_ofChunks, chunks_eq]
    simp [content, failure?, hfinish]
  rw [hwhole, transcript_eq_ofChunks, chunks_eq, h, ← hcontent, Decoder.feed_append]
  simp only [reduceCtorEq, if_false, List.append_nil]
  rw [Transcript.lines_ofChunks_append message _ _ hpart.lineBreak_notMem]
  rcases hpart.chunks_eq with hnil | ⟨cs, hcs⟩
  · rw [hnil]
    rfl
  · rw [hcs]
    exact Transcript.lines_ofChunks_lineBreak _ _ _ _

theorem parseLog_of_failure {source : Source} {message : String}
    (h : source.failure? = some message) : parseLog source = .error message := by
  have hfailure := source.failure_transcript
  unfold parseLog
  split
  · next hlines =>
      rw [hlines, h] at hfailure
      contradiction
  · next hlines =>
      rw [hlines, h] at hfailure
      rw [Option.some.inj hfailure]

/-! ## One request at a time -/

namespace Stream

variable {s t : Stream}

def rounds : Nat → List Move
  | 0 => []
  | k + 1 => .request :: .wait :: rounds k

theorem Owes.round {b : Batch} {later : List Batch} (h : s.Owes 0) (hslot : s.slot = none)
    (hpending : s.pending = b :: later) :
    ∃ t u, s.request = (t, true) ∧ t.receiveNext = (u, .batch b) ∧ u.Owes 0 ∧ u.slot = none ∧
      u.pending = later := by
  obtain ⟨t, hrequest, howes, hsame⟩ := h.request hslot (by simp [hpending])
  obtain ⟨u, c, hreceive, hafter, hempty, hgiven⟩ := howes.receive_settle
  obtain ⟨rfl, rfl⟩ := List.cons_eq_cons.mp (hpending.symm.trans (hsame.symm.trans hgiven))
  exact ⟨t, u, hrequest, hreceive, hafter, hempty, rfl⟩

theorem received_rounds (h : s.Owes 0) (hslot : s.slot = none) (k : Nat) :
    received (s.performAll (rounds k)).2 = s.pending.take k := by
  induction k generalizing s with
  | zero => rfl
  | succ k ih =>
      cases hpending : s.pending with
      | nil =>
          have hprefix := received_prefix h.sound (rounds (k + 1))
          rw [hpending] at hprefix
          rw [List.prefix_nil.mp hprefix, List.take_nil]
      | cons b later =>
          obtain ⟨t, u, hrequest, hreceive, hafter, hempty, rfl⟩ := h.round hslot hpending
          have hrest := ih hafter hempty
          simp only [rounds, performAll, perform, hrequest, hreceive, if_true]
          simpa [Event.ofPoll] using hrest

theorem collect_of_pending_nil (h : s.Owes 0) (hnone : s.pending = []) (fuel : Nat) :
    s.collect fuel = [] := by
  cases fuel with
  | zero => rfl
  | succ fuel =>
      unfold collect
      split
      · rfl
      · next t hrequest =>
          have hsound := h.sound.request
          rw [hrequest] at hsound
          obtain ⟨-, hsent⟩ := request_true hrequest
          have hlater := Later.pending_prefix (later_settle hsound)
          have hpending : t.pending = [] := by
            rw [hsent]
            exact hnone
          rw [hpending, List.prefix_nil] at hlater
          split
          · next u b hreceive =>
              have hgiven := pending_of_receive_batch hreceive
              rw [hlater] at hgiven
              contradiction
          · rfl

theorem collect_of_plan {n : Nat} {rows : List Row} (h : s.Owes 0) (hslot : s.slot = none)
    (hplan : s.pending = Batch.plan n rows) {fuel : Nat} (hfuel : rows.length ≤ fuel) :
    s.collect fuel = rows := by
  induction fuel generalizing s rows with
  | zero =>
      rw [List.length_eq_zero_iff.mp (Nat.le_zero.mp hfuel)]
      rfl
  | succ fuel ih =>
      cases hpending : Batch.plan n rows with
      | nil =>
          rw [Batch.plan_eq_nil hpending]
          exact collect_of_pending_nil h (hplan.trans hpending) _
      | cons b later =>
          obtain ⟨rest, hrows, hlater, hne, hlast⟩ := Batch.plan_eq_cons hpending
          obtain ⟨t, u, hrequest, hreceive, hafter, hempty, hrest⟩ :=
            h.round hslot (hplan.trans hpending)
          have hlength : rest.length ≤ fuel := by
            have hpos := List.length_pos_iff.mpr hne
            have hsum := congrArg List.length hrows
            rw [List.length_append] at hsum
            omega
          simp only [collect, hrequest, hreceive]
          cases hmore : b.hasMore with
          | true => rw [if_pos rfl, ih hafter hempty (hrest.trans hlater) hlength, ← hrows]
          | false =>
              rw [hmore] at hlast
              rw [if_neg Bool.false_ne_true, hrows, hlast]

theorem owes_start (source : Source) (n : Nat) : (start source n).Owes 0 :=
  ⟨sound_start source n, rfl, rfl, Nat.zero_le _⟩

theorem drain_start (source : Source) (n : Nat) :
    (start source n).drain = rowsOf source.transcript.lines := by
  apply collect_of_plan (owes_start source n) rfl (pending_start source n)
  have hrows : (rowsOf source.transcript.lines).length ≤ source.transcript.lines.length := by
    rw [length_rowsOf]
    exact List.countP_le_length
  have hwork : (start source n).producer.work = 4 * source.transcript.lines.length + 10 := rfl
  omega

end Stream

/-- A log whose reading fails is no list of rows when it is parsed as a whole. Streaming it gives the
rows of its whole lines, batch by batch as they are asked for. -/
theorem failed_log_keeps_whole_lines {source : Source} {message : String}
    (h : source.failure? = some message) (batchSize : Nat) :
    parseLog source = .error message ∧
      ∃ part rows, Decoder.initial.WholeLines source.content part ∧
        parseLog [.bytes part] = .ok rows ∧
        (∀ k, Stream.received ((Stream.start source batchSize).performAll (Stream.rounds k)).2 =
          (Batch.plan batchSize rows).take k) ∧
        (Stream.start source batchSize).drain = rows := by
  obtain ⟨part, hpart⟩ := Decoder.exists_wholeLines .initial source.content
  have hlines := Source.lines_of_failure h hpart
  refine ⟨parseLog_of_failure h, part, _, hpart, parseLog_of_failure? rfl, ?_, ?_⟩
  · intro k
    rw [Stream.received_rounds (Stream.owes_start source batchSize) rfl, Stream.pending_start,
      hlines]
  · rw [Stream.drain_start, hlines]

theorem failed_log_keeps_whole_lines_before_third :
    let log : Source :=
      [.bytes (Text.Utf8.bytes "* \x1B[1mk\x1B[m x\n* \x1B[1"), .interrupted,
        .bytes (Text.Utf8.bytes "mm\x1B[m y\n* \x1B[1mn\x1B["), .failed "broken pipe"]
    parseLog log = .error "broken pipe" ∧ (Stream.start log 0).drain.length = 2 ∧
      ∃ part rows, Decoder.initial.WholeLines log.content part ∧ parseLog [.bytes part] = .ok rows ∧
        Stream.received ((Stream.start log 0).performAll (Stream.rounds 1)).2 =
          (Batch.plan 0 rows).take 1 := by
  intro log
  have hfailure : log.failure? = some "broken pipe" := rfl
  obtain ⟨herror, part, rows, hpart, hrows, hreceived, -⟩ := failed_log_keeps_whole_lines hfailure 0
  refine ⟨herror, ?_, part, rows, hpart, hrows, hreceived 1⟩
  rw [Stream.drain_start, Source.transcript_eq_ofChunks, Source.chunks_eq]
  decide +kernel

end RevisionGraph
