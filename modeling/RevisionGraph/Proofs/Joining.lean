import RevisionGraph.Proofs.Accounts

/-!
# Joining a stream

Whoever joins a stream closes it and waits for the producer to stop, while the slot keeps what it
holds. The producer hears a close where it waits for a signal, but not where it waits for the slot.
So the wait has no end if two batches are left that were both asked for: the producer puts one into
the slot, takes the request for the other one, which was sent before the close, and waits there.
-/

namespace RevisionGraph

namespace Stream

variable {s t : Stream}

/-! ## After a close -/

def Told (s : Stream) : Prop :=
  s.producer.isGone = true ∨ .close ∈ s.control

theorem Told.steps (h : s.Told) (hsteps : Steps s t) : t.Told := by
  cases hsteps with
  | readLine hreading | readEnd hreading =>
      rw [Told, hreading] at h
      exact .inr (h.resolve_left (by simp [Producer.isGone]))
  | answer hoffering hsignal =>
      rw [Told, hoffering, hsignal] at h
      have hclose := h.resolve_left (by simp [Producer.isGone])
      exact .inr (List.mem_of_ne_of_mem (by simp) hclose)
  | deliver hsending =>
      rw [Told, hsending] at h
      exact .inr (h.resolve_left (by simp [Producer.isGone]))
  | giveUp | leave | deafen | stop => exact .inl rfl

theorem told_close (hopen : s.closed = false) : s.close.Told := by
  unfold close send
  rw [if_neg (by simp [hopen])]
  split
  · exact .inr (by simp)
  · next hdeaf => exact .inl (isGone_of_deaf (Bool.eq_false_iff.mpr hdeaf))

theorem Told.stopped_or (h : s.Told) (hhalt : s.step = none) :
    s.producer = .stopped ∨
      ∃ batch next, s.producer = .sending batch next ∧ s.slot.isSome ∧ .close ∈ s.control := by
  cases halted_of_step hhalt with
  | unasked hoffering hcontrol => simp [Told, hoffering, hcontrol, Producer.isGone] at h
  | blocked hsending hslot =>
      rw [Told, hsending] at h
      exact .inr ⟨_, _, hsending, by rw [hslot]; rfl, h.resolve_left (by simp [Producer.isGone])⟩
  | lingers hlingering hcontrol => simp [Told, hlingering, hcontrol, Producer.isGone] at h
  | ended hstopped => exact .inl hstopped

/-! ## Streams on which the producer stops -/

/-- The producer is told to stop, and it has no second batch that is asked for. -/
structure Exits (s : Stream) : Prop where
  sound : s.Sound
  told : s.Told
  few : s.unanswered ≤ 1 ∨ s.pending.length ≤ 1

theorem Exits.steps (h : s.Exits) (hsteps : Steps s t) : t.Exits where
  sound := hsteps.sound h.sound
  told := h.told.steps hsteps
  few := h.few.imp (Nat.le_trans (hsteps.unanswered_le h.sound))
    (Nat.le_trans (hsteps.pending_prefix h.sound).length_le)

theorem Exits.producer_eq (h : s.Exits) (hhalt : s.step = none) : s.producer = .stopped := by
  refine (h.told.stopped_or hhalt).resolve_right ?_
  rintro ⟨batch, next, hsending, hslot, -⟩
  obtain ⟨b, hslot⟩ := Option.isSome_iff_exists.mp hslot
  have hfew := h.few
  simp [unanswered, pending, hsending, hslot, Producer.underway, Producer.remaining] at hfew

/-! ## Streams on which the producer gets stuck -/

/-- The requests ahead of the close and the batch that is on its way or in the slot make two batches
that are asked for, and there are two. -/
structure Jams (s : Stream) : Prop where
  sound : s.Sound
  control : ∃ requests, s.control = List.replicate requests .requestMore ++ [.close]
  unanswered : 2 ≤ s.unanswered
  pending : 2 ≤ s.pending.length

namespace Jams

theorem isGone_eq (h : s.Jams) : s.producer.isGone = false := by
  cases hgone : s.producer.isGone with
  | false => rfl
  | true =>
      have hlength := length_pending_of_isGone hgone
      have hpending := h.pending
      omega

theorem control_of_cons {signal : Signal} {rest : List Signal} (h : s.Jams)
    (hproducer : s.producer.underway = 0) (hcontrol : s.control = signal :: rest) :
    signal = .requestMore ∧ ∃ requests, rest = List.replicate requests .requestMore ++ [.close] := by
  obtain ⟨requests, hrequests⟩ := h.control
  have hunanswered := h.unanswered
  rw [hcontrol] at hrequests
  cases requests with
  | zero =>
      have hslot := Option.length_toList_le (o := s.slot)
      obtain ⟨rfl, rfl⟩ := List.cons.inj hrequests
      simp only [Stream.unanswered, hcontrol, hproducer] at hunanswered
      simp at hunanswered
      omega
  | succ requests =>
      rw [List.replicate_succ, List.cons_append] at hrequests
      obtain ⟨rfl, rfl⟩ := List.cons.inj hrequests
      exact ⟨rfl, requests, rfl⟩

theorem steps (h : s.Jams) (hsteps : Steps s t) : t.Jams := by
  have hthere := h.isGone_eq
  have hpending := h.pending
  have hproducer := h.sound.producer
  have hgoes : t.producer.isGone = false ∧
      ∃ requests, t.control = List.replicate requests .requestMore ++ [.close] := by
    cases hsteps with
    | readLine | readEnd => exact ⟨Producer.isGone_of_resumes (by simp), h.control⟩
    | answer hoffering hsignal =>
        exact ⟨rfl, (h.control_of_cons (by rw [hoffering]; rfl) hsignal).2⟩
    | giveUp hoffering hsignal =>
        have hrequest := (h.control_of_cons (by rw [hoffering]; rfl) hsignal).1
        contradiction
    | deliver hsending =>
        rw [hsending] at hproducer
        exact ⟨Producer.isGone_of_resumes hproducer.2, h.control⟩
    | leave hlingering =>
        have hslot := Option.length_toList_le (o := s.slot)
        simp only [Stream.pending, hlingering, Producer.remaining, List.append_nil] at hpending
        omega
    | deafen hleaving => simp [hleaving, Producer.isGone] at hthere
    | stop hdeaf => simp [hdeaf, Producer.isGone] at hthere
  exact ⟨hsteps.sound h.sound, hgoes.2,
    hsteps.unanswered_eq_of_isGone h.sound hgoes.1 ▸ h.unanswered,
    hsteps.pending_eq_of_isGone h.sound hgoes.1 ▸ h.pending⟩

end Jams

/-! ## Closing with an account -/

theorem Sound.close (hs : s.Sound) : s.close.Sound :=
  sound_perform hs .close

theorem pending_close (s : Stream) : s.close.pending = s.pending := by
  obtain ⟨signals, hclose, -⟩ := close_eq s
  rw [hclose]
  rfl

theorem unanswered_close (s : Stream) : s.close.unanswered = s.unanswered := by
  obtain ⟨signals, hclose, hsignals⟩ := close_eq s
  rw [hclose]
  simp [unanswered, List.count_eq_zero.mpr hsignals]

namespace Account

variable {n : Nat}

theorem exits_close (h : s.Account n) (hfew : n ≤ 1 ∨ s.pending.length ≤ 1) : s.close.Exits := by
  refine ⟨h.sound.close, told_close h.closed_eq, ?_⟩
  rw [pending_close, unanswered_close]
  cases hgone : s.producer.isGone with
  | false => rwa [h.unanswered_eq hgone]
  | true => exact .inr (length_pending_of_isGone hgone)

theorem jams_close (h : s.Account n) (hmany : 2 ≤ n ∧ 2 ≤ s.pending.length) : s.close.Jams := by
  obtain ⟨hn, hpending⟩ := hmany
  have hthere : s.producer.isGone = false := by
    cases hgone : s.producer.isGone with
    | false => rfl
    | true =>
        have hlength := length_pending_of_isGone hgone
        omega
  have hhears : s.producer.hears = true := by
    cases hhears : s.producer.hears with
    | true => rfl
    | false => simp [isGone_of_deaf hhears] at hthere
  have hrequests := List.eq_replicate_of_mem fun _ => h.sound.eq_requestMore h.closed_eq
  refine ⟨h.sound.close, ⟨s.control.length, ?_⟩, ?_, ?_⟩
  · rw [← hrequests]
    simp [close, send, h.closed_eq, hhears]
  · rwa [unanswered_close, h.unanswered_eq hthere]
  · rwa [pending_close]

end Account

theorem Exits.producer_settle (h : s.Exits) : s.settle.producer = .stopped :=
  ((runs_settle s).keeps Exits.steps h).producer_eq s.step_settle

theorem Jams.producer_settle (h : s.Jams) : s.settle.producer ≠ .stopped := by
  intro hstopped
  have hthere := ((runs_settle s).keeps Jams.steps h).isGone_eq
  simp [hstopped, Producer.isGone] at hthere

theorem isSome_join_iff (s : Stream) :
    s.join.isSome ↔ s.close.settle.producer = .stopped := by
  simp only [join]
  split <;> simp [*]

namespace Account

variable {n : Nat}

theorem isSome_join_iff (h : s.Account n) : s.join.isSome ↔ n ≤ 1 ∨ s.pending.length ≤ 1 := by
  rw [Stream.isSome_join_iff]
  constructor
  · intro hstopped
    by_contra hmany
    exact (h.jams_close (by omega)).producer_settle hstopped
  · exact fun hfew => (h.exits_close hfew).producer_settle

theorem goes_on_iff (h : s.Account n) :
    (∀ t, s.close.Runs t → t.producer = .stopped ∨ t.step.isSome) ↔
      n ≤ 1 ∨ s.pending.length ≤ 1 := by
  constructor
  · intro hgoes
    rw [← h.isSome_join_iff, Stream.isSome_join_iff]
    exact (hgoes _ (runs_settle _)).resolve_right (by simp [step_settle])
  · intro hfew t hruns
    have hexits := hruns.keeps Exits.steps (h.exits_close hfew)
    cases hstep : t.step with
    | none => exact .inl (hexits.producer_eq hstep)
    | some u => exact .inr rfl

end Account

end Stream

/-- Joining a stream has an end if and only if at most one batch more is left, or was asked for, than
was received. Otherwise the producer comes to wait for the slot, which nobody empties. -/
theorem join_ends_iff (source : Source) (batchSize : Nat) {moves : List Stream.Move}
    (hmoves : .close ∉ moves) :
    let run := (Stream.start source batchSize).performAll moves
    let total := (Batch.plan batchSize (rowsOf source.transcript.lines)).length
    let taken := (Stream.received run.2).length
    let few := Stream.requestsBeforeClose run.2 ≤ taken + 1 ∨ total ≤ taken + 1
    (run.1.join.isSome ↔ few) ∧
      ((∀ t, run.1.close.Runs t → t.producer = .stopped ∨ t.step.isSome) ↔ few) ∧
      ∀ t, run.1.close.Runs t → t.step = none → t.producer = .stopped ∨
        ∃ batch next, t.producer = .sending batch next ∧ t.slot.isSome ∧ .close ∈ t.control := by
  intro run total taken few
  obtain ⟨n, haccount, hasked, hplan⟩ := Stream.exists_account hmoves (rfl : run = _)
  have htotal : total = taken + run.1.pending.length := by
    rw [← List.length_append, ← hplan]
  have hfew : n ≤ 1 ∨ run.1.pending.length ≤ 1 ↔ few := by
    simp only [few]
    omega
  refine ⟨haccount.isSome_join_iff.trans hfew, haccount.goes_on_iff.trans hfew, ?_⟩
  intro t hruns
  exact (hruns.keeps Stream.Told.steps (Stream.told_close haccount.closed_eq)).stopped_or

theorem join_ends_iff_after_one_request :
    let log : Source :=
      [.bytes (Text.Utf8.bytes "* \x1B[1mk\x1B[m x\n* \x1B[1mm\x1B[m x\n")]
    let moves : List Stream.Move := .request :: List.replicate 5 .produce
    let s := ((Stream.start log 0).performAll moves).1
    .close ∉ moves ∧ s.slot.isSome ∧ s.join.isSome := by
  intro log moves s
  have hmoves : .close ∉ moves := by decide
  refine ⟨hmoves, ?_, (join_ends_iff log 0 hmoves).1.mpr (.inl ?_)⟩
  · simp only [s, log, Stream.start]
    rw [Source.transcript_eq_ofChunks, Source.chunks_eq]
    decide +kernel
  · simp only [log, Stream.start]
    rw [Source.transcript_eq_ofChunks, Source.chunks_eq]
    decide +kernel

/-- Two rows, each a batch of its own, and a request for each. -/
theorem join_does_not_end_after_two_requests :
    let log : Source :=
      [.bytes (Text.Utf8.bytes "* \x1B[1mk\x1B[m x\n* \x1B[1mm\x1B[m x\n")]
    let s := ((Stream.start log 0).performAll [.request, .request]).1
    s.join = none ∧ ∃ t, s.close.Runs t ∧ t.step = none ∧ t.producer ≠ .stopped := by
  intro log s
  have hstuck : s.close.settle.producer ≠ .stopped := by
    simp only [s, log, Stream.start]
    rw [Source.transcript_eq_ofChunks, Source.chunks_eq]
    decide +kernel
  refine ⟨if_neg hstuck, s.close.settle, Stream.runs_settle _, Stream.step_settle _, hstuck⟩

end RevisionGraph
