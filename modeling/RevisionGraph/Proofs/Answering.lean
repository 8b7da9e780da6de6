import RevisionGraph.Proofs.StreamSteps

/-!
# Requests are answered

As long as no more is asked for than is pending, an open stream forgets no request, and when its
producer has come to a halt the batch for one is there. A request beyond the last batch makes the
producer stop.
-/

namespace RevisionGraph.Stream

variable {s t : Stream}

theorem Sound.eq_requestMore (hs : s.Sound) (hopen : s.closed = false) {signal : Signal}
    (h : signal ∈ s.control) : signal = .requestMore := by
  cases signal with
  | requestMore => rfl
  | close => exact absurd h (hs.control hopen)

theorem Steps.unanswered_eq (h : Steps s t) (hs : s.Sound) (hopen : s.closed = false)
    (hle : s.unanswered ≤ s.pending.length) : t.unanswered = s.unanswered := by
  have hproducer := hs.producer
  have hthere := h.unanswered_eq_of_isGone hs
  cases h with
  | readLine | readEnd => exact hthere (Producer.isGone_of_resumes (by simp))
  | answer => exact hthere rfl
  | giveUp hoffering hsignal =>
      have hmem : Signal.close ∈ s.control := by rw [hsignal]; exact List.mem_cons_self
      exact absurd hmem (hs.control hopen)
  | deliver hsending =>
      rw [hsending] at hproducer
      exact hthere (Producer.isGone_of_resumes hproducer.2)
  | @leave signal rest hlingering hsignal =>
      -- Nothing but the slot is pending, so this request would be one too many.
      have hmem : signal ∈ s.control := by rw [hsignal]; exact List.mem_cons_self
      obtain rfl := hs.eq_requestMore hopen hmem
      simp only [unanswered, pending, hlingering, hsignal, Producer.underway, Producer.remaining,
        List.count_cons_self, List.append_nil] at hle
      omega
  | deafen hleaving =>
      simp only [unanswered, pending, hleaving, Producer.underway, Producer.remaining,
        List.append_nil] at hle ⊢
      simp only [List.count_nil]
      omega
  | stop hdeaf =>
      simp only [unanswered, hdeaf, Producer.underway]

/-- An open stream that has as many batches left as are asked for. -/
structure Owes (s : Stream) (n : Nat) : Prop where
  sound : s.Sound
  closed_eq : s.closed = false
  unanswered_eq : s.unanswered = n
  le : n ≤ s.pending.length

theorem Owes.steps {n : Nat} (h : s.Owes n) (hsteps : Steps s t) : t.Owes n := by
  have hunanswered := hsteps.unanswered_eq h.sound h.closed_eq (h.unanswered_eq.symm ▸ h.le)
  refine ⟨hsteps.sound h.sound, hsteps.closed_eq.trans h.closed_eq,
    hunanswered.trans h.unanswered_eq, ?_⟩
  rw [hsteps.pending_eq h.sound h.closed_eq]
  exact h.le

theorem Owes.settle {n : Nat} (h : s.Owes n) : s.settle.Owes n :=
  (runs_settle s).keeps Owes.steps h

theorem Owes.isSome_slot {n : Nat} (h : s.Owes (n + 1)) (hhalt : s.step = none) :
    s.slot.isSome := by
  have hunanswered := h.unanswered_eq
  have hle := h.le
  cases hslot : s.slot with
  | some b => rfl
  | none =>
      exfalso
      cases halted_of_step hhalt with
      | unasked hoffering hcontrol =>
          simp [unanswered, hoffering, hcontrol, hslot, Producer.underway] at hunanswered
      | blocked hsending hfull => simp [hslot] at hfull
      | lingers hlingering => simp [pending, hlingering, hslot, Producer.remaining] at hle
      | ended hstopped => simp [pending, hstopped, hslot, Producer.remaining] at hle

/-- Whoever waits for a batch that is asked for receives it. -/
theorem Owes.receive_settle {n : Nat} (h : s.Owes (n + 1)) :
    ∃ t b, s.settle.receive = (t, .batch b) ∧ t.Owes n ∧ t.slot = none ∧
      s.pending = b :: t.pending := by
  have hsettled := h.settle
  obtain ⟨b, hslot⟩ := Option.isSome_iff_exists.mp (hsettled.isSome_slot s.step_settle)
  have hreceive : s.settle.receive = ({ s.settle with slot := none }, .batch b) := by
    simp only [receive, hslot]
  have hpending := pending_of_receive_batch hreceive
  have hunanswered := unanswered_of_receive_batch hreceive
  have hsound := hsettled.sound.receive
  have hle := hsettled.le
  rw [hreceive] at hsound
  rw [hsettled.unanswered_eq] at hunanswered
  rw [hpending, List.length_cons] at hle
  refine ⟨_, b, hreceive, ⟨hsound, hsettled.closed_eq, by omega, by omega⟩, rfl, ?_⟩
  rw [← hpending, (later_settle h.sound).pending_eq h.closed_eq]

theorem Owes.request {n : Nat} (h : s.Owes n) (hslot : s.slot = none)
    (hmore : n < s.pending.length) :
    ∃ t, s.request = (t, true) ∧ t.Owes (n + 1) ∧ t.pending = s.pending := by
  have hhears : s.producer.hears = true := by
    cases hproducer : s.producer with
    | deaf | stopped => simp [pending, hslot, hproducer, Producer.remaining] at hmore
    | reading | offering | sending | lingering | leaving => rfl
  have hrequest : s.request = ({ s with control := s.control ++ [.requestMore] }, true) := by
    simp [Stream.request, send, h.closed_eq, hhears]
  have hsound := h.sound.request
  have hunanswered := h.unanswered_eq
  rw [hrequest] at hsound
  refine ⟨_, hrequest, ⟨hsound, h.closed_eq, ?_, hmore⟩, rfl⟩
  simp only [unanswered, List.count_append, List.count_singleton_self] at hunanswered ⊢
  omega

/-! ## A request beyond the last batch -/

/-- Nothing is pending, and the producer is on its way out or has a signal that sends it there. -/
structure Ends (s : Stream) : Prop where
  sound : s.Sound
  closed_eq : s.closed = false
  pending_eq : s.pending = []
  goes : s.control ≠ [] ∨ s.producer ∈ [.leaving, .deaf, .stopped]

theorem Ends.steps (h : s.Ends) (hsteps : Steps s t) : t.Ends := by
  have hpending := (hsteps.pending_eq h.sound h.closed_eq).trans h.pending_eq
  have hclosed := hsteps.closed_eq.trans h.closed_eq
  refine ⟨hsteps.sound h.sound, hclosed, hpending, ?_⟩
  have hnone := h.pending_eq
  have hgoes := h.goes
  cases hsteps with
  | readLine hreading =>
      rw [hreading] at hgoes
      exact .inl (hgoes.resolve_right (by simp))
  | readEnd hreading =>
      rw [hreading] at hgoes
      exact .inl (hgoes.resolve_right (by simp))
  | answer hoffering => simp [pending, hoffering, Producer.remaining] at hnone
  | giveUp hoffering => simp [pending, hoffering, Producer.remaining] at hnone
  | deliver hsending => simp [pending, hsending, Producer.remaining] at hnone
  | leave => exact .inr (by simp)
  | deafen => exact .inr (by simp)
  | stop => exact .inr (by simp)

theorem Ends.producer_eq (h : s.Ends) (hhalt : s.step = none) : s.producer = .stopped := by
  have hnone := h.pending_eq
  have hgoes := h.goes
  cases halted_of_step hhalt with
  | unasked hoffering => simp [pending, hoffering, Producer.remaining] at hnone
  | blocked hsending => simp [pending, hsending, Producer.remaining] at hnone
  | lingers hlingering hcontrol => simp [hlingering, hcontrol] at hgoes
  | ended hstopped => exact hstopped

theorem Ends.receive_settle (h : s.Ends) : s.settle.receive = (s.settle, .finished) := by
  have hends : s.settle.Ends := (runs_settle s).keeps Ends.steps h
  have hslot : s.settle.slot = none := by
    have hnone := hends.pending_eq
    simp only [pending, List.append_eq_nil_iff] at hnone
    exact Option.toList_eq_nil_iff.mp hnone.1
  simp [receive, hslot, hends.producer_eq s.step_settle]

end RevisionGraph.Stream
