import Mathlib.Logic.Relation
import RevisionGraph.Proofs.Batching

/-!
# Steps of a stream

`Stream.pending` are the batches that a consumer has still to receive, and `Stream.unanswered`
counts the requests for which it has received none. `Stream.Steps` says what one step of the
producer can do: it leaves what is pending alone, unless a close has come, and answers no more than
was asked. `Stream.Later` collects what holds after any number of steps.
-/

namespace RevisionGraph

namespace Stream

def pending (s : Stream) : List Batch :=
  s.slot.toList ++ s.producer.remaining s.batchSize

/-- The number of requests for which no batch has been received. -/
def unanswered (s : Stream) : Nat :=
  s.control.count .requestMore + s.producer.underway + s.slot.toList.length

structure Sound (s : Stream) : Prop where
  producer : s.producer.Sound s.batchSize
  control : s.closed = false → .close ∉ s.control

variable {s t : Stream}

/-! ## Steps of the producer -/

inductive Steps (s : Stream) : Stream → Prop
  | readLine {b : RowBuilder} {held : HeldRows} {line : Line} {rest : List Line} :
      s.producer = .reading b held (line :: rest) →
      Steps s { s with producer := .readLine s.batchSize b held line rest }
  | readEnd {b : RowBuilder} {held : HeldRows} :
      s.producer = .reading b held [] →
      Steps s { s with producer := .readEnd s.batchSize b held }
  | answer {batch : Batch} {next : Producer} {rest : List Signal} :
      s.producer = .offering batch next → s.control = .requestMore :: rest →
      Steps s { s with producer := .sending batch next, control := rest }
  | giveUp {batch : Batch} {next : Producer} {rest : List Signal} :
      s.producer = .offering batch next → s.control = .close :: rest →
      Steps s { s with producer := .leaving, control := rest }
  | deliver {batch : Batch} {next : Producer} :
      s.producer = .sending batch next → s.slot = none →
      Steps s { s with producer := next, slot := some batch }
  | leave {signal : Signal} {rest : List Signal} :
      s.producer = .lingering → s.control = signal :: rest →
      Steps s { s with producer := .leaving, control := rest }
  | deafen : s.producer = .leaving → Steps s { s with producer := .deaf, control := [] }
  | stop : s.producer = .deaf → Steps s { s with producer := .stopped }

theorem steps_of_step (h : s.step = some t) : Steps s t := by
  unfold step at h
  split at h
  · next hproducer =>
      obtain rfl := Option.some.inj h
      exact .readLine hproducer
  · next hproducer =>
      obtain rfl := Option.some.inj h
      exact .readEnd hproducer
  · next hproducer =>
      split at h
      · simp at h
      · next hcontrol =>
          obtain rfl := Option.some.inj h
          exact .answer hproducer hcontrol
      · next hcontrol =>
          obtain rfl := Option.some.inj h
          exact .giveUp hproducer hcontrol
  · next hproducer =>
      split at h
      · next hslot =>
          obtain rfl := Option.some.inj h
          exact .deliver hproducer hslot
      · simp at h
  · next hproducer =>
      split at h
      · simp at h
      · next hcontrol =>
          obtain rfl := Option.some.inj h
          exact .leave hproducer hcontrol
  · next hproducer =>
      obtain rfl := Option.some.inj h
      exact .deafen hproducer
  · next hproducer =>
      obtain rfl := Option.some.inj h
      exact .stop hproducer
  · simp at h

/-- The points at which a producer does not go on by itself. -/
inductive Halted (s : Stream) : Prop
  | unasked {batch : Batch} {next : Producer} (offering : s.producer = .offering batch next)
      (control : s.control = [])
  | blocked {batch b : Batch} {next : Producer} (sending : s.producer = .sending batch next)
      (slot : s.slot = some b)
  | lingers (lingering : s.producer = .lingering) (control : s.control = [])
  | ended (stopped : s.producer = .stopped)

theorem halted_of_step (h : s.step = none) : s.Halted := by
  unfold step at h
  split at h
  · contradiction
  · contradiction
  · next hproducer =>
      split at h
      · next hcontrol => exact .unasked hproducer hcontrol
      · contradiction
      · contradiction
  · next hproducer =>
      split at h
      · contradiction
      · next hslot => exact .blocked hproducer hslot
  · next hproducer =>
      split at h
      · next hcontrol => exact .lingers hproducer hcontrol
      · contradiction
  · contradiction
  · contradiction
  · next hproducer => exact .ended hproducer

namespace Steps

theorem batchSize_eq (h : Steps s t) : t.batchSize = s.batchSize := by
  cases h <;> rfl

theorem closed_eq (h : Steps s t) : t.closed = s.closed := by
  cases h <;> rfl

theorem sound (h : Steps s t) (hs : s.Sound) : t.Sound := by
  obtain ⟨hproducer, hcontrol⟩ := hs
  cases h with
  | readLine hreading =>
      rw [hreading] at hproducer
      exact ⟨Producer.sound_readLine hproducer, hcontrol⟩
  | readEnd hreading => exact ⟨Producer.sound_readEnd .., hcontrol⟩
  | answer hoffering hsignal =>
      rw [hoffering] at hproducer
      rw [hsignal] at hcontrol
      exact ⟨hproducer, fun hopen hmem => hcontrol hopen (List.mem_cons_of_mem _ hmem)⟩
  | giveUp hoffering hsignal =>
      rw [hsignal] at hcontrol
      exact ⟨trivial, fun hopen => absurd List.mem_cons_self (hcontrol hopen)⟩
  | deliver hsending hslot =>
      rw [hsending] at hproducer
      exact ⟨hproducer.1, hcontrol⟩
  | leave hlingering hsignal =>
      rw [hsignal] at hcontrol
      exact ⟨trivial, fun hopen hmem => hcontrol hopen (List.mem_cons_of_mem _ hmem)⟩
  | deafen => exact ⟨trivial, fun _ => List.not_mem_nil⟩
  | stop => exact ⟨trivial, hcontrol⟩

theorem pending_eq_or (h : Steps s t) (hs : s.Sound) :
    t.pending = s.pending ∨
      s.closed = true ∧ t.producer.isGone = true ∧ t.pending = s.slot.toList := by
  obtain ⟨hproducer, hcontrol⟩ := hs
  cases h with
  | readLine hreading =>
      left
      rw [hreading] at hproducer
      simp only [pending, hreading, Producer.remaining_readLine hproducer]
  | readEnd hreading =>
      left
      rw [hreading] at hproducer
      simp only [pending, hreading, Producer.remaining_readEnd hproducer]
  | answer hoffering =>
      left
      simp only [pending, hoffering, Producer.remaining]
  | giveUp hoffering hsignal =>
      right
      rw [hsignal] at hcontrol
      refine ⟨?_, rfl, ?_⟩
      · cases hclosed : s.closed with
        | true => rfl
        | false => exact absurd List.mem_cons_self (hcontrol hclosed)
      · simp only [pending, Producer.remaining, List.append_nil]
  | deliver hsending hslot =>
      left
      simp only [pending, hsending, hslot, Producer.remaining]
      rfl
  | leave hlingering =>
      left
      simp only [pending, hlingering, Producer.remaining]
  | deafen hleaving =>
      left
      simp only [pending, hleaving, Producer.remaining]
  | stop hdeaf =>
      left
      simp only [pending, hdeaf, Producer.remaining]

theorem pending_eq (h : Steps s t) (hs : s.Sound) (hopen : s.closed = false) :
    t.pending = s.pending := by
  rcases h.pending_eq_or hs with heq | ⟨hclosed, -⟩
  · exact heq
  · simp [hopen] at hclosed

theorem pending_prefix (h : Steps s t) (hs : s.Sound) : t.pending <+: s.pending := by
  rcases h.pending_eq_or hs with heq | ⟨-, -, heq⟩
  · exact heq ▸ List.prefix_rfl
  · exact heq ▸ List.prefix_append _ _

theorem pending_eq_of_isGone (h : Steps s t) (hs : s.Sound) (hthere : t.producer.isGone = false) :
    t.pending = s.pending := by
  rcases h.pending_eq_or hs with heq | ⟨-, hgone, -⟩
  · exact heq
  · simp [hgone] at hthere

theorem unanswered_eq_of_isGone (h : Steps s t) (hs : s.Sound)
    (hthere : t.producer.isGone = false) : t.unanswered = s.unanswered := by
  have hproducer := hs.producer
  cases h with
  | readLine hreading =>
      simp only [unanswered, hreading, Producer.underway_readLine]
      rfl
  | readEnd hreading =>
      simp only [unanswered, hreading, Producer.underway_readEnd]
      rfl
  | answer hoffering hsignal =>
      simp only [unanswered, hoffering, hsignal, Producer.underway, List.count_cons_self]
  | deliver hsending hslot =>
      rw [hsending] at hproducer
      have hsent : s.producer.underway = 1 := by
        rw [hsending]
        rfl
      simp [unanswered, hslot, hsent, Producer.underway_of_resumes hproducer.2]
  | giveUp | leave | deafen | stop => contradiction

theorem unanswered_le (h : Steps s t) (hs : s.Sound) : t.unanswered ≤ s.unanswered := by
  have hproducer := hs.producer
  cases h with
  | readLine =>
      simp only [unanswered, Producer.underway_readLine]
      omega
  | readEnd =>
      simp only [unanswered, Producer.underway_readEnd]
      omega
  | answer hoffering hsignal =>
      simp only [unanswered, hsignal, Producer.underway, List.count_cons_self]
      omega
  | giveUp hoffering hsignal =>
      simp only [unanswered, hsignal, Producer.underway, List.count_cons]
      omega
  | deliver hsending hslot =>
      rw [hsending] at hproducer
      have hnext := Producer.underway_of_resumes hproducer.2
      have hsent : s.producer.underway = 1 := by
        rw [hsending]
        rfl
      simp [unanswered, hslot, hsent, hnext]
  | leave hlingering hsignal =>
      simp only [unanswered, hsignal, Producer.underway, List.count_cons]
      omega
  | deafen =>
      simp only [unanswered, Producer.underway, List.count_nil]
      omega
  | stop =>
      simp only [unanswered, Producer.underway]
      omega

end Steps

/-! ## Runs of the producer -/

def Runs : Stream → Stream → Prop :=
  Relation.ReflTransGen fun s t => s.step = some t

theorem runs_run (fuel : Nat) (s : Stream) : s.Runs (run fuel s) := by
  induction fuel generalizing s with
  | zero => exact .refl
  | succ fuel ih =>
      unfold run
      cases hstep : s.step with
      | none => exact .refl
      | some t => exact .head hstep (ih t)

theorem runs_settle (s : Stream) : s.Runs s.settle :=
  runs_run _ s

theorem Runs.keeps {P : Stream → Prop} (hruns : s.Runs t)
    (hkeeps : ∀ {u v : Stream}, P u → Steps u v → P v) (h : P s) : P t := by
  induction hruns with
  | refl => exact h
  | tail _ hstep ih => exact hkeeps ih (steps_of_step hstep)

/-- What has become of a stream when its producer has gone on for a while. -/
structure Later (s t : Stream) : Prop where
  sound : t.Sound
  batchSize_eq : t.batchSize = s.batchSize
  closed_eq : t.closed = s.closed
  pending_eq : s.closed = false → t.pending = s.pending
  pending_prefix : t.pending <+: s.pending
  unanswered_le : t.unanswered ≤ s.unanswered

theorem Later.refl (hs : s.Sound) : Later s s :=
  ⟨hs, rfl, rfl, fun _ => rfl, List.prefix_rfl, Nat.le_refl _⟩

theorem Later.trans {u : Stream} (hst : Later s t) (htu : Later t u) : Later s u where
  sound := htu.sound
  batchSize_eq := htu.batchSize_eq.trans hst.batchSize_eq
  closed_eq := htu.closed_eq.trans hst.closed_eq
  pending_eq hopen := (htu.pending_eq (hst.closed_eq.trans hopen)).trans (hst.pending_eq hopen)
  pending_prefix := htu.pending_prefix.trans hst.pending_prefix
  unanswered_le := Nat.le_trans htu.unanswered_le hst.unanswered_le

theorem Steps.later (h : Steps s t) (hs : s.Sound) : Later s t :=
  ⟨h.sound hs, h.batchSize_eq, h.closed_eq, h.pending_eq hs, h.pending_prefix hs,
    h.unanswered_le hs⟩

theorem later_step (hs : s.Sound) : Later s (s.step.getD s) := by
  cases h : s.step with
  | none => exact .refl hs
  | some t => exact (steps_of_step h).later hs

theorem later_settle (hs : s.Sound) : Later s s.settle :=
  (runs_settle s).keeps (fun hlater hsteps => hlater.trans (hsteps.later hlater.sound)) (.refl hs)

/-! ## Calls of the consumer -/

theorem sound_start (source : Source) (n : Nat) : (start source n).Sound :=
  ⟨Producer.sound_start n _, fun _ => List.not_mem_nil⟩

theorem pending_start (source : Source) (n : Nat) :
    (start source n).pending = Batch.plan n (rowsOf source.transcript.lines) :=
  rfl

theorem receive_batch {b : Batch} (h : s.receive = (t, .batch b)) :
    s.slot = some b ∧ t = { s with slot := none } := by
  unfold receive at h
  cases hslot : s.slot with
  | some b' =>
      simp only [hslot, Prod.mk.injEq, Poll.batch.injEq] at h
      obtain ⟨rfl, rfl⟩ := h
      exact ⟨rfl, rfl⟩
  | none =>
      simp only [hslot] at h
      split at h <;> simp at h

theorem pending_of_receive_batch {b : Batch} (h : s.receive = (t, .batch b)) :
    s.pending = b :: t.pending := by
  obtain ⟨hslot, rfl⟩ := receive_batch h
  simp only [pending, hslot, Option.toList_some, Option.toList_none, List.nil_append,
    List.singleton_append]

theorem unanswered_of_receive_batch {b : Batch} (h : s.receive = (t, .batch b)) :
    s.unanswered = t.unanswered + 1 := by
  obtain ⟨hslot, rfl⟩ := receive_batch h
  simp [unanswered, hslot]

theorem receive_finished (h : s.receive = (t, .finished)) :
    t = s ∧ s.slot = none ∧ s.producer = .stopped := by
  unfold receive at h
  cases hslot : s.slot with
  | some b => simp [hslot] at h
  | none =>
      simp only [hslot] at h
      split at h
      · next hstopped => exact ⟨(Prod.mk.inj h).1.symm, rfl, hstopped⟩
      · simp at h

theorem pending_of_receive_finished (h : s.receive = (t, .finished)) : s.pending = [] := by
  obtain ⟨-, hslot, hstopped⟩ := receive_finished h
  simp only [pending, hslot, hstopped, Producer.remaining]
  rfl

theorem receive_pending (h : s.receive = (t, .pending)) : t = s := by
  unfold receive at h
  cases hslot : s.slot with
  | some b => simp [hslot] at h
  | none =>
      simp only [hslot] at h
      split at h
      · simp at h
      · exact (Prod.mk.inj h).1.symm

theorem send_true {signal : Signal} (h : s.send signal = (t, true)) :
    t = { s with control := s.control ++ [signal] } := by
  unfold send at h
  split at h
  · exact (Prod.mk.inj h).1.symm
  · simp at h

theorem send_false {signal : Signal} (h : s.send signal = (t, false)) : t = s := by
  unfold send at h
  split at h
  · simp at h
  · exact (Prod.mk.inj h).1.symm

theorem request_true (h : s.request = (t, true)) :
    s.closed = false ∧ t = { s with control := s.control ++ [.requestMore] } := by
  unfold request at h
  split at h
  · simp at h
  · next hopen => exact ⟨Bool.eq_false_iff.mpr hopen, send_true h⟩

theorem request_false (h : s.request = (t, false)) : t = s := by
  unfold request at h
  split at h
  · exact (Prod.mk.inj h).1.symm
  · exact send_false h

theorem hears_of_request_false (hopen : s.closed = false) (h : s.request = (t, false)) :
    s.producer.hears = false := by
  unfold request send at h
  rw [if_neg (by simp [hopen])] at h
  split at h
  · simp at h
  · next hdeaf => exact Bool.eq_false_iff.mpr hdeaf

theorem Sound.request (hs : s.Sound) : s.request.1.Sound := by
  cases h : s.request with
  | mk t sent =>
      cases sent with
      | false =>
          obtain rfl := request_false h
          exact hs
      | true =>
          obtain ⟨-, rfl⟩ := request_true h
          refine ⟨hs.producer, fun hopen => ?_⟩
          have hcontrol := hs.control hopen
          simp [hcontrol]

@[simp] theorem closed_receive (s : Stream) : s.receive.1.closed = s.closed := by
  unfold receive
  split
  · rfl
  · split <;> rfl

theorem Sound.receive (hs : s.Sound) : s.receive.1.Sound := by
  cases h : s.receive with
  | mk t poll =>
      cases poll with
      | batch b =>
          obtain ⟨-, rfl⟩ := receive_batch h
          exact ⟨hs.producer, hs.control⟩
      | pending =>
          obtain rfl := receive_pending h
          exact hs
      | finished =>
          obtain ⟨rfl, -⟩ := receive_finished h
          exact hs

@[simp] theorem closed_close (s : Stream) : s.close.closed = true := by
  unfold close send
  split
  · assumption
  · split <;> rfl

theorem close_eq (s : Stream) :
    ∃ signals, s.close = { s with closed := true, control := s.control ++ signals } ∧
      .requestMore ∉ signals := by
  unfold close send
  split
  · next hclosed => exact ⟨[], by rw [← hclosed, List.append_nil], List.not_mem_nil⟩
  · split
    · exact ⟨[.close], rfl, by simp⟩
    · exact ⟨[], by rw [List.append_nil], List.not_mem_nil⟩

end Stream

end RevisionGraph
