import RevisionGraph.Proofs.Reading
import RevisionGraph.Proofs.StreamSteps

/-!
# The exchange of requests and batches

A run is a list of moves, in which the steps of the producer and the calls of the consumer come in
any order. Each move is explained by what is seen of it (`Stream.Explains`): a batch that is
received is the first one pending and answers a request.
-/

namespace RevisionGraph

namespace Stream

variable {s t : Stream}

/-! ## Moves -/

/-- What producer and consumer can do next. A call that waits lets the producer go on until it waits
in turn; one that returns before that takes what is there, which is what a poll does. -/
inductive Move where
  | produce
  | request
  | poll
  | wait
  | close
  deriving DecidableEq, Repr

/-- What a consumer sees of a run: the requests that were sent, the batches that came, and the first
close. -/
inductive Event where
  | requested
  | received (batch : Batch)
  | closed
  deriving DecidableEq, Repr

def Event.batch? : Event → Option Batch
  | .received batch => some batch
  | .requested | .closed => none

def Event.ofPoll : Poll → Option Event
  | .batch batch => some (.received batch)
  | .pending | .finished => none

def perform (s : Stream) : Move → Stream × Option Event
  | .produce => (s.step.getD s, none)
  | .request => (s.request.1, if s.request.2 then some .requested else none)
  | .poll => (s.receive.1, Event.ofPoll s.receive.2)
  | .wait => (s.receiveNext.1, Event.ofPoll s.receiveNext.2)
  | .close => (s.close, if s.closed then none else some .closed)

def performAll (s : Stream) : List Move → Stream × List Event
  | [] => (s, [])
  | move :: moves =>
      let (t, event) := s.perform move
      let (u, events) := t.performAll moves
      (u, event.toList ++ events)

def received (events : List Event) : List Batch :=
  events.filterMap Event.batch?

def requestsBeforeClose (events : List Event) : Nat :=
  (events.takeWhile (· ≠ .closed)).count .requested

def Explains (s : Stream) : Stream × Option Event → Prop
  | (t, none) => t.pending <+: s.pending ∧ t.unanswered ≤ s.unanswered
  | (t, some .requested) =>
      s.closed = false ∧ t.pending <+: s.pending ∧ t.unanswered ≤ s.unanswered + 1
  | (t, some (.received batch)) =>
      batch :: t.pending <+: s.pending ∧ t.unanswered + 1 ≤ s.unanswered
  | (t, some .closed) =>
      t.closed = true ∧ t.pending <+: s.pending ∧ t.unanswered ≤ s.unanswered

theorem explains_receive (hst : Later s t) :
    s.Explains (t.receive.1, Event.ofPoll t.receive.2) := by
  cases h : t.receive with
  | mk u poll =>
      cases poll with
      | batch b =>
          have hpending := pending_of_receive_batch h
          have hunanswered := unanswered_of_receive_batch h
          exact ⟨hpending ▸ hst.pending_prefix, hunanswered ▸ hst.unanswered_le⟩
      | pending =>
          obtain rfl := receive_pending h
          exact ⟨hst.pending_prefix, hst.unanswered_le⟩
      | finished =>
          obtain ⟨rfl, -⟩ := receive_finished h
          exact ⟨hst.pending_prefix, hst.unanswered_le⟩

theorem explains_perform (hs : s.Sound) (move : Move) : s.Explains (s.perform move) := by
  cases move with
  | produce =>
      have hst := later_step hs
      exact ⟨hst.pending_prefix, hst.unanswered_le⟩
  | request =>
      cases h : s.request with
      | mk t sent =>
          cases sent with
          | false =>
              obtain rfl := request_false h
              simp [perform, h, Explains]
          | true =>
              obtain ⟨hopen, rfl⟩ := request_true h
              simp only [perform, h, if_true]
              refine ⟨hopen, List.prefix_rfl, ?_⟩
              simp only [unanswered, List.count_append, List.count_singleton_self]
              omega
  | poll => exact explains_receive (.refl hs)
  | wait => exact explains_receive (later_settle hs)
  | close =>
      obtain ⟨signals, hclose, hsignals⟩ := close_eq s
      have hpending : s.close.pending = s.pending := by
        rw [hclose]
        rfl
      have hunanswered : s.close.unanswered = s.unanswered := by
        rw [hclose]
        simp [unanswered, List.count_eq_zero.mpr hsignals]
      unfold perform
      cases s.closed with
      | true => exact ⟨hpending ▸ List.prefix_rfl, Nat.le_of_eq hunanswered⟩
      | false => exact ⟨closed_close s, hpending ▸ List.prefix_rfl, Nat.le_of_eq hunanswered⟩

/-! ## Runs -/

theorem performAll_concat (s : Stream) (moves : List Move) (move : Move) :
    s.performAll (moves ++ [move]) =
      (((s.performAll moves).1.perform move).1,
        (s.performAll moves).2 ++ ((s.performAll moves).1.perform move).2.toList) := by
  induction moves generalizing s with
  | nil => simp [performAll]
  | cons first moves ih =>
      simp only [List.cons_append, performAll, ih, List.append_assoc]

@[simp] theorem received_nil : received [] = [] :=
  rfl

@[simp] theorem received_append (first second : List Event) :
    received (first ++ second) = received first ++ received second :=
  List.filterMap_append

@[simp] theorem received_requested (events : List Event) :
    received (.requested :: events) = received events :=
  rfl

@[simp] theorem received_received (batch : Batch) (events : List Event) :
    received (.received batch :: events) = batch :: received events :=
  rfl

@[simp] theorem received_closed (events : List Event) :
    received (.closed :: events) = received events :=
  rfl

@[simp] theorem requestsBeforeClose_requested (events : List Event) :
    requestsBeforeClose (.requested :: events) = requestsBeforeClose events + 1 := by
  simp [requestsBeforeClose]

@[simp] theorem requestsBeforeClose_received (batch : Batch) (events : List Event) :
    requestsBeforeClose (.received batch :: events) = requestsBeforeClose events := by
  simp [requestsBeforeClose]

@[simp] theorem requestsBeforeClose_closed (events : List Event) :
    requestsBeforeClose (.closed :: events) = 0 := by
  simp [requestsBeforeClose]

theorem requestsBeforeClose_eq_zero {events : List Event} (h : .requested ∉ events) :
    requestsBeforeClose events = 0 := by
  rw [requestsBeforeClose, List.count_eq_zero]
  intro hmem
  exact h (List.takeWhile_subset _ hmem)

theorem sound_perform (hs : s.Sound) (move : Move) : (s.perform move).1.Sound := by
  cases move with
  | produce => exact (later_step hs).sound
  | request => exact hs.request
  | poll => exact hs.receive
  | wait => exact (later_settle hs).sound.receive
  | close =>
      obtain ⟨signals, hclose, -⟩ := close_eq s
      refine ⟨?_, fun hopen => ?_⟩
      · simp only [perform, hclose]
        exact hs.producer
      · simp [perform] at hopen

theorem closed_perform (hs : s.Sound) (hclosed : s.closed = true) (move : Move) :
    (s.perform move).1.closed = true := by
  cases move with
  | produce => exact (later_step hs).closed_eq.trans hclosed
  | request =>
      unfold perform request
      rw [if_pos hclosed]
      exact hclosed
  | poll => exact (closed_receive s).trans hclosed
  | wait => exact (closed_receive s.settle).trans ((later_settle hs).closed_eq.trans hclosed)
  | close => exact closed_close s

theorem requested_notMem_of_closed (hs : s.Sound) (hclosed : s.closed = true) (moves : List Move) :
    .requested ∉ (s.performAll moves).2 := by
  induction moves generalizing s with
  | nil => exact List.not_mem_nil
  | cons move moves ih =>
      have hexplains := explains_perform hs move
      have hrest := ih (sound_perform hs move) (closed_perform hs hclosed move)
      unfold performAll
      cases h : s.perform move with
      | mk t event =>
          simp only [h] at hexplains hrest
          intro hmem
          rcases List.mem_append.mp hmem with hhere | hlater
          · obtain rfl := Option.mem_toList.mp hhere
            have hopen := hexplains.1
            simp [hclosed] at hopen
          · exact hrest hlater

theorem received_prefix (hs : s.Sound) (moves : List Move) :
    received (s.performAll moves).2 <+: s.pending := by
  induction moves generalizing s with
  | nil => exact List.nil_prefix
  | cons move moves ih =>
      have hexplains := explains_perform hs move
      have hrest := ih (sound_perform hs move)
      unfold performAll
      cases h : s.perform move with
      | mk t event =>
          simp only [h] at hexplains hrest
          cases event with
          | none => exact hrest.trans hexplains.1
          | some event =>
              cases event with
              | requested => exact hrest.trans hexplains.2.1
              | received batch =>
                  exact (List.cons_prefix_cons.mpr ⟨rfl, hrest⟩).trans hexplains.1
              | closed => exact hrest.trans hexplains.2.1

theorem length_received_le (hs : s.Sound) (moves : List Move) :
    (received (s.performAll moves).2).length ≤
      s.unanswered + requestsBeforeClose (s.performAll moves).2 := by
  induction moves generalizing s with
  | nil => exact Nat.zero_le _
  | cons move moves ih =>
      have hexplains := explains_perform hs move
      have hsound := sound_perform hs move
      have hrest := ih hsound
      unfold performAll
      cases h : s.perform move with
      | mk t event =>
          simp only [h] at hexplains hrest hsound
          cases event with
          | none => exact Nat.le_trans hrest (Nat.add_le_add_right hexplains.2 _)
          | some event =>
              cases event with
              | requested =>
                  have hunanswered := hexplains.2.2
                  simp only [Option.toList_some, List.singleton_append, received_requested,
                    requestsBeforeClose_requested]
                  omega
              | received batch =>
                  have hunanswered := hexplains.2
                  simp only [Option.toList_some, List.singleton_append, received_received,
                    requestsBeforeClose_received, List.length_cons]
                  omega
              | closed =>
                  -- Requests stop counting here, and none is sent from here on.
                  obtain ⟨hclosed, -, hunanswered⟩ := hexplains
                  have hnone := requested_notMem_of_closed hsound hclosed moves
                  have hzero := requestsBeforeClose_eq_zero hnone
                  simp only [Option.toList_some, List.singleton_append, received_closed,
                    requestsBeforeClose_closed]
                  omega

end Stream

/-! ## Logs -/

theorem parseLog_of_failure? {source : Source} (h : source.failure? = none) :
    parseLog source = .ok (rowsOf source.transcript.lines) := by
  have hfailure := source.failure_transcript
  unfold parseLog
  split
  · next hlines => rw [hlines]
  · next hlines =>
      rw [hlines, h] at hfailure
      simp at hfailure

theorem rows_of_parseLog {source : Source} {rows : List Row} (h : parseLog source = .ok rows) :
    rows = rowsOf source.transcript.lines := by
  unfold parseLog at h
  split at h
  · next hlines =>
      rw [hlines]
      exact (Except.ok.inj h).symm
  · simp at h

/-- Whichever way producer and consumer take turns, the batches received are the first ones of the
plan for the rows of the log, and no more than the requests sent before the first close. -/
theorem received_batches_follow_plan {source : Source} {rows : List Row}
    (hrows : parseLog source = .ok rows) (batchSize : Nat) (moves : List Stream.Move) :
    let events := ((Stream.start source batchSize).performAll moves).2
    Stream.received events <+: Batch.plan batchSize rows ∧
      (Stream.received events).length ≤ Stream.requestsBeforeClose events := by
  obtain rfl := rows_of_parseLog hrows
  have hsound := Stream.sound_start source batchSize
  have hlength := Stream.length_received_le hsound moves
  constructor
  · exact Stream.received_prefix hsound moves
  · simpa [Stream.unanswered, Stream.start, Producer.start, Producer.underway] using hlength

theorem received_batches_follow_plan_of_two_rows :
    let log : Source :=
      [.bytes (Text.Utf8.bytes "* \x1B[1mk\x1B[m x\n"), .interrupted,
        .bytes (Text.Utf8.bytes "* \x1B[1mm\x1B[m x\n")]
    let events := ((Stream.start log 0).performAll
      [.produce, .request, .produce, .wait, .poll, .request, .wait, .close, .request]).2
    ∃ rows, parseLog log = .ok rows ∧ rows.length = 2 ∧
      Stream.received events <+: Batch.plan 0 rows ∧
      (Stream.received events).length ≤ Stream.requestsBeforeClose events := by
  intro log events
  have hrows : parseLog log = .ok (rowsOf log.transcript.lines) := parseLog_of_failure? rfl
  refine ⟨_, hrows, ?_, received_batches_follow_plan hrows 0 _⟩
  rw [Source.transcript_eq_ofChunks, Source.chunks_eq]
  decide +kernel

end RevisionGraph
