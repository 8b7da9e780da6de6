import RevisionGraph.Log.Builder
import RevisionGraph.Log.Held

/-!
# Streaming rows

Two parties share a log. The producer reads lines and builds rows; whenever it holds more than
`batchSize` rows and another is about to be sealed it parks until the consumer signals. A request
makes it hand over what it holds, and a close makes it stop. Signals wait in a queue, oldest first,
and batches pass through a slot that holds one. At the end of the input the producer hands over the
remainder in the same way and then waits for one last signal. When it stops it gives up the queue
first and then the slot, so that a request may fail before the consumer finds the stream finished.

`Stream.step` is one step of the producer, which any number of consumer calls may come between.
`Stream.settle` takes steps until the producer waits or has stopped.
-/

namespace RevisionGraph

inductive Signal where
  | requestMore
  | close
  deriving DecidableEq, Repr

structure Batch where
  rows : List Row
  hasMore : Bool
  deriving DecidableEq, Repr

/-! ## The producer -/

inductive Producer where
  | reading (builder : RowBuilder) (held : HeldRows) (rest : List Line)
  /-- Parked with a batch. `next` is where it goes on after the batch has been taken. -/
  | offering (batch : Batch) (next : Producer)
  /-- A request has come, and the batch waits for the slot. -/
  | sending (batch : Batch) (next : Producer)
  | lingering
  | leaving
  /-- Has given up the queue of signals, but not yet the slot. -/
  | deaf
  | stopped
  deriving DecidableEq, Repr

namespace Producer

def start (lines : List Line) : Producer :=
  .reading .empty .empty lines

/-- A line is read. One that starts a row makes the producer offer what it holds first. -/
def readLine (batchSize : Nat) (b : RowBuilder) (held : HeldRows) (line : Line)
    (rest : List Line) : Producer :=
  let (b', row) := b.push line
  if batchSize < held.size ∧ line.startsRow then
    .offering ⟨held.toList, true⟩ (.reading b' (.ofList row.toList) rest)
  else
    .reading b' (held.pushAll row.toList) rest

/-- The end of the input seals the open row, which may need a batch of its own. -/
def readEnd (batchSize : Nat) (b : RowBuilder) (held : HeldRows) : Producer :=
  match b.finish.2 with
  | none => if held.size = 0 then .lingering else .offering ⟨held.toList, false⟩ .lingering
  | some last =>
      if batchSize < held.size then
        .offering ⟨held.toList, true⟩ (.offering ⟨[last], false⟩ .lingering)
      else
        .offering ⟨(held.push last).toList, false⟩ .lingering

def hears : Producer → Bool
  | .deaf | .stopped => false
  | .reading .. | .offering .. | .sending .. | .lingering | .leaving => true

/-- An upper bound on the steps that are left. -/
def work : Producer → Nat
  | .reading _ _ rest => 4 * rest.length + 10
  | .offering _ next => next.work + 3
  | .sending _ next => next.work + 1
  | .lingering => 3
  | .leaving => 2
  | .deaf => 1
  | .stopped => 0

theorem work_readLine_lt (n : Nat) (b : RowBuilder) (held : HeldRows) (line : Line)
    (rest : List Line) :
    (readLine n b held line rest).work < (Producer.reading b held (line :: rest)).work := by
  simp only [readLine]
  split <;> simp only [work, List.length_cons] <;> omega

theorem work_readEnd_lt (n : Nat) (b : RowBuilder) (held : HeldRows) :
    (readEnd n b held).work < (Producer.reading b held []).work := by
  simp only [readEnd]
  split <;> split <;> simp [work]

end Producer

/-! ## Both parties -/

structure Stream where
  batchSize : Nat
  producer : Producer
  control : List Signal
  slot : Option Batch
  closed : Bool
  deriving DecidableEq, Repr

namespace Stream

def start (source : Source) (batchSize : Nat) : Stream :=
  ⟨batchSize, .start source.transcript.lines, [], none, false⟩

def step (s : Stream) : Option Stream :=
  match s.producer with
  | .reading b held (line :: rest) =>
      some { s with producer := .readLine s.batchSize b held line rest }
  | .reading b held [] => some { s with producer := .readEnd s.batchSize b held }
  | .offering batch next =>
      match s.control with
      | [] => none
      | .requestMore :: rest => some { s with producer := .sending batch next, control := rest }
      | .close :: rest => some { s with producer := .leaving, control := rest }
  | .sending batch next =>
      match s.slot with
      | none => some { s with producer := next, slot := some batch }
      | some _ => none
  | .lingering =>
      match s.control with
      | [] => none
      | _ :: rest => some { s with producer := .leaving, control := rest }
  | .leaving => some { s with producer := .deaf, control := [] }
  | .deaf => some { s with producer := .stopped }
  | .stopped => none

theorem work_step_lt {s t : Stream} (h : s.step = some t) : t.producer.work < s.producer.work := by
  simp only [step] at h
  split at h
  · simp only [Option.some.injEq] at h
    subst h
    simp only [*]
    exact Producer.work_readLine_lt ..
  · simp only [Option.some.injEq] at h
    subst h
    simp only [*]
    exact Producer.work_readEnd_lt ..
  · split at h <;> simp only [reduceCtorEq, Option.some.injEq] at h <;> subst h <;>
      simp only [*, Producer.work] <;> omega
  · split at h <;> simp only [reduceCtorEq, Option.some.injEq] at h
    subst h
    simp [*, Producer.work]
  · split at h <;> simp only [reduceCtorEq, Option.some.injEq] at h
    subst h
    simp [*, Producer.work]
  · simp only [Option.some.injEq] at h
    subst h
    simp [*, Producer.work]
  · simp only [Option.some.injEq] at h
    subst h
    simp [*, Producer.work]
  · simp at h

def run : Nat → Stream → Stream
  | 0, s => s
  | n + 1, s =>
      match s.step with
      | none => s
      | some t => run n t

/-- Lets the producer go on until it waits or has stopped. -/
def settle (s : Stream) : Stream :=
  run s.producer.work s

private theorem step_run {n : Nat} {s : Stream} (h : s.producer.work ≤ n) :
    (run n s).step = none := by
  induction n generalizing s with
  | zero =>
      simp only [run]
      cases hs : s.step with
      | none => rfl
      | some t =>
          have := work_step_lt hs
          omega
  | succ n ih =>
      simp only [run]
      split
      · assumption
      · rename_i t ht
        have := work_step_lt ht
        exact ih (by omega)

theorem step_settle (s : Stream) : s.settle.step = none :=
  step_run (Nat.le_refl _)

def work (s : Stream) : Nat :=
  2 * s.producer.work + if s.slot.isSome then 1 else 0

theorem work_run_le (n : Nat) (s : Stream) : (run n s).work ≤ s.work := by
  induction n generalizing s with
  | zero => exact Nat.le_refl _
  | succ n ih =>
      simp only [run]
      split
      · exact Nat.le_refl _
      · next t ht =>
          have hproducer := work_step_lt ht
          have hrest := ih t
          have hslot : (if t.slot.isSome then 1 else 0) ≤ 1 := by split <;> omega
          simp only [work] at hrest ⊢
          omega

theorem work_settle_le (s : Stream) : s.settle.work ≤ s.work :=
  work_run_le _ s

/-! ## The consumer -/

inductive Poll where
  | batch (b : Batch)
  | pending
  | finished
  deriving DecidableEq, Repr

def send (s : Stream) (signal : Signal) : Stream × Bool :=
  if s.producer.hears then ({ s with control := s.control ++ [signal] }, true) else (s, false)

/-- Asks for a batch. False when the stream is closed or the producer is gone. -/
def request (s : Stream) : Stream × Bool :=
  if s.closed then (s, false) else s.send .requestMore

def close (s : Stream) : Stream :=
  if s.closed then s else ({ s with closed := true }.send .close).1

def receive (s : Stream) : Stream × Poll :=
  match s.slot with
  | some b => ({ s with slot := none }, .batch b)
  | none => if s.producer = .stopped then (s, .finished) else (s, .pending)

theorem work_receive_lt {s t : Stream} {b : Batch} (h : s.receive = (t, .batch b)) :
    t.work < s.work := by
  simp only [receive] at h
  split at h
  · next hslot =>
      obtain ⟨rfl, -⟩ := Prod.mk.inj h
      simp [work, hslot]
  · split at h <;> simp at h

def receiveNext (s : Stream) : Stream × Poll :=
  s.settle.receive

def collect : Nat → Stream → List Row
  | 0, _ => []
  | n + 1, s =>
      match s.request with
      | (_, false) => []
      | (s', true) =>
          match s'.receiveNext with
          | (s'', .batch b) => b.rows ++ if b.hasMore then collect n s'' else []
          | _ => []

/-- The rows of all batches that are left. The stream is joined afterwards. -/
def drain (s : Stream) : List Row :=
  s.collect (s.producer.work + 1)

/-- Closes the stream and waits for the producer to stop, while the slot keeps what it holds. None
when the wait has no end. -/
def join (s : Stream) : Option Stream :=
  let t := s.close.settle
  if t.producer = .stopped then some t else none

end Stream

end RevisionGraph
