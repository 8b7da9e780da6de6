import RevisionGraph.CheckedSet
import RevisionGraph.Layout.Viewport
import RevisionGraph.Log.Stream

/-!
# The revision list

The rows of the log, the cursor, the checked revisions, and the stream that feeds the rows. A new
load keeps the rows that are shown until its first batch replaces them; the cursor then goes to the
revision that was asked for, or back to the one it was on. Starting the thread that reads a log is
taken to succeed, so there is no load that fails at its start.
-/

namespace RevisionGraph

structure RevisionList where
  rows : List Row
  cursor : Nat
  checked : CheckedSet
  viewport : Viewport
  stream : Option Stream
  batchSize : Nat
  awaiting : Bool
  /-- The next batch replaces the rows. -/
  replaceNext : Bool
  /-- The revision that the cursor looks for. -/
  pendingSelection : Option String
  deriving DecidableEq, Repr

namespace RevisionList

/-- Rows are requested when fewer than these are left below the cursor and the window. -/
def loadAhead : Nat :=
  10

def initial (batchSize : Nat) : RevisionList :=
  ⟨[], 0, .empty, .initial, none, batchSize, false, false, none⟩

def selected (v : RevisionList) : Option Commit :=
  v.rows[v.cursor]?.map Row.commit

def isLoading (v : RevisionList) : Bool :=
  v.stream.isSome

/-! ## Loading -/

def startLoad (v : RevisionList) (source : Source) (select : Option String) : RevisionList :=
  let (stream, awaiting) := (Stream.start source v.batchSize).request
  { v with
    stream := some stream
    awaiting := awaiting
    replaceNext := true
    pendingSelection := select <|> v.selected.map Commit.changeId }

def lastIndex (v : RevisionList) : Nat :=
  v.rows.length - 1

def clampCursor (v : RevisionList) : RevisionList :=
  { v with cursor := min v.cursor v.lastIndex }

/-- The row is meant by a name: `@` for the working copy, or one of its ids. -/
def isNamed (name : String) (row : Row) : Bool :=
  if name = "@" then row.commit.isWorkingCopy
  else
    row.commit.changeId == name || row.commit.revision == name ||
      row.commit.commitId == some name

def findRevision? (v : RevisionList) (name : String) : Option Nat :=
  v.rows.findIdx? (isNamed name)

def selectPending (v : RevisionList) : RevisionList :=
  match v.pendingSelection.bind v.findRevision? with
  | none => v
  | some index => { v with cursor := index, pendingSelection := none }

/-- Ends the load. One that brought no batch leaves no rows. -/
def finishLoad (v : RevisionList) : RevisionList :=
  clampCursor
    { v with
      rows := if v.replaceNext then [] else v.rows
      stream := none
      awaiting := false
      replaceNext := false
      pendingSelection := none }

def addRows (v : RevisionList) (rows : List Row) : RevisionList :=
  if v.replaceNext then
    { v with rows := rows, cursor := 0, viewport := v.viewport.reset, replaceNext := false }
  else
    { v with rows := v.rows ++ rows }

def applyBatch (v : RevisionList) (batch : Batch) : RevisionList :=
  let v := (v.addRows batch.rows).selectPending.clampCursor
  if batch.hasMore then v else v.finishLoad

def takeIn (v : RevisionList) : RevisionList × Bool :=
  match v.stream.map Stream.receive with
  | none => (v, false)
  | some (_, .pending) => (v, false)
  | some (_, .finished) => (v.finishLoad, true)
  | some (stream, .batch batch) =>
      (applyBatch { v with stream := some stream, awaiting := false } batch, true)

def settle (v : RevisionList) : RevisionList :=
  { v with stream := v.stream.map Stream.settle }

/-- Takes in what is there. When `blocking`, an outstanding request is answered first. -/
def turn (v : RevisionList) (blocking : Bool) : RevisionList × Bool :=
  (if blocking && v.awaiting then v.settle else v).takeIn

def work (v : RevisionList) : Nat :=
  v.stream.elim 0 fun s => s.work + 1

@[simp] theorem stream_addRows (v : RevisionList) (rows : List Row) :
    (v.addRows rows).stream = v.stream := by
  simp only [addRows]
  split <;> rfl

@[simp] theorem stream_selectPending (v : RevisionList) : v.selectPending.stream = v.stream := by
  simp only [selectPending]
  split <;> rfl

@[simp] theorem stream_clampCursor (v : RevisionList) : v.clampCursor.stream = v.stream :=
  rfl

@[simp] theorem stream_finishLoad (v : RevisionList) : v.finishLoad.stream = none :=
  rfl

theorem stream_applyBatch (v : RevisionList) (batch : Batch) :
    (v.applyBatch batch).stream = if batch.hasMore then v.stream else none := by
  simp only [applyBatch]
  split <;> simp

theorem work_takeIn_lt {v w : RevisionList} (h : v.takeIn = (w, true)) : w.work < v.work := by
  simp only [takeIn] at h
  cases hstream : v.stream with
  | none => simp [hstream] at h
  | some s =>
      simp only [hstream, Option.map_some] at h
      split at h
      · simp at h
      · simp at h
      · obtain ⟨rfl, -⟩ := Prod.mk.inj h
        simp [work, hstream]
      · next t batch hreceive =>
          obtain ⟨rfl, -⟩ := Prod.mk.inj h
          have hlt := Stream.work_receive_lt (Option.some.inj hreceive)
          simp only [work, stream_applyBatch, hstream]
          split <;> simp
          omega

theorem work_turn_lt {v w : RevisionList} {blocking : Bool} (h : v.turn blocking = (w, true)) :
    w.work < v.work := by
  simp only [turn] at h
  split at h
  · have hlt := work_takeIn_lt h
    cases hstream : v.stream with
    | none => simp [settle, work, hstream] at hlt
    | some s =>
        have hle := s.work_settle_le
        simp only [settle, work, hstream, Option.map_some, Option.elim_some] at hlt ⊢
        omega
  · exact work_takeIn_lt h

def pump (v : RevisionList) (blocking : Bool) : RevisionList × Bool :=
  match _ : v.turn blocking with
  | (w, true) => ((w.pump blocking).1, true)
  | (w, false) => (w, false)
termination_by v.work
decreasing_by exact work_turn_lt ‹_›

def horizon (v : RevisionList) : Nat :=
  max (v.viewport.layout.lastIndex?.getD 0) v.cursor

def requestMore (v : RevisionList) : RevisionList × Bool :=
  match v.stream with
  | none => (v, false)
  | some stream =>
      if v.awaiting || v.replaceNext || v.horizon + loadAhead < v.rows.length then (v, false)
      else
        let (stream, sent) := stream.request
        ({ v with stream := some stream, awaiting := sent }, sent)

/-! ## The cursor -/

def select (v : RevisionList) (index : Nat) : RevisionList × Bool :=
  if v.rows.length ≤ index ∨ index = v.cursor then (v, false)
  else ({ v with cursor := index }, true)

def moveCursor (v : RevisionList) (delta : Int) : RevisionList × Bool :=
  v.select (min (moveBy v.cursor delta) v.lastIndex)

def selectFirst (v : RevisionList) : RevisionList × Bool :=
  v.select 0

def selectLast (v : RevisionList) : RevisionList × Bool :=
  v.select v.lastIndex

def pageLength (v : RevisionList) : Nat :=
  max v.viewport.spans.length 1

def scrollBy (v : RevisionList) (delta : Int) : RevisionList :=
  { v with viewport := v.viewport.scrollBy delta }

/-! ## Checking -/

def toggleSelected (v : RevisionList) : RevisionList :=
  { v with checked := v.selected.elim v.checked v.checked.toggle }

def indexOf? (v : RevisionList) (changeId : String) : Option Nat :=
  v.rows.findIdx? fun row => row.commit.changeId == changeId

def commitsBetween (v : RevisionList) (first last : Nat) : List Commit :=
  ((v.rows.take (last + 1)).drop first).map Row.commit

/-- Toggles every row between two change ids, in whichever order they stand. False when one of them
is not there. -/
def toggleRange (v : RevisionList) (first last : String) : RevisionList × Bool :=
  match v.indexOf? first, v.indexOf? last with
  | some a, some b =>
      ({ v with checked := v.checked.toggleAll (v.commitsBetween (min a b) (max a b)) }, true)
  | _, _ => (v, false)

end RevisionList

end RevisionGraph
