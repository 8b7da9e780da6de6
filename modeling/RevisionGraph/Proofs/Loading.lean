import RevisionGraph.Proofs.Exchange
import RevisionGraph.Proofs.RowPartition
import RevisionGraph.View.RevisionListDrawing

/-!
# Rows of the last load

While a load goes on, the rows that it has brought and those that its stream has still to bring make
up the log; when it is complete the rows are the log (`RevisionList.Follows`). No action but another
load changes the log that is followed, whatever the producer does in the meantime.
-/

namespace RevisionGraph

/-! ## Streams that feed a list -/

namespace Stream

variable {s t : Stream} {n : Nat} {batches : List Batch}

/-- An open stream from which these batches are to come. -/
structure Feeds (s : Stream) (n : Nat) (batches : List Batch) : Prop where
  sound : s.Sound
  closed_eq : s.closed = false
  batchSize_eq : s.batchSize = n
  pending_eq : s.pending = batches

theorem feeds_start (source : Source) (n : Nat) :
    (start source n).Feeds n (Batch.plan n (rowsOf source.transcript.lines)) :=
  ⟨sound_start source n, rfl, rfl, pending_start source n⟩

namespace Feeds

theorem later (h : s.Feeds n batches) (hst : Later s t) : t.Feeds n batches where
  sound := hst.sound
  closed_eq := hst.closed_eq.trans h.closed_eq
  batchSize_eq := hst.batchSize_eq.trans h.batchSize_eq
  pending_eq := (hst.pending_eq h.closed_eq).trans h.pending_eq

theorem request (h : s.Feeds n batches) : s.request.1.Feeds n batches := by
  have hsound := h.sound.request
  cases hrequest : s.request with
  | mk t sent =>
      rw [hrequest] at hsound
      cases sent with
      | false =>
          obtain rfl := request_false hrequest
          exact h
      | true =>
          obtain ⟨-, rfl⟩ := request_true hrequest
          exact ⟨hsound, h.closed_eq, h.batchSize_eq, h.pending_eq⟩

theorem receive_batch {b : Batch} (h : s.Feeds n batches) (hreceive : s.receive = (t, .batch b)) :
    ∃ later, batches = b :: later ∧ t.Feeds n later := by
  have hsound := h.sound.receive
  have hpending := pending_of_receive_batch hreceive
  rw [hreceive] at hsound
  obtain ⟨-, rfl⟩ := Stream.receive_batch hreceive
  refine ⟨_, ?_, hsound, h.closed_eq, h.batchSize_eq, rfl⟩
  rw [← h.pending_eq, hpending]

theorem receive_finished (h : s.Feeds n batches) (hreceive : s.receive = (t, .finished)) :
    batches = [] := by
  rw [← h.pending_eq, pending_of_receive_finished hreceive]

end Feeds

end Stream

namespace RevisionList

variable {v w : RevisionList}

/-! ## What keeps the log -/

structure SameLog (v w : RevisionList) : Prop where
  rows : w.rows = v.rows
  stream : w.stream = v.stream
  batchSize : w.batchSize = v.batchSize
  replaceNext : w.replaceNext = v.replaceNext

theorem SameLog.refl (v : RevisionList) : SameLog v v :=
  ⟨rfl, rfl, rfl, rfl⟩

theorem SameLog.trans {u : RevisionList} (hvw : SameLog v w) (hwu : SameLog w u) : SameLog v u where
  rows := hwu.rows.trans hvw.rows
  stream := hwu.stream.trans hvw.stream
  batchSize := hwu.batchSize.trans hvw.batchSize
  replaceNext := hwu.replaceNext.trans hvw.replaceNext

theorem sameLog_clampCursor (v : RevisionList) : SameLog v v.clampCursor :=
  ⟨rfl, rfl, rfl, rfl⟩

theorem sameLog_selectPending (v : RevisionList) : SameLog v v.selectPending := by
  unfold selectPending
  split
  · exact .refl v
  · exact ⟨rfl, rfl, rfl, rfl⟩

theorem viewport_selectPending (v : RevisionList) : v.selectPending.viewport = v.viewport := by
  unfold selectPending
  split <;> rfl

theorem select_eq (v : RevisionList) (index : Nat) :
    ∃ cursor, (v.select index).1 = { v with cursor := cursor } ∧
      (v.cursor ≤ v.lastIndex → cursor ≤ v.lastIndex) := by
  unfold select
  split
  · exact ⟨v.cursor, rfl, id⟩
  · next hindex =>
      refine ⟨index, rfl, fun _ => ?_⟩
      unfold lastIndex
      omega

theorem toggleRange_eq (v : RevisionList) (first last : String) :
    ∃ checked, (v.toggleRange first last).1 = { v with checked := checked } := by
  unfold toggleRange
  split
  · exact ⟨_, rfl⟩
  · exact ⟨v.checked, rfl⟩

theorem draw_eq (v : RevisionList) (area : Rect) (theme : Theme) (operation : Option Operation)
    (follow : Bool) (targets : Targets ScreenTarget) :
    ∃ viewport, (v.draw area theme operation follow targets).1 =
      { v with viewport := viewport } := by
  unfold draw
  split <;> exact ⟨_, rfl⟩

theorem requestMore_eq (v : RevisionList) :
    ∃ stream awaiting, v.requestMore.1 = { v with stream := stream, awaiting := awaiting } ∧
      stream.isSome = v.stream.isSome := by
  unfold requestMore
  split
  · exact ⟨v.stream, v.awaiting, rfl, rfl⟩
  · next s hstream =>
      split
      · exact ⟨v.stream, v.awaiting, rfl, rfl⟩
      · exact ⟨_, _, rfl, by rw [hstream]; rfl⟩

/-! ## What a batch changes -/

def brought (v : RevisionList) : List Row :=
  if v.replaceNext then [] else v.rows

theorem brought_of_replaceNext (h : v.replaceNext = false) : v.brought = v.rows := by
  simp [brought, h]

theorem SameLog.brought (h : SameLog v w) : w.brought = v.brought := by
  simp only [RevisionList.brought, h.rows, h.replaceNext]

theorem rows_addRows (v : RevisionList) (rows : List Row) :
    (v.addRows rows).rows = v.brought ++ rows := by
  unfold addRows brought
  split <;> rfl

theorem replaceNext_addRows (v : RevisionList) (rows : List Row) :
    (v.addRows rows).replaceNext = false := by
  unfold addRows
  split
  · rfl
  · next h => exact Bool.eq_false_iff.mpr h

theorem batchSize_addRows (v : RevisionList) (rows : List Row) :
    (v.addRows rows).batchSize = v.batchSize := by
  unfold addRows
  split <;> rfl

theorem rows_finishLoad (v : RevisionList) : v.finishLoad.rows = v.brought :=
  rfl

theorem sameLog_selectPending_clampCursor (v : RevisionList) :
    SameLog v v.selectPending.clampCursor :=
  (sameLog_selectPending v).trans (sameLog_clampCursor _)

theorem replaceNext_applyBatch (v : RevisionList) (batch : Batch) :
    (v.applyBatch batch).replaceNext = false := by
  simp only [applyBatch]
  split
  · rw [(sameLog_selectPending_clampCursor _).replaceNext, replaceNext_addRows]
  · rfl

theorem rows_applyBatch (v : RevisionList) (batch : Batch) :
    (v.applyBatch batch).rows = v.brought ++ batch.rows := by
  have hsame := sameLog_selectPending_clampCursor (v.addRows batch.rows)
  simp only [applyBatch]
  split
  · rw [hsame.rows, rows_addRows]
  · rw [rows_finishLoad, hsame.brought, brought_of_replaceNext (replaceNext_addRows ..),
      rows_addRows]

theorem batchSize_applyBatch (v : RevisionList) (batch : Batch) :
    (v.applyBatch batch).batchSize = v.batchSize := by
  have hsame := sameLog_selectPending_clampCursor (v.addRows batch.rows)
  simp only [applyBatch]
  split
  · rw [hsame.batchSize, batchSize_addRows]
  · exact hsame.batchSize.trans (batchSize_addRows ..)

/-! ## What turns keep -/

inductive TakesIn (v : RevisionList) : RevisionList → Prop
  | nothing : TakesIn v v
  | ending {s t : Stream} (stream : v.stream = some s) (receive : s.receive = (t, .finished)) :
      TakesIn v v.finishLoad
  | batch {s t : Stream} {batch : Batch} (stream : v.stream = some s)
      (receive : s.receive = (t, .batch batch)) :
      TakesIn v (applyBatch { v with stream := some t, awaiting := false } batch)

theorem takesIn_takeIn (v : RevisionList) : v.TakesIn v.takeIn.1 := by
  unfold takeIn
  cases hstream : v.stream with
  | none => exact .nothing
  | some s =>
      simp only [Option.map_some]
      cases hreceive : s.receive with
      | mk t poll =>
          cases poll with
          | pending => exact .nothing
          | finished => exact .ending hstream hreceive
          | batch batch => exact .batch hstream hreceive

section

variable {P : RevisionList → Prop} (hsettle : ∀ u, P u → P u.settle)
  (htakes : ∀ u w, P u → u.TakesIn w → P w)

include hsettle htakes

theorem turn_keeps (h : P v) (blocking : Bool) : P (v.turn blocking).1 := by
  unfold turn
  split
  · exact htakes _ _ (hsettle v h) (takesIn_takeIn _)
  · exact htakes _ _ h (takesIn_takeIn _)

theorem pump_keeps (h : P v) (blocking : Bool) : P (v.pump blocking).1 := by
  fun_induction pump v blocking with
  | case1 v w hturn ih =>
      have hw := turn_keeps hsettle htakes h blocking
      rw [hturn] at hw
      exact ih hw
  | case2 v w hturn =>
      have hw := turn_keeps hsettle htakes h blocking
      rw [hturn] at hw
      exact hw

end

/-! ## Following a log -/

/-- The list follows a log with the rows `all`. Until its first batch comes it shows the rows
`shown`. -/
inductive Follows (shown all : List Row) (v : RevisionList) : Prop
  | loading {s : Stream} {rest : List Row} (stream : v.stream = some s)
      (feeds : s.Feeds v.batchSize (Batch.plan v.batchSize rest))
      (rows : all = v.brought ++ rest) (whole : v.batchSize + 1 ∣ v.brought.length)
      (before : v.replaceNext = true → v.rows = shown)
  | complete (stream : v.stream = none) (replaceNext : v.replaceNext = false) (rows : v.rows = all)

namespace Follows

variable {shown all : List Row}

theorem startLoad (v : RevisionList) (source : Source) (select : Option String) :
    Follows v.rows (rowsOf source.transcript.lines) (v.startLoad source select) :=
  .loading rfl (Stream.feeds_start source v.batchSize).request rfl (Nat.dvd_zero _) fun _ => rfl

theorem sameLog (h : Follows shown all v) (hvw : SameLog v w) : Follows shown all w := by
  have hbrought := hvw.brought
  obtain ⟨hrows, hstream, hbatchSize, hreplace⟩ := hvw
  cases h with
  | loading stream feeds rows whole before =>
      rw [← hbatchSize] at feeds whole
      rw [← hbrought] at rows whole
      rw [← hrows, ← hreplace] at before
      exact .loading (hstream.trans stream) feeds rows whole before
  | complete stream replaceNext rows =>
      exact .complete (hstream.trans stream) (hreplace.trans replaceNext) (hrows.trans rows)

theorem forall_rows {P : Row → Prop} (h : Follows shown all v) (hshown : ∀ row ∈ shown, P row)
    (hall : ∀ row ∈ all, P row) : ∀ row ∈ v.rows, P row := by
  cases h with
  | loading stream feeds rows whole before =>
      cases hreplace : v.replaceNext with
      | true =>
          rw [before hreplace]
          exact hshown
      | false =>
          intro row hrow
          apply hall
          rw [rows, brought_of_replaceNext hreplace]
          exact List.mem_append_left _ hrow
  | complete stream replaceNext rows =>
      rw [rows]
      exact hall

theorem setStream {s t : Stream} (h : Follows shown all v) (hstream : v.stream = some s)
    (hfeeds : ∀ {n batches}, s.Feeds n batches → t.Feeds n batches) (awaiting : Bool) :
    Follows shown all { v with stream := some t, awaiting := awaiting } := by
  cases h with
  | loading stream feeds rows whole before =>
      obtain rfl := Option.some.inj (stream.symm.trans hstream)
      exact .loading rfl (hfeeds feeds) rows whole before
  | complete stream => simp [hstream] at stream

theorem applyBatch {t : Stream} {batch : Batch} {later : List Batch} {rest : List Row}
    (hstream : v.stream = some t) (hfeeds : t.Feeds v.batchSize later)
    (hplan : Batch.plan v.batchSize rest = batch :: later) (hrows : all = v.brought ++ rest)
    (hwhole : v.batchSize + 1 ∣ v.brought.length) : Follows shown all (v.applyBatch batch) := by
  obtain ⟨rest, rfl, rfl, -, hlast⟩ := Batch.plan_eq_cons hplan
  have hafter := stream_applyBatch v batch
  have hreplace := replaceNext_applyBatch v batch
  have happlied := rows_applyBatch v batch
  rw [← List.append_assoc, ← happlied] at hrows
  cases hmore : batch.hasMore with
  | true =>
      simp only [hmore, if_true] at hafter hlast
      have hbrought := brought_of_replaceNext hreplace
      rw [← batchSize_applyBatch v batch] at hfeeds
      refine .loading (hafter.trans hstream) hfeeds ?_ ?_ ?_
      · rw [hbrought]
        exact hrows
      · -- A batch that is not the last one is full.
        rw [batchSize_applyBatch, hbrought, happlied, List.length_append, hlast.1]
        exact Nat.dvd_add hwhole (Nat.dvd_refl _)
      · intro hnext
        simp [hreplace] at hnext
  | false =>
      simp only [hmore, Bool.false_eq_true, if_false] at hafter hlast
      rw [hlast, List.append_nil] at hrows
      exact .complete hafter hreplace hrows.symm

theorem rows_ne_of_receive {s t : Stream} {batch : Batch} (h : Follows shown all v)
    (hstream : v.stream = some s) (hreceive : s.receive = (t, .batch batch)) : batch.rows ≠ [] := by
  cases h with
  | complete stream => simp [hstream] at stream
  | loading stream feeds rows whole before =>
      obtain rfl := Option.some.inj (stream.symm.trans hstream)
      obtain ⟨later, hplan, -⟩ := feeds.receive_batch hreceive
      obtain ⟨-, -, -, hne, -⟩ := Batch.plan_eq_cons hplan
      exact hne

theorem finishLoad {s t : Stream} (h : Follows shown all v) (hstream : v.stream = some s)
    (hreceive : s.receive = (t, .finished)) : Follows shown all v.finishLoad := by
  cases h with
  | complete stream => simp [hstream] at stream
  | loading stream feeds rows whole before =>
      obtain rfl := Option.some.inj (stream.symm.trans hstream)
      have hrest := Batch.plan_eq_nil (feeds.receive_finished hreceive)
      rw [hrest, List.append_nil] at rows
      exact .complete rfl rfl rows.symm

theorem takesIn (h : Follows shown all v) (htakes : v.TakesIn w) : Follows shown all w := by
  cases htakes with
  | nothing => exact h
  | ending hstream hreceive => exact h.finishLoad hstream hreceive
  | batch hstream hreceive =>
      cases h with
      | complete stream => simp [hstream] at stream
      | loading stream feeds rows whole before =>
          obtain rfl := Option.some.inj (stream.symm.trans hstream)
          obtain ⟨later, hplan, hlater⟩ := feeds.receive_batch hreceive
          exact applyBatch rfl hlater hplan rows whole

theorem settle (h : Follows shown all v) : Follows shown all v.settle := by
  unfold RevisionList.settle
  cases hstream : v.stream with
  | none => exact h.sameLog ⟨rfl, hstream.symm, rfl, rfl⟩
  | some s =>
      exact h.setStream hstream (fun hfeeds => hfeeds.later (Stream.later_settle hfeeds.sound)) _

theorem turn (h : Follows shown all v) (blocking : Bool) :
    Follows shown all (v.turn blocking).1 :=
  turn_keeps (P := Follows shown all) (fun _ => settle) (fun _ _ => takesIn) h blocking

theorem pump (h : Follows shown all v) (blocking : Bool) :
    Follows shown all (v.pump blocking).1 :=
  pump_keeps (P := Follows shown all) (fun _ => settle) (fun _ _ => takesIn) h blocking

theorem requestMore (h : Follows shown all v) : Follows shown all v.requestMore.1 := by
  unfold RevisionList.requestMore
  cases hstream : v.stream with
  | none => exact h
  | some s =>
      simp only
      split
      · exact h
      · exact h.setStream hstream (fun hfeeds => hfeeds.request) _

end Follows

/-! ## Runs -/

/-- What can be done with a list. `produce` is a step of the producer at its stream, and `turn` is
one round of a pump, so that both can come in any order. -/
inductive Action where
  | produce
  | load (source : Source) (select : Option String)
  | turn (blocking : Bool)
  | pump (blocking : Bool)
  | requestMore
  | select (index : Nat)
  | moveCursor (delta : Int)
  | selectFirst
  | selectLast
  | scrollBy (delta : Int)
  | toggleSelected
  | toggleRange (first last : String)
  | check (checked : CheckedSet)
  | draw (area : Rect) (theme : Theme) (operation : Option Operation) (follow : Bool)
      (targets : Targets ScreenTarget)

def Action.isLoad : Action → Bool
  | .load .. => true
  | _ => false

def Action.movesCursor : Action → Bool
  | .select .. | .moveCursor .. | .selectFirst | .selectLast => true
  | _ => false

def perform (v : RevisionList) : Action → RevisionList
  | .produce => { v with stream := v.stream.map fun s => s.step.getD s }
  | .load source select => v.startLoad source select
  | .turn blocking => (v.turn blocking).1
  | .pump blocking => (v.pump blocking).1
  | .requestMore => v.requestMore.1
  | .select index => (v.select index).1
  | .moveCursor delta => (v.moveCursor delta).1
  | .selectFirst => v.selectFirst.1
  | .selectLast => v.selectLast.1
  | .scrollBy delta => v.scrollBy delta
  | .toggleSelected => v.toggleSelected
  | .toggleRange first last => (v.toggleRange first last).1
  | .check checked => { v with checked := checked }
  | .draw area theme operation follow targets => (v.draw area theme operation follow targets).1

def performAll (v : RevisionList) (actions : List Action) : RevisionList :=
  actions.foldl perform v

/-- What an action does. Unless it loads or is for the stream, it changes no more than the cursor,
the marks and the window. -/
inductive Acts (v : RevisionList) : Action → RevisionList → Prop
  | produce : Acts v .produce (v.perform .produce)
  | load (source : Source) (select : Option String) :
      Acts v (.load source select) (v.startLoad source select)
  | turn (blocking : Bool) : Acts v (.turn blocking) (v.turn blocking).1
  | pump (blocking : Bool) : Acts v (.pump blocking) (v.pump blocking).1
  | requestMore : Acts v .requestMore v.requestMore.1
  | aside {action : Action} (cursor : Nat) (checked : CheckedSet) (viewport : Viewport)
      (rests : action.movesCursor = false → cursor = v.cursor)
      (within : v.cursor ≤ v.lastIndex → cursor ≤ v.lastIndex) :
      Acts v action { v with cursor := cursor, checked := checked, viewport := viewport }

theorem acts_select {action : Action} (haction : action.movesCursor = true) (index : Nat) :
    v.Acts action (v.select index).1 := by
  obtain ⟨cursor, heq, hwithin⟩ := v.select_eq index
  rw [heq]
  exact .aside cursor _ _ (fun hrests => absurd hrests (by simp [haction])) hwithin

theorem acts_perform (v : RevisionList) (action : Action) : v.Acts action (v.perform action) := by
  cases action with
  | produce => exact .produce
  | load source select => exact .load source select
  | turn blocking => exact .turn blocking
  | pump blocking => exact .pump blocking
  | requestMore => exact .requestMore
  | select index => exact acts_select rfl index
  | moveCursor delta => exact acts_select rfl _
  | selectFirst => exact acts_select rfl _
  | selectLast => exact acts_select rfl _
  | scrollBy delta => exact .aside _ _ _ (fun _ => rfl) id
  | toggleSelected => exact .aside _ _ _ (fun _ => rfl) id
  | toggleRange first last =>
      obtain ⟨checked, heq⟩ := v.toggleRange_eq first last
      simp only [perform, heq]
      exact .aside _ _ _ (fun _ => rfl) id
  | check checked => exact .aside _ _ _ (fun _ => rfl) id
  | draw area theme operation follow targets =>
      obtain ⟨viewport, heq⟩ := v.draw_eq area theme operation follow targets
      simp only [perform, heq]
      exact .aside _ _ _ (fun _ => rfl) id

namespace Follows

variable {shown all : List Row}

theorem produce (h : Follows shown all v) : Follows shown all (v.perform .produce) := by
  unfold RevisionList.perform
  cases hstream : v.stream with
  | none => exact h.sameLog ⟨rfl, hstream.symm, rfl, rfl⟩
  | some s =>
      exact h.setStream hstream (fun hfeeds => hfeeds.later (Stream.later_step hfeeds.sound)) _

theorem perform (h : Follows shown all v) {action : Action} (haction : action.isLoad = false) :
    Follows shown all (v.perform action) := by
  have hacts := v.acts_perform action
  generalize v.perform action = w at hacts ⊢
  cases hacts with
  | produce => exact h.produce
  | load => simp [Action.isLoad] at haction
  | turn blocking => exact h.turn blocking
  | pump blocking => exact h.pump blocking
  | requestMore => exact h.requestMore
  | aside => exact h.sameLog ⟨rfl, rfl, rfl, rfl⟩

theorem performAll (h : Follows shown all v) {actions : List Action}
    (hactions : ∀ action ∈ actions, action.isLoad = false) :
    Follows shown all (v.performAll actions) := by
  induction actions generalizing v with
  | nil => exact h
  | cons action actions ih =>
      have haction := h.perform (hactions action List.mem_cons_self)
      exact ih haction fun a ha => hactions a (List.mem_cons_of_mem _ ha)

end Follows

theorem TakesIn.batchSize_eq (h : v.TakesIn w) : w.batchSize = v.batchSize := by
  cases h with
  | nothing => rfl
  | ending => rfl
  | batch => exact batchSize_applyBatch ..

theorem batchSize_turn (v : RevisionList) (blocking : Bool) :
    (v.turn blocking).1.batchSize = v.batchSize :=
  turn_keeps (P := fun u => u.batchSize = v.batchSize) (fun _ hu => hu)
    (fun _ _ hu htakes => htakes.batchSize_eq.trans hu) rfl blocking

theorem batchSize_pump (v : RevisionList) (blocking : Bool) :
    (v.pump blocking).1.batchSize = v.batchSize :=
  pump_keeps (P := fun u => u.batchSize = v.batchSize) (fun _ hu => hu)
    (fun _ _ hu htakes => htakes.batchSize_eq.trans hu) rfl blocking

theorem batchSize_requestMore (v : RevisionList) : v.requestMore.1.batchSize = v.batchSize := by
  unfold requestMore
  split
  · rfl
  · split <;> rfl

theorem batchSize_perform (v : RevisionList) (action : Action) :
    (v.perform action).batchSize = v.batchSize := by
  have hacts := v.acts_perform action
  generalize v.perform action = w at hacts ⊢
  cases hacts with
  | produce => rfl
  | load => rfl
  | turn blocking => exact batchSize_turn v blocking
  | pump blocking => exact batchSize_pump v blocking
  | requestMore => exact batchSize_requestMore v
  | aside => rfl

theorem batchSize_performAll (v : RevisionList) (actions : List Action) :
    (v.performAll actions).batchSize = v.batchSize := by
  induction actions generalizing v with
  | nil => rfl
  | cons action actions ih => exact (ih _).trans (batchSize_perform v action)

end RevisionList

/-- After a load the rows stay as they are until its first batch comes. From then on they are the
first rows of its log, whole batches while the stream is there and all of them when it is gone. -/
theorem rows_follow_last_load {source : Source} {rows : List Row}
    (hrows : parseLog source = .ok rows) (batchSize : Nat) (before after : List RevisionList.Action)
    (select : Option String) (hafter : ∀ action ∈ after, action.isLoad = false) :
    let shown := ((RevisionList.initial batchSize).performAll before).rows
    let v := (RevisionList.initial batchSize).performAll (before ++ .load source select :: after)
    (v.replaceNext = true → v.rows = shown) ∧
      (v.replaceNext = false → ∃ n ≤ rows.length, v.rows = rows.take n ∧
        (v.isLoading = true → batchSize + 1 ∣ n) ∧ (v.isLoading = false → n = rows.length) ∧
        v.rows.map Row.previous = (List.range n).map Row.above) := by
  intro shown v
  obtain rfl := rows_of_parseLog hrows
  have hbatchSize : v.batchSize = batchSize := RevisionList.batchSize_performAll ..
  have hfollows : RevisionList.Follows shown (rowsOf source.transcript.lines) v := by
    have hload := RevisionList.Follows.startLoad
      ((RevisionList.initial batchSize).performAll before) source select
    have hrun : v = (((RevisionList.initial batchSize).performAll before).startLoad
        source select).performAll after := List.foldl_append ..
    rw [hrun]
    exact hload.performAll hafter
  have hprevious (n : Nat) (hn : n ≤ (rowsOf source.transcript.lines).length) :
      ((rowsOf source.transcript.lines).take n).map Row.previous =
        (List.range n).map Row.above := by
    rw [List.map_take, previous_rowsOf, ← List.map_take, List.take_range, Nat.min_eq_left hn]
  cases hfollows with
  | loading stream feeds hall whole hbefore =>
      refine ⟨hbefore, fun hreplace => ?_⟩
      rw [RevisionList.brought_of_replaceNext hreplace] at hall whole
      rw [hbatchSize] at whole
      have hlength : v.rows.length ≤ (rowsOf source.transcript.lines).length := by
        rw [hall, List.length_append]
        omega
      have htake : v.rows = (rowsOf source.transcript.lines).take v.rows.length := by
        rw [hall, List.take_left]
      refine ⟨v.rows.length, hlength, htake, fun _ => whole, ?_, ?_⟩
      · intro hloading
        simp [RevisionList.isLoading, stream] at hloading
      · have hmap := hprevious v.rows.length hlength
        rw [← htake] at hmap
        exact hmap
  | complete stream replaceNext hall =>
      constructor
      · intro hreplace
        simp [replaceNext] at hreplace
      · intro _
        refine ⟨v.rows.length, ?_, ?_, ?_, ?_, ?_⟩
        · rw [hall]
        · rw [hall, List.take_length]
        · intro hloading
          simp [RevisionList.isLoading, stream] at hloading
        · intro _
          rw [hall]
        · rw [hall]
          exact previous_rowsOf _

theorem rows_follow_last_load_of_two_rows :
    let log : Source :=
      [.bytes (Text.Utf8.bytes "* \x1B[1mk\x1B[m x\n"), .interrupted,
        .bytes (Text.Utf8.bytes "* \x1B[1mm\x1B[m x\n")]
    let shown := ((RevisionList.initial 0).performAll [.load [] none, .pump true]).rows
    let v := (RevisionList.initial 0).performAll
      ([.load [] none, .pump true] ++
        .load log none :: [.produce, .pump true, .requestMore, .turn false])
    ∃ rows, parseLog log = .ok rows ∧ rows.length = 2 ∧ (v.replaceNext = true → v.rows = shown) ∧
      (v.replaceNext = false → ∃ n ≤ rows.length, v.rows = rows.take n ∧
        (v.isLoading = true → 0 + 1 ∣ n) ∧ (v.isLoading = false → n = rows.length) ∧
        v.rows.map Row.previous = (List.range n).map Row.above) := by
  intro log shown v
  have hrows : parseLog log = .ok (rowsOf log.transcript.lines) := parseLog_of_failure? rfl
  refine ⟨_, hrows, ?_, rows_follow_last_load hrows 0 [.load [] none, .pump true]
    [.produce, .pump true, .requestMore, .turn false] none ?_⟩
  · rw [Source.transcript_eq_ofChunks, Source.chunks_eq]
    decide +kernel
  · simp [RevisionList.Action.isLoad]

end RevisionGraph
