import RevisionGraph.Proofs.Answering
import RevisionGraph.Proofs.CursorSearch
import RevisionGraph.Proofs.ListRuns

/-!
# The cursor after a reload

As long as no row is named by the change id that is looked for, a reload goes on only until it has
more rows than are requested ahead of the top. So it looks at the rows within `RevisionList.reach`
and at no others, and puts the cursor on the first of them that is named, or at the top.
-/

namespace RevisionGraph

namespace RevisionList

variable {v w : RevisionList} {all rest rows : List Row} {wanted : Option String}

/-! ## What a batch does to the cursor -/

/-- The cursor is at the place of the revision that is looked for, or at the top. -/
structure Seeks (v : RevisionList) (wanted : Option String) : Prop where
  cursor_eq : v.replaceNext = false → v.cursor = (place wanted v.brought).getD 0
  pendingSelection_eq :
    v.pendingSelection = if (place wanted v.brought).isSome then none else wanted
  layout_eq : v.replaceNext = false → v.viewport.layout = .empty

theorem Seeks.setStream (h : v.Seeks wanted) (stream : Option Stream) (awaiting : Bool) :
    Seeks { v with stream := stream, awaiting := awaiting } wanted :=
  ⟨h.cursor_eq, h.pendingSelection_eq, h.layout_eq⟩

theorem addRows_of_seeks (h : v.Seeks wanted) (rows : List Row) :
    (v.addRows rows).cursor = (place wanted v.brought).getD 0 ∧
      (v.addRows rows).pendingSelection = v.pendingSelection ∧
      (v.addRows rows).viewport.layout = .empty := by
  cases hreplace : v.replaceNext with
  | true => simp [addRows, brought, hreplace, Viewport.reset]
  | false =>
      have hsame : v.addRows rows = { v with rows := v.rows ++ rows } := by simp [addRows, hreplace]
      rw [hsame]
      exact ⟨h.cursor_eq hreplace, rfl, h.layout_eq hreplace⟩

theorem cursor_le_of_place (h : v.cursor = (place wanted v.rows).getD 0) :
    v.cursor ≤ v.lastIndex := by
  rw [h]
  cases hplace : place wanted v.rows with
  | none => exact Nat.zero_le _
  | some j =>
      have hlt := place_lt hplace
      simp only [Option.getD_some, lastIndex]
      omega

theorem selectPending_addRows (h : v.Seeks wanted) (rows : List Row) :
    let u := (v.addRows rows).selectPending
    u.cursor = (place wanted u.rows).getD 0 ∧
      u.pendingSelection = (if (place wanted u.rows).isSome then none else wanted) ∧
      u.viewport.layout = .empty := by
  intro u
  obtain ⟨hcursor, hpending, hlayout⟩ := addRows_of_seeks h rows
  have hsame : u.rows = (v.addRows rows).rows := (sameLog_selectPending _).rows
  have hviewport : u.viewport = (v.addRows rows).viewport := viewport_selectPending _
  obtain ⟨hmoved, hleft⟩ :=
    selectPending_of_looks (rows_addRows v rows) (hpending.trans h.pendingSelection_eq)
  rw [hsame]
  refine ⟨hmoved.trans ?_, hleft, hviewport ▸ hlayout⟩
  rw [hcursor]
  cases hplace : place wanted v.brought with
  | some j =>
      rw [rows_addRows, place_append_of_some hplace]
      rfl
  | none => rfl

theorem awaiting_addRows (v : RevisionList) (rows : List Row) :
    (v.addRows rows).awaiting = v.awaiting := by
  unfold addRows
  split <;> rfl

theorem awaiting_selectPending (v : RevisionList) : v.selectPending.awaiting = v.awaiting := by
  unfold selectPending
  split <;> rfl

theorem awaiting_applyBatch (h : v.awaiting = false) (batch : Batch) :
    (v.applyBatch batch).awaiting = false := by
  simp only [applyBatch]
  split
  · exact (awaiting_selectPending _).trans ((awaiting_addRows ..).trans h)
  · rfl

theorem applyBatch_of_seeks (h : v.Seeks wanted) (hawaiting : v.awaiting = false) (batch : Batch) :
    let w := v.applyBatch batch
    w.awaiting = false ∧ w.cursor = (place wanted w.rows).getD 0 ∧
      (batch.hasMore = true → w.Seeks wanted) := by
  intro w
  obtain ⟨hcursor, hpending, hlayout⟩ := selectPending_addRows h batch.rows
  have hle := cursor_le_of_place hcursor
  have hclamped := clampCursor_of_le hle
  have hreplace : (v.addRows batch.rows).selectPending.replaceNext = false := by
    rw [(sameLog_selectPending _).replaceNext, replaceNext_addRows]
  refine ⟨awaiting_applyBatch hawaiting batch, ?_⟩
  cases hmore : batch.hasMore with
  | true =>
      have hw : w = (v.addRows batch.rows).selectPending := by
        simp only [w, applyBatch, hmore, if_true, hclamped]
      rw [hw]
      refine ⟨hcursor, fun _ => ⟨fun _ => ?_, ?_, fun _ => hlayout⟩⟩
      · rw [brought_of_replaceNext hreplace]
        exact hcursor
      · rw [brought_of_replaceNext hreplace]
        exact hpending
  | false =>
      have hw : w = (v.addRows batch.rows).selectPending.finishLoad := by
        simp only [w, applyBatch, hmore, Bool.false_eq_true, if_false, hclamped]
      rw [hw, cursor_finishLoad_of_le hreplace hle, rows_finishLoad,
        brought_of_replaceNext hreplace]
      exact ⟨hcursor, fun hagain => absurd hagain Bool.false_ne_true⟩

/-! ## Turns of a pump -/

theorem pump_of_turn {blocking : Bool} (h : v.turn blocking = (w, true)) :
    v.pump blocking = ((w.pump blocking).1, true) := by
  rw [pump]
  split
  · next heq =>
      obtain ⟨rfl, -⟩ := Prod.mk.inj (heq.symm.trans h)
      rfl
  · next heq =>
      have hflag := (Prod.mk.inj (heq.symm.trans h)).2
      contradiction

theorem pump_of_idle {blocking : Bool} (h : v.turn blocking = (v, false)) :
    v.pump blocking = (v, false) := by
  rw [pump]
  split
  · next heq =>
      have hflag := (Prod.mk.inj (heq.symm.trans h)).2
      contradiction
  · next heq => exact heq.symm.trans h

theorem pump_of_turn_of_idle {blocking : Bool} (h : v.turn blocking = (w, true))
    (hidle : w.turn blocking = (w, false)) : v.pump blocking = (w, true) := by
  rw [pump_of_turn h, pump_of_idle hidle]

theorem turn_of_pending {s : Stream} (hstream : v.stream = some s) (hawaiting : v.awaiting = false)
    (hslot : s.slot = none) (hpending : s.pending ≠ []) (blocking : Bool) :
    v.turn blocking = (v, false) := by
  have hproducer : s.producer ≠ .stopped := by
    intro hstopped
    simp [Stream.pending, hslot, hstopped, Producer.remaining] at hpending
  simp [turn, takeIn, hawaiting, hstream, Stream.receive, hslot, hproducer]

theorem turn_of_batch {s t : Stream} {batch : Batch} (hstream : v.stream = some s)
    (hawaiting : v.awaiting = true) (hreceive : s.settle.receive = (t, .batch batch)) :
    v.turn true = (applyBatch { v with stream := some t, awaiting := false } batch, true) := by
  simp [turn, hawaiting, settle, takeIn, hstream, hreceive]

theorem turn_of_finished {s t : Stream} (hstream : v.stream = some s) (hawaiting : v.awaiting = true)
    (hreceive : s.settle.receive = (t, .finished)) : v.turn true = (v.finishLoad, true) := by
  simp [turn, hawaiting, settle, takeIn, hstream, hreceive, finishLoad]

theorem requestMore_of_stream_none (h : v.stream = none) : v.requestMore.1 = v := by
  simp [requestMore, h]

theorem horizon_of_layout (h : v.viewport.layout = .empty) : v.horizon = v.cursor := by
  simp [horizon, h, StripLayout.lastIndex?, StripLayout.empty]

theorem requestMore_of_far {s : Stream} (hstream : v.stream = some s)
    (hfar : v.horizon + loadAhead < v.rows.length) : v.requestMore.1 = v := by
  simp [requestMore, hstream, hfar]

theorem requestMore_of_near {s t : Stream} (hstream : v.stream = some s)
    (hawaiting : v.awaiting = false) (hreplace : v.replaceNext = false)
    (hnear : ¬ v.horizon + loadAhead < v.rows.length) (hrequest : s.request = (t, true)) :
    v.requestMore.1 = { v with stream := some t, awaiting := true } := by
  simp [requestMore, hstream, hawaiting, hreplace, hnear, hrequest]

/-! ## Rounds of a reload -/

/-- A request has not been answered, and these rows are still to come. Rows are only requested while
the cursor is near their end. -/
structure Awaits (v : RevisionList) (all : List Row) (wanted : Option String) (rest : List Row) :
    Prop where
  awaiting_eq : v.awaiting = true
  stream : ∃ s, v.stream = some s ∧ s.pending = Batch.plan v.batchSize rest ∧
    (rest ≠ [] → s.Owes 1) ∧ (rest = [] → s.Ends)
  rows_eq : all = v.brought ++ rest
  empty : rest = [] → v.brought = []
  whole : v.batchSize + 1 ∣ v.brought.length
  seeks : v.Seeks wanted
  near : place wanted v.brought = none → v.brought.length ≤ loadAhead
  place_lt_reach : ∀ j, place wanted v.brought = some j → j < reach v.batchSize

structure Arrived (v : RevisionList) (all : List Row) (wanted : Option String) (later : List Row) :
    Prop where
  awaiting_eq : v.awaiting = false
  replaceNext_eq : v.replaceNext = false
  rows_eq : all = v.rows ++ later
  cursor_eq : v.cursor = (place wanted v.rows).getD 0
  place_lt_reach : ∀ j, place wanted v.rows = some j → j < reach v.batchSize
  complete : later = [] → v.stream = none
  goesOn : later ≠ [] → v.Seeks wanted ∧ v.batchSize + 1 ∣ v.rows.length ∧
    ∃ s, v.stream = some s ∧ s.pending = Batch.plan v.batchSize later ∧ s.Owes 0 ∧ s.slot = none

structure Restored (v : RevisionList) (all : List Row) (wanted : Option String) : Prop where
  idle : v.turn true = (v, false)
  awaiting_eq : v.awaiting = false
  isPrefix : v.rows <+: all
  cursor_eq : v.cursor = (place wanted v.rows).getD 0
  far : place wanted v.rows = none → v.rows = all ∨ reach v.batchSize ≤ v.rows.length
  place_lt_reach : ∀ j, place wanted v.rows = some j → j < reach v.batchSize

theorem awaits_startLoad (v : RevisionList) (source : Source) :
    (v.startLoad source none).Awaits (rowsOf source.transcript.lines)
      (v.selected.map Commit.changeId) (rowsOf source.transcript.lines) := by
  have hsound := (Stream.sound_start source v.batchSize).request
  refine ⟨rfl, ⟨_, rfl, rfl, ?_, ?_⟩, rfl, fun _ => rfl, Nat.dvd_zero _, ?_, fun _ => Nat.zero_le _, ?_⟩
  · intro hrows
    have hpending : Batch.plan v.batchSize (rowsOf source.transcript.lines) ≠ [] :=
      fun hnone => hrows (Batch.plan_eq_nil hnone)
    exact ⟨hsound, rfl, rfl, List.length_pos_iff.mpr hpending⟩
  · intro hnone
    refine ⟨hsound, rfl, ?_, .inl (List.cons_ne_nil _ _)⟩
    have hpending : Batch.plan v.batchSize (rowsOf source.transcript.lines) = [] := by
      rw [hnone, Batch.plan]
    exact hpending
  · have hreplaces : (v.startLoad source none).replaceNext ≠ false := Bool.noConfusion
    refine ⟨fun hkeeps => absurd hkeeps hreplaces, ?_, fun hkeeps => absurd hkeeps hreplaces⟩
    have hbrought : (v.startLoad source none).brought = [] := rfl
    rw [hbrought, place_nil]
    rfl
  · intro j hj
    have hbrought : (v.startLoad source none).brought = [] := rfl
    rw [hbrought, place_nil] at hj
    contradiction

theorem Awaits.finish (h : v.Awaits all wanted []) :
    v.turn true = (v.finishLoad, true) ∧ v.finishLoad.Arrived all wanted [] := by
  obtain ⟨s, hstream, -, -, hends⟩ := h.stream
  have hrows : v.finishLoad.rows = [] := h.empty rfl
  have hcursor : v.finishLoad.cursor = 0 := by
    have hle : v.finishLoad.cursor ≤ v.finishLoad.lastIndex := cursor_clampCursor_le _
    rw [lastIndex, hrows] at hle
    exact Nat.le_zero.mp hle
  refine ⟨turn_of_finished hstream h.awaiting_eq (hends rfl).receive_settle, rfl, rfl, ?_, ?_, ?_,
    fun _ => rfl, fun hne => absurd rfl hne⟩
  · rw [hrows, h.rows_eq, h.empty rfl]
  · rw [hrows, place_nil, hcursor]
    rfl
  · intro j hj
    rw [hrows, place_nil] at hj
    contradiction

theorem Awaits.receive (h : v.Awaits all wanted rest) (hrest : rest ≠ []) :
    ∃ w later, v.turn true = (w, true) ∧ w.Arrived all wanted later ∧
      later.length < rest.length := by
  obtain ⟨s, hstream, hplan, howes, -⟩ := h.stream
  obtain ⟨t, batch, hreceive, howes, hslot, hpending⟩ := (howes hrest).receive_settle
  rw [hplan] at hpending
  obtain ⟨later, hsplit, hlater, hbatch, hlast⟩ := Batch.plan_eq_cons hpending
  have hseeks := h.seeks.setStream (some t) false
  obtain ⟨hawaiting, hcursor, hagain⟩ := applyBatch_of_seeks hseeks rfl batch
  have hturn := turn_of_batch hstream h.awaiting_eq hreceive
  generalize hu : ({ v with stream := some t, awaiting := false } : RevisionList) = u at *
  have hbrought : u.brought = v.brought := hu ▸ rfl
  have hsize : u.batchSize = v.batchSize := hu ▸ rfl
  have hrows : (u.applyBatch batch).rows = v.brought ++ batch.rows := by
    rw [rows_applyBatch, hbrought]
  have hbatchSize := (batchSize_applyBatch u batch).trans hsize
  have hafter := stream_applyBatch u batch
  refine ⟨_, later, hturn, ⟨hawaiting, replaceNext_applyBatch u batch, ?_, hcursor, ?_, ?_, ?_⟩, ?_⟩
  · rw [hrows, List.append_assoc, ← hsplit]
    exact h.rows_eq
  · intro j hj
    rw [hbatchSize]
    cases hplace : place wanted v.brought with
    | some i =>
        rw [hrows, place_append_of_some hplace] at hj
        exact Option.some.inj hj ▸ h.place_lt_reach i hplace
    | none =>
        have hlt := place_lt hj
        have hle := Batch.length_rows_le hpending
        have hreach := add_le_reach h.whole (h.near hplace)
        rw [hrows, List.length_append] at hlt
        omega
  · intro hnone
    cases hmore : batch.hasMore with
    | true => simp [hmore, hnone] at hlast
    | false => simpa [hmore] using hafter
  · intro hne
    cases hmore : batch.hasMore with
    | false => simp [hmore, hne] at hlast
    | true =>
        simp only [hmore, if_true] at hlast hafter
        refine ⟨hagain hmore, ?_, t, hafter.trans (hu ▸ rfl), ?_, howes, hslot⟩
        · rw [hbatchSize, hrows, List.length_append, hlast.1]
          exact Nat.dvd_add h.whole (Nat.dvd_refl _)
        · rw [hbatchSize]
          exact hlater
  · have hpos := List.length_pos_iff.mpr hbatch
    rw [hsplit, List.length_append]
    omega

theorem Arrived.idle {later : List Row} (h : v.Arrived all wanted later) :
    v.turn true = (v, false) := by
  by_cases hlater : later = []
  · exact turn_of_stream_none (h.complete hlater) true
  · obtain ⟨-, -, s, hstream, hpending, -, hslot⟩ := h.goesOn hlater
    exact turn_of_pending hstream h.awaiting_eq hslot
      (fun hnone => hlater (Batch.plan_eq_nil (hpending ▸ hnone))) true

theorem Arrived.requestMore {later : List Row} (h : v.Arrived all wanted later) :
    v.requestMore.1.Restored all wanted ∨
      later ≠ [] ∧ v.requestMore.1.Awaits all wanted later := by
  have hidle := h.idle
  have hshown : v.rows <+: all := ⟨later, h.rows_eq.symm⟩
  by_cases hlater : later = []
  · left
    rw [requestMore_of_stream_none (h.complete hlater)]
    refine ⟨hidle, h.awaiting_eq, hshown, h.cursor_eq, fun _ => .inl ?_, h.place_lt_reach⟩
    rw [h.rows_eq, hlater, List.append_nil]
  · obtain ⟨hseeks, hwhole, s, hstream, hpending, howes, hslot⟩ := h.goesOn hlater
    have hbrought := brought_of_replaceNext h.replaceNext_eq
    have hhorizon := horizon_of_layout (hseeks.layout_eq h.replaceNext_eq)
    have htop (hnone : place wanted v.rows = none) : v.cursor = 0 := by
      rw [h.cursor_eq, hnone]
      rfl
    by_cases hfar : v.horizon + loadAhead < v.rows.length
    · left
      rw [requestMore_of_far hstream hfar]
      refine ⟨hidle, h.awaiting_eq, hshown, h.cursor_eq, fun hnone => .inr ?_, h.place_lt_reach⟩
      exact reach_le hwhole (by omega)
    · right
      have hnext : 0 < s.pending.length := by
        rw [hpending, List.length_pos_iff]
        exact fun hnone => hlater (Batch.plan_eq_nil hnone)
      obtain ⟨t, hrequest, howes, hsame⟩ := howes.request hslot hnext
      rw [requestMore_of_near hstream h.awaiting_eq h.replaceNext_eq hfar hrequest]
      rw [← hbrought] at hwhole
      refine ⟨hlater, rfl, ⟨t, rfl, hsame.trans hpending, fun _ => howes, ?_⟩, ?_, ?_, hwhole,
        hseeks.setStream _ _, ?_, ?_⟩
      · exact fun hnone => absurd hnone hlater
      · exact h.rows_eq.trans (congrArg (· ++ later) hbrought.symm)
      · exact fun hnone => absurd hnone hlater
      · intro hnone
        have htop := htop (hbrought ▸ hnone)
        have hlength := congrArg List.length hbrought
        have hle : v.brought.length ≤ loadAhead := by omega
        exact hle
      · intro j hj
        exact h.place_lt_reach j (hbrought ▸ hj)

theorem Restored.cursor_eq_place (h : v.Restored all wanted) :
    v.cursor = (place wanted (all.take (reach v.batchSize))).getD 0 := by
  rw [h.cursor_eq]
  obtain ⟨rest, hall⟩ := h.isPrefix
  cases hplace : place wanted v.rows with
  | some j =>
      have hwhole : place wanted all = some j := hall ▸ place_append_of_some hplace rest
      rw [place_take_of_lt hwhole (h.place_lt_reach j hplace)]
  | none =>
      rcases h.far hplace with heq | hle
      · rw [← heq, place_take_of_none hplace]
      · rw [← hall, List.take_append_of_le_length hle, place_take_of_none hplace]

/-! ## A whole reload -/

/-- Pumps and requests until nothing changes any more, or for so many rounds. -/
def settleFor : Nat → RevisionList → RevisionList
  | 0, v => v
  | n + 1, v =>
      if (v.pump true).2 then settleFor n (v.pump true).1.requestMore.1 else (v.pump true).1

theorem Restored.settleFor_eq (h : v.Restored all wanted) (n : Nat) : v.settleFor n = v := by
  cases n with
  | zero => rfl
  | succ n => rw [settleFor, pump_of_idle h.idle, if_neg Bool.false_ne_true]

theorem Awaits.settleFor (h : v.Awaits all wanted rest) {n : Nat} (hn : rest.length < n) :
    (v.settleFor n).Restored all wanted := by
  induction n generalizing v rest with
  | zero => exact absurd hn (Nat.not_lt_zero _)
  | succ n ih =>
      have hround {w : RevisionList} {later : List Row} (hturn : v.turn true = (w, true))
          (harrived : w.Arrived all wanted later) (hless : later ≠ [] → later.length < n) :
          (v.settleFor (n + 1)).Restored all wanted := by
        rw [RevisionList.settleFor, pump_of_turn_of_idle hturn harrived.idle, if_pos rfl]
        rcases harrived.requestMore with hrestored | ⟨hlater, hawaits⟩
        · rw [hrestored.settleFor_eq]
          exact hrestored
        · exact ih hawaits (hless hlater)
      by_cases hrest : rest = []
      · obtain ⟨hturn, harrived⟩ := (hrest ▸ h).finish
        exact hround hturn harrived fun hne => absurd rfl hne
      · obtain ⟨w, later, hturn, harrived, hlater⟩ := h.receive hrest
        exact hround hturn harrived fun _ => by omega

theorem batchSize_settleFor (n : Nat) (v : RevisionList) : (v.settleFor n).batchSize = v.batchSize := by
  induction n generalizing v with
  | zero => rfl
  | succ n ih =>
      rw [settleFor]
      split
      · rw [ih, batchSize_requestMore, batchSize_pump]
      · exact batchSize_pump v true

end RevisionList

namespace App

theorem revisions_settleFor (n : Nat) (app : App) :
    (settleFor n app).revisions = app.revisions.settleFor n := by
  induction n generalizing app with
  | zero => rfl
  | succ n ih =>
      simp only [settleFor, RevisionList.settleFor, pump_eq_pumped]
      cases (app.revisions.pump true).2 with
      | false => rfl
      | true => exact ih _

variable {runner : Runner} {app : App} {source : Source}

theorem revisions_refresh (h : runner.stream app.calls app.config.logCommand = .ok source) :
    (app.update runner .refresh).revisions = app.revisions.startLoad source none := by
  simp only [update, reloadRevisions, h]
  rfl

theorem restored_refresh (h : runner.stream app.calls app.config.logCommand = .ok source) :
    (app.update runner .refresh).settle.revisions.Restored (rowsOf source.transcript.lines)
      (app.revisions.selected.map Commit.changeId) := by
  have hrows : (rowsOf source.transcript.lines).length ≤ source.transcript.lines.length := by
    rw [length_rowsOf]
    exact List.countP_le_length
  have hwork : (app.revisions.startLoad source none).stream.elim 0 (fun s => s.producer.work + 1) =
      4 * source.transcript.lines.length + 10 + 1 := rfl
  rw [settle, revisions_settleFor, revisions_refresh h]
  exact (app.revisions.awaits_startLoad source).settleFor (by omega)

theorem batchSize_refresh (h : runner.stream app.calls app.config.logCommand = .ok source) :
    (app.update runner .refresh).settle.revisions.batchSize = app.revisions.batchSize := by
  rw [settle, revisions_settleFor, RevisionList.batchSize_settleFor, revisions_refresh h]
  rfl

end App

/-- A reload of the log that the rows are from ends on the first row within reach that the change id
of the cursor names, or at the top. So the cursor stays exactly if its row is within reach and the id
names no row above it. -/
theorem refresh_keeps_cursor_iff {runner : Runner} {config : Config} {theme : Theme} {phase : Phase}
    {app : App} {source : Source} {rows : List Row} (h : Session runner config theme phase app)
    (hrows : parseLog source = .ok rows) (hshown : app.revisions.rows <+: rows)
    (hstream : runner.stream app.calls app.config.logCommand = .ok source) :
    let after := (app.update runner .refresh).settle.revisions
    let reach := RevisionList.reach app.revisions.batchSize
    let named (row : Row) : Bool :=
      app.revisions.selected.any fun c => RevisionList.isNamed c.changeId row
    after.awaiting = false ∧ after.rows <+: rows ∧
      after.cursor = ((rows.take reach).findIdx? named).getD 0 ∧
      (after.cursor = app.revisions.cursor ↔ app.revisions.cursor < reach ∧
        ∀ row ∈ rows.take app.revisions.cursor, named row = false) := by
  intro after reach named
  have hlines := rows_of_parseLog hrows
  have hrestored := App.restored_refresh hstream
  rw [← hlines] at hrestored
  have hcursor := hrestored.cursor_eq_place
  rw [App.batchSize_refresh hstream] at hcursor
  have hpos : 0 < reach := Nat.zero_lt_of_lt (RevisionList.loadAhead_lt_reach _)
  refine ⟨hrestored.awaiting_eq, hrestored.isPrefix, ?_⟩
  cases hselected : app.revisions.selected with
  | none =>
      have hnone : (rows.take reach).findIdx? named = none :=
        List.findIdx?_eq_none_iff.mpr fun row _ => by simp [named, hselected]
      have hzero := RevisionList.cursor_eq_zero_of_selected_none h.cursor_le hselected
      have htop : after.cursor = 0 := by
        rw [hcursor, hselected]
        rfl
      refine ⟨?_, ?_⟩
      · rw [htop, hnone]
        rfl
      · rw [htop, hzero]
        simp [hpos]
  | some c =>
      obtain ⟨row, hrow, rfl⟩ := Option.map_eq_some_iff.mp hselected
      have hall : rows[app.revisions.cursor]? = some row := by
        obtain ⟨later, rfl⟩ := hshown
        exact List.getElem?_append_left (List.getElem?_eq_some_iff.mp hrow).1 ▸ hrow
      have hid := changeId_ne_at_of_mem_rowsOf (hlines ▸ List.mem_of_getElem? hall)
      have hnamed : named = RevisionList.isNamed row.commit.changeId := by
        funext other
        simp [named, hselected]
      rw [hselected] at hcursor
      refine ⟨?_, ?_⟩
      · rw [hnamed]
        exact hcursor
      · rw [hnamed, hcursor]
        exact RevisionList.getD_place_take_eq_iff hall (RevisionList.isNamed_changeId hid) hpos

/-! Two commits that share a change id, and one that has an id of its own. -/

def divergentLog : Source :=
  [.bytes (Text.Utf8.bytes "* \x1B[1mk\x1B[m\x1B[31m??\x1B[m \x1B[32mc1\x1B[m\n"),
    .bytes (Text.Utf8.bytes "* \x1B[1mk\x1B[m\x1B[31m??\x1B[m \x1B[32mc2\x1B[m\n"),
    .bytes (Text.Utf8.bytes "* \x1B[1mm\x1B[m x\n")]

def divergentLine (commitId : String) : Line :=
  [.plain "* ", ⟨"k", Style.plain.withModifier .bold⟩, ⟨"??", Style.plain.withFg (.ansi .red)⟩,
    .plain " ", ⟨commitId, Style.plain.withFg (.ansi .green)⟩]

def divergentLines : List Line :=
  [divergentLine "c1", divergentLine "c2",
    [.plain "* ", ⟨"m", Style.plain.withModifier .bold⟩, .plain " x"]]

def divergentRunner : Runner :=
  Script.runner ⟨[.ok divergentLog], []⟩

theorem transcript_divergentLog : divergentLog.transcript = ⟨divergentLines, none⟩ := by
  rw [Source.transcript_eq_ofChunks, Source.chunks_eq]
  decide +kernel

theorem parseLog_divergentLog : parseLog divergentLog = .ok (rowsOf divergentLines) := by
  rw [parseLog, transcript_divergentLog]

theorem stream_divergentRunner (calls : Calls) (c : Command) :
    divergentRunner.stream calls c = .ok divergentLog := by
  simp only [divergentRunner, Script.runner, Script.answerTo]
  cases Script.countStreams calls <;> rfl

/-- The rows of the log are there, and a key has been pressed. -/
def divergentApp (code : KeyCode) : App :=
  let started := App.started .initial ⟨none⟩ divergentLines
  let read := started.produce.produce.produce.produce.produce.produce
  (read.pumped ((read.revisions.turn false).1.turn false).1 true).keyRound divergentRunner code

theorem session_of_divergentApp (code : KeyCode) :
    Session divergentRunner .initial ⟨none⟩ .begun (divergentApp code) := by
  have started := Session.started (stream_divergentRunner [] Config.initial.logCommand) ⟨none⟩
  rw [transcript_divergentLog] at started
  have loaded := started.produce.produce.produce.produce.produce.produce.tick_turn
    (by decide +kernel) (by decide +kernel)
  exact .key (.draw loaded 80 24) (.plain code)

theorem refresh_keeps_cursor_iff_of_own_id :
    let app := divergentApp (.char 'G')
    app.revisions.rows = rowsOf divergentLines ∧ app.revisions.cursor = 2 ∧
      (app.update divergentRunner .refresh).settle.revisions.cursor = 2 := by
  intro app
  have hrows : app.revisions.rows = rowsOf divergentLines := by decide +kernel
  have hcursor : app.revisions.cursor = 2 := by decide +kernel
  obtain ⟨-, -, -, hkeeps⟩ := refresh_keeps_cursor_iff (session_of_divergentApp (.char 'G'))
    parseLog_divergentLog (hrows ▸ List.prefix_rfl) (stream_divergentRunner _ _)
  refine ⟨hrows, hcursor, (hkeeps.mpr ⟨?_, ?_⟩).trans hcursor⟩
  · decide +kernel
  · decide +kernel

/-- The cursor is on the second of two rows with the same id, and goes to the first. -/
theorem refresh_moves_cursor_of_shared_id :
    let app := divergentApp (.char 'j')
    let after := (app.update divergentRunner .refresh).settle.revisions
    Session divergentRunner .initial ⟨none⟩ .begun app ∧
      parseLog divergentLog = .ok app.revisions.rows ∧ app.revisions.awaiting = false ∧
      app.revisions.pendingSelection = none ∧
      divergentRunner.stream app.calls app.config.logCommand = .ok divergentLog ∧
      app.revisions.cursor = 1 ∧ after.awaiting = false ∧ after.cursor = 0 := by
  intro app after
  have hrows : app.revisions.rows = rowsOf divergentLines := by decide +kernel
  have hstream := stream_divergentRunner app.calls app.config.logCommand
  have hrestored := App.restored_refresh hstream
  have hcursor := hrestored.cursor_eq_place
  rw [App.batchSize_refresh hstream, transcript_divergentLog] at hcursor
  refine ⟨session_of_divergentApp _, hrows ▸ parseLog_divergentLog, by decide +kernel,
    by decide +kernel, hstream, by decide +kernel, hrestored.awaiting_eq, ?_⟩
  rw [hcursor]
  decide +kernel

end RevisionGraph
