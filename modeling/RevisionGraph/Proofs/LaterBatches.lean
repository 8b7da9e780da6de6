import RevisionGraph.Proofs.Following
import RevisionGraph.Proofs.Reloading

/-!
# The cursor and later batches

A load looks for a revision until a batch brings it. If the first batch does not, the name is looked
for in each later one, whatever has been done with the cursor in the meantime, and the cursor goes to
the revision when it comes (`RevisionList.Continues`).
-/

namespace RevisionGraph

namespace RevisionList

variable {v w u : RevisionList} {wanted : Option String}

/-! ## What is looked for -/

/-- A load that goes on looks for the name, unless it has brought a row that the name means. It has
brought a row if it has brought a batch. -/
structure Looks (wanted : Option String) (v : RevisionList) : Prop where
  pendingSelection_eq : v.isLoading = true →
    v.pendingSelection = if (place wanted v.brought).isSome then none else wanted
  brought_ne : v.isLoading = true → v.replaceNext = false → v.brought ≠ []

theorem pendingSelection_addRows (v : RevisionList) (rows : List Row) :
    (v.addRows rows).pendingSelection = v.pendingSelection := by
  unfold addRows
  split <;> rfl

namespace Looks

variable {shown all : List Row}

theorem startLoad (v : RevisionList) (source : Source) (select : Option String) :
    (v.startLoad source select).Looks (select <|> v.selected.map Commit.changeId) := by
  refine ⟨fun _ => ?_, fun _ hreplace => absurd hreplace Bool.noConfusion⟩
  have hbrought : (v.startLoad source select).brought = [] := rfl
  rw [hbrought, place_nil]
  rfl

theorem of_idle (h : v.isLoading = false) : v.Looks wanted := by
  constructor <;> simp [h]

theorem of_eq (h : v.Looks wanted) (hloading : w.isLoading = v.isLoading) (hrows : w.rows = v.rows)
    (hreplace : w.replaceNext = v.replaceNext) (hpending : w.pendingSelection = v.pendingSelection) :
    w.Looks wanted := by
  have hbrought : w.brought = v.brought := by simp only [brought, hrows, hreplace]
  constructor
  · rw [hloading, hbrought, hpending]
    exact h.pendingSelection_eq
  · rw [hloading, hbrought, hreplace]
    exact h.brought_ne

theorem applyBatch (h : v.Looks wanted) (hloading : v.isLoading = true) {batch : Batch}
    (hbatch : batch.rows ≠ []) : (v.applyBatch batch).Looks wanted := by
  have hafter := stream_applyBatch v batch
  have hbrought := brought_of_replaceNext (replaceNext_applyBatch v batch)
  rw [rows_applyBatch] at hbrought
  cases hmore : batch.hasMore with
  | false => exact .of_idle (by simp [isLoading, hafter, hmore])
  | true =>
      have hpending := (pendingSelection_addRows v batch.rows).trans (h.pendingSelection_eq hloading)
      constructor
      · intro _
        rw [hbrought, ← rows_addRows]
        simp only [RevisionList.applyBatch, hmore, if_true]
        exact (selectPending_of_looks (rows_addRows ..) hpending).2
      · intro _ _
        rw [hbrought]
        exact List.append_ne_nil_of_right_ne_nil _ hbatch

theorem settle (h : v.Looks wanted) : v.settle.Looks wanted :=
  h.of_eq (by simp [isLoading, RevisionList.settle]) rfl rfl rfl

theorem takesIn (h : v.Looks wanted) (hfollows : Follows shown all v) (htakes : v.TakesIn w) :
    w.Looks wanted := by
  cases htakes with
  | nothing => exact h
  | ending => exact .of_idle rfl
  | @batch s t batch hstream hreceive =>
      have hloading : v.isLoading = true := by simp [isLoading, hstream]
      have hu : Looks wanted { v with stream := some t, awaiting := false } :=
        h.of_eq hloading.symm rfl rfl rfl
      exact hu.applyBatch rfl (hfollows.rows_ne_of_receive hstream hreceive)

theorem turn (h : v.Looks wanted) (hfollows : Follows shown all v) (blocking : Bool) :
    (v.turn blocking).1.Looks wanted :=
  (turn_keeps (P := fun u => u.Looks wanted ∧ Follows shown all u)
    (fun _ hu => ⟨hu.1.settle, hu.2.settle⟩)
    (fun _ _ hu htakes => ⟨hu.1.takesIn hu.2 htakes, hu.2.takesIn htakes⟩)
    ⟨h, hfollows⟩ blocking).1

theorem pump (h : v.Looks wanted) (hfollows : Follows shown all v) (blocking : Bool) :
    (v.pump blocking).1.Looks wanted :=
  (pump_keeps (P := fun u => u.Looks wanted ∧ Follows shown all u)
    (fun _ hu => ⟨hu.1.settle, hu.2.settle⟩)
    (fun _ _ hu htakes => ⟨hu.1.takesIn hu.2 htakes, hu.2.takesIn htakes⟩)
    ⟨h, hfollows⟩ blocking).1

theorem perform (h : v.Looks wanted) (hfollows : Follows shown all v) {action : Action}
    (haction : action.isLoad = false) : (v.perform action).Looks wanted := by
  have hacts := v.acts_perform action
  generalize v.perform action = w at hacts ⊢
  cases hacts with
  | produce => exact h.of_eq (by simp [isLoading, RevisionList.perform]) rfl rfl rfl
  | load => simp [Action.isLoad] at haction
  | turn blocking => exact h.turn hfollows blocking
  | pump blocking => exact h.pump hfollows blocking
  | requestMore =>
      obtain ⟨stream, awaiting, heq, hstream⟩ := v.requestMore_eq
      rw [heq]
      exact h.of_eq hstream rfl rfl rfl
  | aside => exact h.of_eq rfl rfl rfl rfl

theorem performAll (h : v.Looks wanted) (hfollows : Follows shown all v) {actions : List Action}
    (hactions : ∀ action ∈ actions, action.isLoad = false) :
    (v.performAll actions).Looks wanted := by
  induction actions generalizing v with
  | nil => exact h
  | cons action actions ih =>
      have haction := hactions action List.mem_cons_self
      exact ih (h.perform hfollows haction) (hfollows.perform haction)
        fun a ha => hactions a (List.mem_cons_of_mem _ ha)

end Looks

/-! ## What becomes of the cursor -/

structure Brings (shown all : List Row) (wanted : Option String) (v : RevisionList) : Prop where
  replaceNext_eq : v.replaceNext = false
  follows : Follows shown all v
  looks : v.Looks wanted
  cursor_le : v.cursor ≤ v.lastIndex

/-- Rows are only added, and the cursor goes to the revision that is looked for if it is among them. -/
structure Continues (wanted : Option String) (v w : RevisionList) : Prop where
  isPrefix : v.rows <+: w.rows
  empty : v.rows = [] → w.rows = []
  cursor_eq : w.cursor =
    if (place wanted v.rows).isSome then v.cursor else (place wanted w.rows).getD v.cursor

namespace Continues

theorem of_eq (hrows : w.rows = v.rows) (hcursor : w.cursor = v.cursor) : v.Continues wanted w := by
  refine ⟨hrows ▸ List.prefix_rfl, hrows.trans, ?_⟩
  rw [hrows, hcursor]
  cases place wanted v.rows <;> rfl

theorem trans (hvw : v.Continues wanted w) (hwu : w.Continues wanted u) : v.Continues wanted u := by
  refine ⟨hvw.isPrefix.trans hwu.isPrefix, fun hempty => hwu.empty (hvw.empty hempty), ?_⟩
  have hcursor := hwu.cursor_eq
  rw [hvw.cursor_eq] at hcursor
  obtain ⟨first, hw⟩ := hvw.isPrefix
  obtain ⟨second, hu⟩ := hwu.isPrefix
  cases hplace : place wanted v.rows with
  | some i =>
      have hlater : place wanted w.rows = some i := hw ▸ place_append_of_some hplace first
      simpa [hplace, hlater] using hcursor
  | none =>
      cases hfound : place wanted w.rows with
      | none => simpa [hplace, hfound] using hcursor
      | some j =>
          have hlater : place wanted u.rows = some j := hu ▸ place_append_of_some hfound second
          simpa [hplace, hfound, hlater] using hcursor

theorem unmoved_iff (h : v.Continues wanted w) (hle : v.cursor ≤ v.lastIndex) :
    w.cursor = v.cursor ∧ w.selected = v.selected ↔
      ¬ (place wanted v.rows = none ∧ (place wanted w.rows).isSome) := by
  obtain ⟨more, hmore⟩ := h.isPrefix
  have hinside (hne : v.rows ≠ []) : v.cursor < v.rows.length := by
    have hpos := List.length_pos_iff.mpr hne
    unfold lastIndex at hle
    omega
  constructor
  · rintro ⟨hrests, -⟩ ⟨hnone, hsome⟩
    obtain ⟨j, hj⟩ := Option.isSome_iff_exists.mp hsome
    have hmoved : w.cursor = j := by simp [h.cursor_eq, hnone, hj]
    have hne : v.rows ≠ [] := by
      intro hempty
      rw [h.empty hempty, place_nil] at hj
      contradiction
    -- It stands below all rows that were there before.
    rw [← hmore, place_append, hnone, Option.none_or] at hj
    obtain ⟨i, -, hbelow⟩ := Option.map_eq_some_iff.mp hj
    have hlt := hinside hne
    omega
  · intro hnot
    have hrests : w.cursor = v.cursor := by
      rw [h.cursor_eq]
      split
      · rfl
      · next hnone =>
          have hnone := Option.not_isSome_iff_eq_none.mp hnone
          rw [Option.not_isSome_iff_eq_none.mp fun hsome => hnot ⟨hnone, hsome⟩]
          rfl
    refine ⟨hrests, ?_⟩
    by_cases hne : v.rows = []
    · simp [selected, hne, h.empty hne]
    · simp only [selected, hrests, ← hmore, List.getElem?_append_left (hinside hne)]

end Continues

theorem cursor_addRows_of_replaceNext (h : v.replaceNext = false) (rows : List Row) :
    (v.addRows rows).cursor = v.cursor := by
  simp [addRows, h]

theorem cursor_applyBatch {batch : Batch}
    (h : (v.addRows batch.rows).selectPending.cursor ≤
      (v.addRows batch.rows).selectPending.lastIndex) :
    (v.applyBatch batch).cursor = (v.addRows batch.rows).selectPending.cursor := by
  have hreplace : (v.addRows batch.rows).selectPending.replaceNext = false := by
    rw [(sameLog_selectPending _).replaceNext, replaceNext_addRows]
  simp only [applyBatch, clampCursor_of_le h]
  split
  · rfl
  · exact cursor_finishLoad_of_le hreplace h

theorem Looks.continues_applyBatch (h : v.Looks wanted) (hloading : v.isLoading = true)
    (hreplace : v.replaceNext = false) (hle : v.cursor ≤ v.lastIndex) (batch : Batch) :
    v.Continues wanted (v.applyBatch batch) := by
  have hbrought := brought_of_replaceNext hreplace
  have hpending := (pendingSelection_addRows v batch.rows).trans (h.pendingSelection_eq hloading)
  have hrows := rows_addRows v batch.rows
  have hmoved := (selectPending_of_looks hrows hpending).1
  rw [cursor_addRows_of_replaceNext hreplace, hbrought] at hmoved
  rw [hbrought] at hrows
  have hsame : (v.addRows batch.rows).selectPending.rows = v.rows ++ batch.rows := by
    rw [(sameLog_selectPending _).rows, hrows]
  have hafter : (v.addRows batch.rows).selectPending.cursor ≤
      (v.addRows batch.rows).selectPending.lastIndex := by
    rw [hmoved, lastIndex, hsame, List.length_append]
    unfold lastIndex at hle
    split
    · omega
    · cases hplace : place wanted (v.addRows batch.rows).rows with
      | none =>
          rw [Option.getD_none]
          omega
      | some j =>
          have hlt := place_lt hplace
          rw [hrows, List.length_append] at hlt
          rw [Option.getD_some]
          omega
  refine ⟨?_, ?_, ?_⟩
  · rw [rows_applyBatch, hbrought]
    exact List.prefix_append ..
  · intro hempty
    exact absurd (hbrought.trans hempty) (h.brought_ne hloading hreplace)
  · rw [cursor_applyBatch hafter, hmoved, rows_applyBatch, hbrought, hrows]

namespace Brings

variable {shown all : List Row}

theorem settle (h : Brings shown all wanted v) : Brings shown all wanted v.settle :=
  ⟨h.replaceNext_eq, h.follows.settle, h.looks.settle, h.cursor_le⟩

theorem takesIn (h : Brings shown all wanted v) (htakes : v.TakesIn w) :
    Brings shown all wanted w := by
  refine ⟨?_, h.follows.takesIn htakes, h.looks.takesIn h.follows htakes,
    htakes.cursor_le h.cursor_le⟩
  cases htakes with
  | nothing => exact h.replaceNext_eq
  | ending => rfl
  | batch => exact replaceNext_applyBatch ..

theorem continues_takesIn (h : Brings shown all wanted v) (htakes : v.TakesIn w) :
    v.Continues wanted w := by
  cases htakes with
  | nothing => exact .of_eq rfl rfl
  | ending =>
      refine .of_eq ?_ (cursor_finishLoad_of_le h.replaceNext_eq h.cursor_le)
      rw [rows_finishLoad, brought_of_replaceNext h.replaceNext_eq]
  | @batch s t batch hstream =>
      have hloading : v.isLoading = true := by simp [isLoading, hstream]
      have hu : Looks wanted { v with stream := some t, awaiting := false } :=
        h.looks.of_eq hloading.symm rfl rfl rfl
      obtain ⟨hgrows, hempty, hcursor⟩ :=
        hu.continues_applyBatch rfl h.replaceNext_eq h.cursor_le batch
      exact ⟨hgrows, hempty, hcursor⟩

theorem turn (h : Brings shown all wanted v) (blocking : Bool) :
    v.Continues wanted (v.turn blocking).1 ∧ Brings shown all wanted (v.turn blocking).1 :=
  turn_keeps (P := fun u => v.Continues wanted u ∧ Brings shown all wanted u)
    (fun _ hu => ⟨hu.1.trans (.of_eq rfl rfl), hu.2.settle⟩)
    (fun _ _ hu htakes => ⟨hu.1.trans (hu.2.continues_takesIn htakes), hu.2.takesIn htakes⟩)
    ⟨.of_eq rfl rfl, h⟩ blocking

theorem pump (h : Brings shown all wanted v) (blocking : Bool) :
    v.Continues wanted (v.pump blocking).1 ∧ Brings shown all wanted (v.pump blocking).1 :=
  pump_keeps (P := fun u => v.Continues wanted u ∧ Brings shown all wanted u)
    (fun _ hu => ⟨hu.1.trans (.of_eq rfl rfl), hu.2.settle⟩)
    (fun _ _ hu htakes => ⟨hu.1.trans (hu.2.continues_takesIn htakes), hu.2.takesIn htakes⟩)
    ⟨.of_eq rfl rfl, h⟩ blocking

theorem perform (h : Brings shown all wanted v) {action : Action} (hload : action.isLoad = false)
    (hmoves : action.movesCursor = false) :
    v.Continues wanted (v.perform action) ∧ Brings shown all wanted (v.perform action) := by
  suffices hafter : v.Continues wanted (v.perform action) ∧
      (v.perform action).replaceNext = false from
    ⟨hafter.1, hafter.2, h.follows.perform hload, h.looks.perform h.follows hload,
      cursor_perform_le h.cursor_le action⟩
  have hacts := v.acts_perform action
  generalize v.perform action = w at hacts ⊢
  cases hacts with
  | produce => exact ⟨.of_eq rfl rfl, h.replaceNext_eq⟩
  | load => simp [Action.isLoad] at hload
  | turn blocking => exact (h.turn blocking).imp_right replaceNext_eq
  | pump blocking => exact (h.pump blocking).imp_right replaceNext_eq
  | requestMore =>
      obtain ⟨stream, awaiting, heq, -⟩ := v.requestMore_eq
      rw [heq]
      exact ⟨.of_eq rfl rfl, h.replaceNext_eq⟩
  | aside cursor checked viewport rests => exact ⟨.of_eq rfl (rests hmoves), h.replaceNext_eq⟩

theorem performAll (h : Brings shown all wanted v) {actions : List Action}
    (hactions : ∀ action ∈ actions, action.isLoad = false ∧ action.movesCursor = false) :
    v.Continues wanted (v.performAll actions) := by
  induction actions generalizing v with
  | nil => exact .of_eq rfl rfl
  | cons action actions ih =>
      obtain ⟨hload, hmoves⟩ := hactions action List.mem_cons_self
      obtain ⟨hfirst, hw⟩ := h.perform hload hmoves
      exact hfirst.trans (ih hw fun a ha => hactions a (List.mem_cons_of_mem _ ha))

end Brings

end RevisionList

/-- Once the first batch of a load has come, the rows that come later leave the cursor where it is,
unless the revision that the load looks for is first found among them. Then the cursor goes there,
wherever it has been moved in the meantime. -/
theorem later_batches_keep_cursor_iff (source : Source) (batchSize : Nat)
    (before after further : List RevisionList.Action) (select : Option String)
    (hafter : ∀ action ∈ after, action.isLoad = false)
    (hfurther : ∀ action ∈ further, action.isLoad = false ∧ action.movesCursor = false) :
    let shown := (RevisionList.initial batchSize).performAll before
    let v := (RevisionList.initial batchSize).performAll (before ++ .load source select :: after)
    let w := v.performAll further
    let wanted := select <|> shown.selected.map Commit.changeId
    v.replaceNext = false →
      v.rows <+: w.rows ∧
      (w.cursor = v.cursor ∧ w.selected = v.selected ↔
        ¬ (RevisionList.place wanted v.rows = none ∧ (RevisionList.place wanted w.rows).isSome)) ∧
      (∀ i, RevisionList.place wanted v.rows = none → RevisionList.place wanted w.rows = some i →
        w.cursor = i) := by
  intro shown v w wanted hreplace
  have hrun : v = (shown.startLoad source select).performAll after := List.foldl_append ..
  have hfollows : RevisionList.Follows shown.rows (rowsOf source.transcript.lines) v := by
    rw [hrun]
    exact (RevisionList.Follows.startLoad shown source select).performAll hafter
  have hlooks : v.Looks wanted := by
    rw [hrun]
    exact (RevisionList.Looks.startLoad shown source select).performAll
      (.startLoad shown source select) hafter
  have hle : v.cursor ≤ v.lastIndex :=
    RevisionList.Reaches.cursor_le ⟨_, rfl⟩ (Nat.le_refl 0)
  have hcontinues : v.Continues wanted w :=
    RevisionList.Brings.performAll ⟨hreplace, hfollows, hlooks, hle⟩ hfurther
  refine ⟨hcontinues.isPrefix, hcontinues.unmoved_iff hle, fun i hnone hsome => ?_⟩
  rw [hcontinues.cursor_eq, hnone, hsome]
  rfl

/-! Three rows, which come two at a time, and a user who goes to the second one in between. -/

def threeRows : Source :=
  [.bytes (Text.Utf8.bytes "* \x1B[1mk\x1B[m x\n"), .bytes (Text.Utf8.bytes "* \x1B[1mm\x1B[m x\n"),
    .bytes (Text.Utf8.bytes "* \x1B[1mn\x1B[m x\n")]

theorem transcript_threeRows :
    threeRows.transcript = ⟨[rowLine "k" " x", rowLine "m" " x", rowLine "n" " x"], none⟩ := by
  rw [Source.transcript_eq_ofChunks, Source.chunks_eq]
  decide +kernel

theorem later_batches_keep_cursor_iff_of_three_rows :
    let v := (RevisionList.initial 1).performAll
      ([] ++ .load threeRows none :: [.pump true, .moveCursor 1])
    let w := v.performAll [.requestMore, .pump true]
    v.replaceNext = false ∧ v.cursor = 1 ∧ w.rows.length = 3 ∧
      w.cursor = v.cursor ∧ w.selected = v.selected := by
  intro v w
  have hreplace : v.replaceNext = false := by
    simp only [v, List.nil_append, RevisionList.performAll, List.foldl, RevisionList.perform,
      RevisionList.startLoad, Stream.start, transcript_threeRows]
    decide +kernel
  obtain ⟨-, hkeeps, -⟩ := later_batches_keep_cursor_iff threeRows 1 []
    [.pump true, .moveCursor 1] [.requestMore, .pump true] none
    (by simp [RevisionList.Action.isLoad])
    (by simp [RevisionList.Action.isLoad, RevisionList.Action.movesCursor]) hreplace
  refine ⟨hreplace, ?_, ?_, hkeeps.mpr fun hfound => Bool.noConfusion hfound.2⟩
  · simp only [v, List.nil_append, RevisionList.performAll, List.foldl, RevisionList.perform,
      RevisionList.startLoad, Stream.start, transcript_threeRows]
    decide +kernel
  · simp only [w, v, List.nil_append, RevisionList.performAll, List.foldl, RevisionList.perform,
      RevisionList.startLoad, Stream.start, transcript_threeRows]
    decide +kernel

/-- The third row is looked for, and its batch takes the cursor away from the second. -/
theorem later_batch_takes_cursor_away :
    let v := (RevisionList.initial 1).performAll [.load threeRows (some "n"), .pump true]
    let moved := v.moveCursor 1
    let w := moved.1.performAll [.requestMore, .pump true]
    v.replaceNext = false ∧ moved.2 = true ∧ moved.1.cursor = 1 ∧ w.cursor = 2 ∧
      w.selected ≠ moved.1.selected := by
  intro v moved w
  simp only [w, moved, v, RevisionList.performAll, List.foldl, RevisionList.perform,
    RevisionList.startLoad, Stream.start, transcript_threeRows]
  decide +kernel

end RevisionGraph
