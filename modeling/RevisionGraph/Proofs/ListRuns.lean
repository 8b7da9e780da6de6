import RevisionGraph.Proofs.Calls
import RevisionGraph.Proofs.Routing

/-!
# The list in a session

Whatever happens in a session, all that it does to the list of revisions is a run of actions. So what
holds after every run of actions holds in every session.
-/

namespace RevisionGraph

namespace RevisionList

def Reaches (v w : RevisionList) : Prop :=
  ∃ actions, w = v.performAll actions

variable {v w u : RevisionList}

theorem Reaches.refl (v : RevisionList) : v.Reaches v :=
  ⟨[], rfl⟩

theorem Reaches.trans (hvw : v.Reaches w) (hwu : w.Reaches u) : v.Reaches u := by
  obtain ⟨first, rfl⟩ := hvw
  obtain ⟨second, rfl⟩ := hwu
  exact ⟨first ++ second, List.foldl_append.symm⟩

theorem reaches_perform (v : RevisionList) (action : Action) : v.Reaches (v.perform action) :=
  ⟨[action], rfl⟩

theorem Reaches.perform (h : v.Reaches w) (action : Action) : v.Reaches (w.perform action) :=
  h.trans (w.reaches_perform action)

theorem Reaches.keeps {P : RevisionList → Prop} (h : v.Reaches w)
    (hperform : ∀ u, P u → ∀ action, P (u.perform action)) (hv : P v) : P w := by
  obtain ⟨actions, rfl⟩ := h
  induction actions generalizing v with
  | nil => exact hv
  | cons action actions ih => exact ih (hperform v hv action)

theorem Pumps.reaches {changed : Bool} (h : v.Pumps w changed) : v.Reaches w := by
  induction h with
  | @rest v w turn => exact ⟨[.turn false], congrArg Prod.fst turn.symm⟩
  | @more v w u changed turn later ih =>
      have hturn : v.Reaches w := ⟨[.turn false], congrArg Prod.fst turn.symm⟩
      exact hturn.trans ih
  | @produce v w changed later ih => exact (v.reaches_perform .produce).trans ih

/-! ## The cursor -/

theorem cursor_clampCursor_le (v : RevisionList) : v.clampCursor.cursor ≤ v.clampCursor.lastIndex :=
  Nat.min_le_right ..

theorem clampCursor_of_le (h : v.cursor ≤ v.lastIndex) : v.clampCursor = v := by
  rw [clampCursor, Nat.min_eq_left h]

theorem cursor_finishLoad_of_le (hreplace : v.replaceNext = false) (h : v.cursor ≤ v.lastIndex) :
    v.finishLoad.cursor = v.cursor := by
  simp only [finishLoad, hreplace, Bool.false_eq_true, if_false]
  exact Nat.min_eq_left h

theorem TakesIn.cursor_le (htakes : v.TakesIn w) (h : v.cursor ≤ v.lastIndex) :
    w.cursor ≤ w.lastIndex := by
  cases htakes with
  | nothing => exact h
  | ending => exact cursor_clampCursor_le _
  | batch =>
      simp only [applyBatch]
      split
      · exact cursor_clampCursor_le _
      · exact cursor_clampCursor_le _

theorem cursor_turn_le (h : v.cursor ≤ v.lastIndex) (blocking : Bool) :
    (v.turn blocking).1.cursor ≤ (v.turn blocking).1.lastIndex :=
  turn_keeps (P := fun u => u.cursor ≤ u.lastIndex) (fun _ hu => hu)
    (fun _ _ hu htakes => htakes.cursor_le hu) h blocking

theorem cursor_pump_le (h : v.cursor ≤ v.lastIndex) (blocking : Bool) :
    (v.pump blocking).1.cursor ≤ (v.pump blocking).1.lastIndex :=
  pump_keeps (P := fun u => u.cursor ≤ u.lastIndex) (fun _ hu => hu)
    (fun _ _ hu htakes => htakes.cursor_le hu) h blocking

theorem cursor_perform_le (h : v.cursor ≤ v.lastIndex) (action : Action) :
    (v.perform action).cursor ≤ (v.perform action).lastIndex := by
  have hacts := v.acts_perform action
  generalize v.perform action = w at hacts ⊢
  cases hacts with
  | produce => exact h
  | load => exact h
  | turn blocking => exact cursor_turn_le h blocking
  | pump blocking => exact cursor_pump_le h blocking
  | requestMore =>
      obtain ⟨stream, awaiting, heq, -⟩ := v.requestMore_eq
      rw [heq]
      exact h
  | aside cursor checked viewport rests within => exact within h

theorem Reaches.cursor_le (h : v.Reaches w) (hv : v.cursor ≤ v.lastIndex) :
    w.cursor ≤ w.lastIndex :=
  h.keeps (P := fun u => u.cursor ≤ u.lastIndex) (fun _ => cursor_perform_le) hv

theorem cursor_eq_zero_of_selected_none (h : v.cursor ≤ v.lastIndex) (hnone : v.selected = none) :
    v.cursor = 0 := by
  have hbeyond : v.rows.length ≤ v.cursor := by simpa [selected] using hnone
  unfold lastIndex at h
  omega

/-- A log is followed, and neither it nor the rows shown until its first batch comes have a row of
another kind. -/
def Holds (P : Row → Prop) (v : RevisionList) : Prop :=
  ∃ shown all, Follows shown all v ∧ (∀ row ∈ shown, P row) ∧ ∀ row ∈ all, P row

theorem Holds.forall_rows {P : Row → Prop} (h : v.Holds P) : ∀ row ∈ v.rows, P row := by
  obtain ⟨shown, all, hfollows, hshown, hall⟩ := h
  exact hfollows.forall_rows hshown hall

theorem Holds.perform {P : Row → Prop}
    (hlog : ∀ (source : Source), ∀ row ∈ rowsOf source.transcript.lines, P row) (h : v.Holds P)
    (action : Action) : (v.perform action).Holds P := by
  cases haction : action.isLoad with
  | false =>
      obtain ⟨shown, all, hfollows, hrows⟩ := h
      exact ⟨shown, all, hfollows.perform haction, hrows⟩
  | true =>
      cases action with
      | load source select => exact ⟨_, _, .startLoad v source select, h.forall_rows, hlog source⟩
      | _ => contradiction

theorem Reaches.forall_rows {P : Row → Prop}
    (hlog : ∀ (source : Source), ∀ row ∈ rowsOf source.transcript.lines, P row) {batchSize : Nat}
    (h : (initial batchSize).Reaches v) : ∀ row ∈ v.rows, P row := by
  have hinitial : (initial batchSize).Holds P := ⟨[], [], .complete rfl rfl rfl, by simp, by simp⟩
  exact (h.keeps (fun _ => Holds.perform hlog) hinitial).forall_rows

/-! ## Touches -/

/-- What a message, a key or the mouse can do to a list at once. Whatever moves the cursor or the
window checks afterwards whether more rows are to be requested. -/
inductive Touch (v : RevisionList) : RevisionList → Prop
  | check (checked : CheckedSet) : Touch v { v with checked := checked }
  | load (source : Source) (select : Option String) : Touch v (v.startLoad source select)
  | move (index : Nat) : Touch v (v.select index).1.requestMore.1
  | scroll (lines : Int) : Touch v (v.scrollBy lines).requestMore.1

def Touches : RevisionList → RevisionList → Prop :=
  Relation.ReflTransGen Touch

theorem Touch.reaches (h : v.Touch w) : v.Reaches w := by
  cases h with
  | check checked => exact v.reaches_perform (.check checked)
  | load source select => exact v.reaches_perform (.load source select)
  | move index => exact (v.reaches_perform (.select index)).perform .requestMore
  | scroll lines => exact (v.reaches_perform (.scrollBy lines)).perform .requestMore

theorem Touches.reaches (h : v.Touches w) : v.Reaches w := by
  induction h with
  | refl => exact .refl v
  | tail _ htouch ih => exact ih.trans htouch.reaches

theorem select_of_unmoved {index : Nat} (h : (v.select index).2 = false) :
    (v.select index).1 = v := by
  unfold select at h ⊢
  split at h
  · next hstays => rw [if_pos hstays]
  · contradiction

end RevisionList

namespace App

variable {runner : Runner} {app before : App} {v : RevisionList}

theorem touches_reloadRevisions (h : v.Touches app.revisions) (select : Option String) :
    v.Touches (app.reloadRevisions runner select).revisions := by
  simp only [reloadRevisions]
  cases runner.stream app.calls app.config.logCommand with
  | error e => exact h
  | ok source => exact h.tail (.load source select)

theorem revisions_loadBookmarks (runner : Runner) (app : App) :
    (app.loadBookmarks runner).revisions = app.revisions := by
  simp only [loadBookmarks]
  cases runner.run app.calls .listBookmarks <;> rfl

theorem touches_closeOperation (h : v.Touches app.revisions) :
    v.Touches (app.closeOperation runner).revisions := by
  simp only [closeOperation]
  split
  · exact h
  · split
    · exact touches_reloadRevisions (by exact h) none
    · rw [revisions_loadBookmarks]
      split <;> exact h

theorem touches_toggleRange (h : v.Touches app.revisions) (first last : String) :
    v.Touches (app.revisions.toggleRange first last).1 := by
  obtain ⟨checked, heq⟩ := app.revisions.toggleRange_eq first last
  rw [heq]
  exact h.tail (.check checked)

theorem kept_touches (runner : Runner) (v : RevisionList) :
    Kept runner fun app => v.Touches app.revisions where
  recordCall app command h := h
  update app m h := by
    cases m with
    | refresh => exact touches_reloadRevisions h none
    | refreshAndSelect revision => exact touches_reloadRevisions h (some revision)
    | reloadBookmarks =>
        simp only [update, revisions_loadBookmarks]
        exact h
    | toggleRange first last => exact touches_toggleRange h first last
    | startMoveMode | startCreateMode | endMoveMode | endCreateMode | toast => exact h
    | closeOperation => exact touches_closeOperation h
    | updateRevset revset => exact touches_reloadRevisions (by exact h) none

theorem touches_withCursor (app before : App) (index : Nat) :
    app.revisions.Touches (before.withCursor (app.revisions.select index)).revisions := by
  simp only [withCursor]
  split
  · exact .single (.move index)
  · next hunmoved =>
      rw [RevisionList.select_of_unmoved (Bool.eq_false_iff.mpr hunmoved)]
      exact .refl

theorem touches_operationKey (app : App) (runner : Runner) (key : Key) :
    app.revisions.Touches (app.operationKey runner key).1.revisions := by
  cases hoperation : app.operation with
  | none =>
      simp only [operationKey, hoperation]
      exact .refl
  | some o =>
      have hanswered : app.revisions.Touches
          (app.answered (o.handleKey runner app.revisions.checked app.calls key)).revisions :=
        .single (.check _)
      simp only [operationKey, hoperation]
      exact (kept_touches runner app.revisions).applyOutcome hanswered _

theorem touches_panelKey (app : App) (runner : Runner) (key : Key) :
    app.revisions.Touches (app.panelKey runner key).1.revisions := by
  have hpanel : app.revisions.Touches { app with
      panel := (app.panel.handleKey app.config.remote key).1 }.revisions := .refl
  have houtcome := (kept_touches runner app.revisions).applyOutcome hpanel
    (app.panel.handleKey app.config.remote key).2
  simp only [panelKey]
  split <;> exact houtcome

theorem touches_globalKey (app : App) (runner : Runner) (key : Key) :
    app.revisions.Touches (app.globalKey runner key).1.revisions := by
  have hresponse := app.response_globalKey runner key
  generalize app.globalKey runner key = r at hresponse ⊢
  cases hresponse with
  | refreshes => exact touches_reloadRevisions .refl none
  | showsPanel =>
      rw [revisions_loadBookmarks]
      exact .refl
  | unchecks => exact .single (.check _)
  | quits | showsHelp | hidesPanel | focusesPanel | focusesLog | passes => exact .refl

theorem touches_revisionsKey (app : App) (key : Key) :
    app.revisions.Touches (app.revisionsKey key).revisions := by
  have hresponse := app.response_revisionsKey key
  generalize app.revisionsKey key = after at hresponse
  cases hresponse with
  | moves index => exact app.touches_withCursor app index
  | toggles => exact .single (.check _)
  | startsBatch | stays => exact .refl

theorem touches_handleKey (app : App) (runner : Runner) (key : Key) :
    app.revisions.Touches (app.handleKey runner key).revisions := by
  have hroute := app.route_handleKey runner key
  generalize app.handleKey runner key = after at hroute
  cases hroute with
  | quits => exact .refl
  | closesHelp => exact .refl
  | underHelp => exact .refl
  | operation => exact app.touches_operationKey runner key
  | panel => exact app.touches_panelKey runner key
  | everywhere => exact app.touches_globalKey runner key
  | log => exact app.touches_revisionsKey key

theorem touches_handleMouse (app : App) (event : MouseEvent) :
    app.revisions.Touches (app.handleMouse event).revisions := by
  have hresponse := app.response_handleMouse event
  generalize app.handleMouse event = after at hresponse
  cases hresponse with
  | pressesRevision index => exact app.touches_withCursor _ index
  | drags index => exact app.touches_withCursor app index
  | scrollsLog lines => exact .single (.scroll lines)
  | pressesBookmark | releases | scrollsPanel | stays => exact .refl

theorem revisions_draw (app : App) (width height : Nat) :
    (app.draw width height).1.revisions = (app.revisions.draw (app.logArea (mainArea width height))
      app.theme app.operation app.followsCursor []).1 := by
  obtain ⟨_, _, _, hdraw⟩ := app.draw_eq width height
  rw [hdraw]

theorem reaches_pumped (h : v.Reaches app.revisions) {revisions : RevisionList} {changed : Bool}
    (pumps : app.revisions.Pumps revisions changed) :
    v.Reaches (app.pumped revisions changed).revisions := by
  have htaken := h.trans pumps.reaches
  simp only [pumped]
  split
  · exact htaken.perform .requestMore
  · exact htaken

end App

theorem Session.reaches {runner : Runner} {config : Config} {theme : Theme} {phase : Phase}
    {app : App} (h : Session runner config theme phase app) :
    (RevisionList.initial config.batchSize).Reaches app.revisions := by
  induction h with
  | start => exact (App.touches_reloadRevisions .refl none).reaches
  | tick before pumps ih => exact App.reaches_pumped ih pumps
  | @draw app before width height ih =>
      rw [App.revisions_draw]
      exact ih.perform (.draw (app.logArea (App.mainArea width height)) app.theme app.operation
        app.followsCursor [])
  | @key app before key ih => exact ih.trans (app.touches_handleKey runner key).reaches
  | @mouse app before event ih => exact ih.trans (app.touches_handleMouse event).reaches
  | noEvent before ih => exact ih
  | produce before ih => exact ih.perform .produce
  | expireToast before ih => exact ih

theorem Session.cursor_le {runner : Runner} {config : Config} {theme : Theme} {phase : Phase}
    {app : App} (h : Session runner config theme phase app) :
    app.revisions.cursor ≤ app.revisions.lastIndex :=
  h.reaches.cursor_le (Nat.le_refl 0)

end RevisionGraph
