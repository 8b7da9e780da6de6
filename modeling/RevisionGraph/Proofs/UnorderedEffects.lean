import Mathlib.Data.List.Permutation
import RevisionGraph.Proofs.Following

/-!
# Effects without an order

Toggling a range of rows reads the rows and changes the marks, and it does nothing else. Every other
message leaves both alone and does not ask for the marks (`App.update_check`). So a range can be
toggled before another message or after it, also when that message starts to load the log anew, and
the members of a confirmed batch selection may come in any order.
-/

namespace RevisionGraph

def RevisionList.toggled (v : RevisionList) (first last : String) : CheckedSet :=
  (v.toggleRange first last).1.checked

theorem RevisionList.toggled_eq {v w : RevisionList} (hrows : w.rows = v.rows)
    (hchecked : w.checked = v.checked) (first last : String) :
    w.toggled first last = v.toggled first last := by
  have hindex (id : String) : w.indexOf? id = v.indexOf? id := by
    rw [indexOf?, indexOf?, hrows]
  have hcommits (lo hi : Nat) : w.commitsBetween lo hi = v.commitsBetween lo hi := by
    rw [commitsBetween, commitsBetween, hrows]
  simp only [toggled, toggleRange, hindex, hcommits, hchecked]
  split
  · rfl
  · exact hchecked

def Message.IsToggle : Message → Prop
  | .toggleRange .. => True
  | _ => False

namespace App

variable (runner : Runner) (app : App) (checked : CheckedSet)

/-- Other marks and nothing else. -/
def check : App :=
  { app with revisions := { app.revisions with checked := checked } }

theorem update_toggleRange (first last : String) :
    app.update runner (.toggleRange first last) =
      app.check (app.revisions.toggled first last) := by
  obtain ⟨marks, heq⟩ := app.revisions.toggleRange_eq first last
  simp only [update, check, RevisionList.toggled, heq]

/-! ## What other messages do to rows and marks -/

theorem reloadRevisions_check (select : Option String) :
    (app.check checked).reloadRevisions runner select =
      (app.reloadRevisions runner select).check checked := by
  simp only [reloadRevisions, check]
  cases runner.stream app.calls app.config.logCommand <;> rfl

theorem loadBookmarks_check :
    (app.check checked).loadBookmarks runner = (app.loadBookmarks runner).check checked := by
  simp only [loadBookmarks, check]
  cases runner.run app.calls .listBookmarks <;> rfl

theorem closeOperation_check :
    (app.check checked).closeOperation runner = (app.closeOperation runner).check checked := by
  cases hoperation : app.operation with
  | none => simp only [closeOperation, check, hoperation]
  | some o =>
      cases howner : o.owner with
      | revisions =>
          simp only [closeOperation, check, hoperation, howner]
          exact reloadRevisions_check runner { app with operation := none, focus := .revisions }
            checked none
      | bookmarks =>
          simp only [closeOperation, check, hoperation, howner]
          split
          · exact loadBookmarks_check runner
              { app with
                operation := none, focus := .bookmarks, panel := app.panel.endMode.setFocus true }
              checked
          · exact loadBookmarks_check runner
              { app with operation := none, panel := app.panel.endMode } checked

theorem update_check {m : Message} (h : ¬m.IsToggle) :
    (app.check checked).update runner m = (app.update runner m).check checked := by
  cases m with
  | refresh => exact reloadRevisions_check runner app checked none
  | refreshAndSelect revision => exact reloadRevisions_check runner app checked (some revision)
  | reloadBookmarks => exact loadBookmarks_check runner app checked
  | toggleRange first last => exact absurd trivial h
  | startMoveMode bookmark => rfl
  | startCreateMode => rfl
  | endMoveMode => rfl
  | endCreateMode => rfl
  | closeOperation => exact closeOperation_check runner app checked
  | updateRevset revset =>
      exact reloadRevisions_check runner
        { app with
          config := { app.config with revset := some revset }
          focus := .revisions
          panel := app.panel.setFocus false }
        checked none
  | toast text => rfl

theorem checked_update {m : Message} (h : ¬m.IsToggle) :
    (app.update runner m).revisions.checked = app.revisions.checked := by
  have hcheck : app.update runner m = (app.update runner m).check app.revisions.checked :=
    update_check runner app app.revisions.checked h
  have hmarks := congrArg (fun after : App => after.revisions.checked) hcheck
  exact hmarks

theorem rows_reloadRevisions (select : Option String) :
    (app.reloadRevisions runner select).revisions.rows = app.revisions.rows := by
  simp only [reloadRevisions]
  cases runner.stream app.calls app.config.logCommand <;> rfl

theorem rows_update (m : Message) :
    (app.update runner m).revisions.rows = app.revisions.rows := by
  cases m with
  | refresh => exact rows_reloadRevisions runner app none
  | refreshAndSelect revision => exact rows_reloadRevisions runner app (some revision)
  | reloadBookmarks => exact congrArg RevisionList.rows (revisions_loadBookmarks runner app)
  | toggleRange first last =>
      rw [update_toggleRange]
      rfl
  | startMoveMode bookmark => rfl
  | startCreateMode => rfl
  | endMoveMode => rfl
  | endCreateMode => rfl
  | closeOperation =>
      simp only [update, closeOperation]
      split
      · rfl
      · split
        · exact rows_reloadRevisions ..
        · rw [revisions_loadBookmarks]
          split <;> rfl
  | updateRevset revset => exact rows_reloadRevisions ..
  | toast text => rfl

theorem update_toggleRange_comm {m : Message} (h : ¬m.IsToggle) (first last : String) :
    (app.update runner m).update runner (.toggleRange first last) =
      (app.update runner (.toggleRange first last)).update runner m := by
  have htoggled : (app.update runner m).revisions.toggled first last =
      app.revisions.toggled first last :=
    RevisionList.toggled_eq (rows_update runner app m) (checked_update runner app h) first last
  rw [update_toggleRange, update_toggleRange, htoggled, update_check runner app _ h]

end App

/-- In whatever order the members of a confirmed batch selection are carried out, and whatever the
runner answers, the application comes into the same state and has made the same calls. -/
theorem batch_members_commute (runner : Runner) (app : App) (b : BatchSelection)
    {effects : List Effect} (h : effects.Perm b.confirm.parts) :
    App.applyEffects runner effects app = App.applyEffect runner b.confirm app := by
  rw [App.applyEffect_eq_parts]
  cases hcurrent : b.current with
  | none =>
      have hparts : b.confirm.parts = [.emit .closeOperation] := by
        simp only [BatchSelection.confirm, hcurrent, Effect.parts]
      rw [hparts] at h ⊢
      rw [List.perm_singleton.mp h]
  | some current =>
      have hparts : b.confirm.parts =
          [.emit (.toggleRange b.start.changeId current.changeId), .emit .closeOperation] := by
        simp only [BatchSelection.confirm, hcurrent, Effect.parts]
      rw [hparts] at h ⊢
      rcases List.perm_pair.mp h with heq | heq
      · rw [heq]
      · rw [heq]
        exact App.update_toggleRange_comm runner app (m := .closeOperation) not_false _ _

theorem batch_members_commute_of_failed_reload :
    let runner := Script.runner ⟨[.error (.notStarted "no program")], []⟩
    let b : BatchSelection := ⟨.ofChangeId "k", some (.ofChangeId "m")⟩
    let list := (RevisionList.initial 50).startLoad [] none
    let app : App :=
      { App.initial .initial ⟨none⟩ with
        revisions := { list with rows := rowsOf [rowLine "k" " x", rowLine "m" " x"], cursor := 1 }
        operation := some (.batch b) }
    let effects : List Effect := [.emit .closeOperation, .emit (.toggleRange "k" "m")]
    let after := App.applyEffect runner b.confirm app
    effects.Perm b.confirm.parts ∧ App.applyEffects runner effects app = after ∧
      after.revisions.checked.ids = ["k", "m"] ∧ after.operation = none ∧
      after.toast.isSome = true ∧ after.calls.length = 1 := by
  intro runner b list app effects after
  have hperm : effects.Perm b.confirm.parts := .swap ..
  have hsame := batch_members_commute runner app b hperm
  refine ⟨hperm, hsame, ?_⟩
  decide +kernel

end RevisionGraph
