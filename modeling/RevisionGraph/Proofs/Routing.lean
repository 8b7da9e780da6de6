import RevisionGraph.Proofs.Focus

/-!
# Where a key goes

A key that somebody leaves to others has changed nothing there, so that what a key does is done by
one of them alone.
-/

namespace RevisionGraph

theorem Operation.handleKey_of_isPass {runner : Runner} {o : Operation} {checked : CheckedSet}
    {calls : Calls} {key : Key}
    (h : (o.handleKey runner checked calls key).outcome.isPass = true) :
    o.handleKey runner checked calls key = ⟨o, checked, calls, .pass⟩ := by
  cases o with
  | batch b =>
      simp only [handleKey, BatchSelection.handleKey] at h ⊢
      split at h
      · contradiction
      · contradiction
      · contradiction
      · rfl
  | move m =>
      simp only [handleKey, BookmarkMove.handleKey] at h ⊢
      split at h
      · contradiction
      · contradiction
      · rfl
  | create c =>
      simp only [handleKey, BookmarkCreation.handleKey] at h ⊢
      split at h
      · contradiction
      · split at h <;> contradiction
      · rfl
      · contradiction
      · simp only [BookmarkCreation.confirm] at h
        split at h
        · contradiction
        · split at h <;> contradiction
      · contradiction

namespace App

variable {runner : Runner} {app : App} {key : Key}

theorem operationKey_of_unhandled (h : (app.operationKey runner key).2 = false) :
    (app.operationKey runner key).1 = app := by
  cases hoperation : app.operation with
  | none => simp only [operationKey, hoperation]
  | some o =>
      have hpass : (o.handleKey runner app.revisions.checked app.calls key).outcome.isPass = true := by
        simpa [operationKey, hoperation] using h
      simp only [operationKey, hoperation, Operation.handleKey_of_isPass hpass, applyOutcome]
      rw [← hoperation]

theorem globalKey_of_unhandled (h : (app.globalKey runner key).2 = false) :
    (app.globalKey runner key).1 = app := by
  have hresponse := app.response_globalKey runner key
  generalize app.globalKey runner key = r at h hresponse ⊢
  cases hresponse with
  | passes => rfl
  | quits | showsHelp | refreshes | showsPanel | hidesPanel | focusesPanel | focusesLog
  | unchecks => contradiction

/-- What becomes of the application by a key. -/
inductive Route (runner : Runner) (app : App) (key : Key) : App → Prop
  | quits : Route runner app key { app with quits := true }
  | closesHelp : Route runner app key { app with showsHelp := false }
  | underHelp : Route runner app key app
  | operation (hidden : app.showsHelp = false) : Route runner app key (app.operationKey runner key).1
  | panel (hidden : app.showsHelp = false) (notEditing : app.isEditing = false)
      (focus : app.focus = .bookmarks) (focused : app.panel.isFocused = true) :
      Route runner app key (app.panelKey runner key).1
  | everywhere (hidden : app.showsHelp = false) : Route runner app key (app.globalKey runner key).1
  | log (hidden : app.showsHelp = false) : Route runner app key (app.revisionsKey key)

theorem route_logKey (hidden : app.showsHelp = false) :
    app.Route runner key (app.logKey runner key) := by
  have hothers : app.Route runner key
      (if (app.globalKey runner key).2 then (app.globalKey runner key).1
        else (app.globalKey runner key).1.revisionsKey key) := by
    split
    · exact .everywhere hidden
    · next hunhandled =>
        rw [globalKey_of_unhandled (Bool.eq_false_iff.mpr hunhandled)]
        exact .log hidden
  simp only [logKey]
  split
  · cases hhandled : (app.operationKey runner key).2 with
    | true => exact .operation hidden
    | false =>
        rw [operationKey_of_unhandled hhandled]
        exact hothers
  · exact hothers

theorem route_handleKey (runner : Runner) (app : App) (key : Key) :
    app.Route runner key (app.handleKey runner key) := by
  simp only [handleKey]
  split
  · exact .quits
  · split
    · split
      · exact .closesHelp
      · exact .underHelp
    · next hhelp =>
        have hidden : app.showsHelp = false := Bool.eq_false_iff.mpr hhelp
        split
        · exact .operation hidden
        · next hediting =>
            split
            · next hpanel =>
                obtain ⟨hfocus, hfocused⟩ := hpanel
                split
                · exact .panel hidden (Bool.eq_false_iff.mpr hediting) hfocus hfocused
                · next hunhandled =>
                    have hvisible : app.panel.visible = true := (Bool.and_eq_true_iff.mp hfocused).1
                    have hsame := panelKey_of_unhandled hvisible (Bool.eq_false_iff.mpr hunhandled)
                    rw [hsame.1]
                    exact route_logKey hidden
            · exact route_logKey hidden

end App

end RevisionGraph
