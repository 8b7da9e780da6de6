import RevisionGraph.App.Draw
import RevisionGraph.App.Keys
import RevisionGraph.App.Mouse

/-!
# What keys, the mouse and frames can do

A key of the log, a key that works everywhere and an event of the mouse, each with all that can
become of the application. What these events keep is proved by the cases of the relations. A frame
only lays out what is there (`draw_eq`).
-/

namespace RevisionGraph.App

/-! ## Keys -/

inductive LogResponse (app : App) : App → Prop
  | moves (index : Nat) : LogResponse app (app.withCursor (app.revisions.select index))
  | toggles : LogResponse app { app with revisions := app.revisions.toggleSelected }
  | startsBatch {start : Commit} (idle : app.operation = none)
      (selected : app.revisions.selected = some start) :
      LogResponse app (app.startOperation (.batch (.ofStart start)))
  | stays : LogResponse app app

theorem response_revisionsKey (app : App) (key : Key) :
    app.LogResponse (app.revisionsKey key) := by
  simp only [revisionsKey]
  split
  -- Ten keys move the cursor.
  iterate 10 · exact .moves _
  · exact .toggles
  · simp only [startBatch]
    split
    · next hidle hselected => exact .startsBatch hidle hselected
    · exact .stays
  · exact .stays

inductive GlobalResponse (runner : Runner) (app : App) : App × Bool → Prop
  | quits : GlobalResponse runner app ({ app with quits := true }, true)
  | showsHelp : GlobalResponse runner app ({ app with showsHelp := true }, true)
  | refreshes : GlobalResponse runner app (app.reloadRevisions runner none, true)
  | showsPanel (idle : app.operation = none) (hidden : app.panel.visible = false) :
      GlobalResponse runner app
        ({ app with panel := app.panel.toggleVisible, focus := .bookmarks }.loadBookmarks runner,
          true)
  | hidesPanel (idle : app.operation = none) (visible : app.panel.visible = true) :
      GlobalResponse runner app
        ({ app with panel := app.panel.toggleVisible, focus := .revisions }, true)
  | focusesPanel (idle : app.operation = none) (visible : app.panel.visible = true) :
      GlobalResponse runner app
        ({ app with focus := .bookmarks, panel := app.panel.setFocus true }, true)
  | focusesLog (idle : app.operation = none) (visible : app.panel.visible = true) :
      GlobalResponse runner app
        ({ app with focus := .revisions, panel := app.panel.setFocus false }, true)
  | unchecks :
      GlobalResponse runner app
        ({ app with
            revisions := { app.revisions with checked := app.revisions.checked.clear } }, true)
  | passes : GlobalResponse runner app (app, false)

theorem response_togglePanel {app : App} (runner : Runner) (idle : app.operation = none) :
    GlobalResponse runner app (app.togglePanel runner, true) := by
  cases hvisible : app.panel.visible with
  | true =>
      have hhides : app.togglePanel runner =
          { app with panel := app.panel.toggleVisible, focus := .revisions } := by
        simp [togglePanel, BookmarkPanel.toggleVisible, hvisible]
      rw [hhides]
      exact .hidesPanel idle hvisible
  | false =>
      have hshows : app.togglePanel runner =
          { app with panel := app.panel.toggleVisible, focus := .bookmarks }.loadBookmarks
            runner := by
        simp [togglePanel, BookmarkPanel.toggleVisible, hvisible]
      rw [hshows]
      exact .showsPanel idle hvisible

theorem response_globalKey (app : App) (runner : Runner) (key : Key) :
    app.GlobalResponse runner (app.globalKey runner key) := by
  simp only [globalKey]
  split
  · exact .quits
  · exact .showsHelp
  · exact .refreshes
  · split
    · next hidle => exact response_togglePanel runner (Option.isNone_iff_eq_none.mp hidle)
    · exact .passes
  · split
    · next htab =>
        obtain ⟨hnone, hvisible⟩ := Bool.and_eq_true_iff.mp htab
        have hidle := Option.isNone_iff_eq_none.mp hnone
        simp only [switchFocus]
        split
        · exact .focusesPanel hidle hvisible
        · exact .focusesLog hidle hvisible
    · exact .passes
  · split
    · exact .unchecks
    · exact .passes
  · exact .passes

/-! ## The mouse -/

inductive MouseResponse (app : App) (event : MouseEvent) : App → Prop
  | pressesRevision (index : Nat)
      (hit : app.targets.hit event.x event.y .click = some (.revisionRow index))
      (notEditing : app.isEditing = false) :
      MouseResponse app event
        ({ app with dragging := true, focus := .revisions, panel := app.panel.setFocus false
          }.withCursor (app.revisions.select index))
  | pressesBookmark (index : Nat)
      (hit : app.targets.hit event.x event.y .click = some (.bookmarkRow index))
      (browsing : app.panel.mode = .browse) :
      MouseResponse app event
        { app with focus := .bookmarks, panel := (app.panel.setFocus true).select index }
  | drags (index : Nat)
      (hit : app.targets.hit event.x event.y .drag = some (.revisionRow index))
      (dragging : app.dragging = true) :
      MouseResponse app event (app.withCursor (app.revisions.select index))
  | releases : MouseResponse app event { app with dragging := false }
  | scrollsLog (lines : Int) :
      MouseResponse app event
        { app with followsCursor := false, revisions := app.revisions.scrollBy lines }.requestMore
  | scrollsPanel (lines : Int) :
      MouseResponse app event { app with panel := app.panel.moveCursor lines.sign }
  | stays : MouseResponse app event app

theorem response_handleMouse (app : App) (event : MouseEvent) :
    app.MouseResponse event (app.handleMouse event) := by
  have hscroll (lines : Int) : app.MouseResponse event (app.scroll event.x event.y lines) := by
    simp only [scroll]
    split
    · exact .scrollsLog lines
    · exact .scrollsPanel lines
    · exact .stays
  simp only [handleMouse]
  split
  · simp only [press]
    split
    · next index hit =>
        split
        · exact .stays
        · next hediting => exact .pressesRevision index hit (Bool.eq_false_iff.mpr hediting)
    · next index hit =>
        split
        · next hbrowsing => exact .pressesBookmark index hit hbrowsing
        · exact .stays
    · exact .stays
  · split
    · next hdragging =>
        simp only [drag]
        split
        · next index hit => exact .drags index hit hdragging
        · exact .stays
    · exact .stays
  · exact .releases
  · exact hscroll _
  · exact hscroll _
  · exact .stays

/-! ## Frames -/

theorem drawPanel_eq (app : App) (main : Rect) :
    ∃ panel targets, (app.drawPanel main).1 = { app with panel := panel, targets := targets } := by
  simp only [drawPanel]
  split
  · exact ⟨_, _, rfl⟩
  · exact ⟨app.panel, app.targets, rfl⟩

theorem draw_eq (app : App) (width height : Nat) :
    ∃ panel targets toast, (app.draw width height).1 =
      { app with
        revisions := (app.revisions.draw (app.logArea (mainArea width height)) app.theme
          app.operation app.followsCursor []).1
        panel := panel
        targets := targets
        toast := toast } := by
  obtain ⟨panel, targets, hpanel⟩ :=
    (app.drawLog (mainArea width height)).1.drawPanel_eq (mainArea width height)
  simp only [draw, hpanel]
  exact ⟨panel, targets, _, rfl⟩

end RevisionGraph.App
