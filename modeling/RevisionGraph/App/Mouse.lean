import RevisionGraph.App.State

/-!
# The mouse

The left button selects rows, and dragging moves the cursor of the log along. The wheel scrolls the
log, and in the bookmark panel it moves the cursor.
-/

namespace RevisionGraph.App

def wheelLines : Int :=
  3

def press (app : App) (x y : Nat) : App :=
  match app.targets.hit x y .click with
  | some (.revisionRow index) =>
      if app.isEditing then app
      else
        { app with dragging := true, focus := .revisions, panel := app.panel.setFocus false
          }.withCursor (app.revisions.select index)
  | some (.bookmarkRow index) =>
      if app.panel.mode = .browse then
        { app with focus := .bookmarks, panel := (app.panel.setFocus true).select index }
      else app
  | _ => app

def drag (app : App) (x y : Nat) : App :=
  match app.targets.hit x y .drag with
  | some (.revisionRow index) => app.withCursor (app.revisions.select index)
  | _ => app

def scroll (app : App) (x y : Nat) (lines : Int) : App :=
  match app.targets.hit x y .scroll with
  | some .revisions =>
      { app with followsCursor := false, revisions := app.revisions.scrollBy lines }.requestMore
  | some .bookmarks => { app with panel := app.panel.moveCursor lines.sign }
  | _ => app

def handleMouse (app : App) (e : MouseEvent) : App :=
  match e.kind with
  | .down .left => app.press e.x e.y
  | .drag .left => if app.dragging then app.drag e.x e.y else app
  | .up .left => { app with dragging := false }
  | .scrollDown => app.scroll e.x e.y wheelLines
  | .scrollUp => app.scroll e.x e.y (-wheelLines)
  | _ => app

end RevisionGraph.App
