import RevisionGraph.App.Footer
import RevisionGraph.App.Help
import RevisionGraph.Screen.Render
import RevisionGraph.View.RevisionListDrawing

/-!
# Drawing a frame

The log takes the screen above the footer, and leaves the right of it to the bookmark panel when that
is visible. Drawing lays the lists out, so the targets of the mouse are those of the last frame.
-/

namespace RevisionGraph.App

def logWidth (width : Nat) : Nat :=
  (width * 65 + 50) / 100

def mainArea (width height : Nat) : Rect :=
  ⟨0, 0, width, height - 1⟩

def footerArea (width height : Nat) : Rect :=
  ⟨0, height - 1, width, min height 1⟩

def logArea (app : App) (main : Rect) : Rect :=
  if app.panel.visible then { main with width := logWidth main.width } else main

def panelArea (main : Rect) : Rect :=
  ⟨main.x + logWidth main.width, main.y, main.width - logWidth main.width, main.height⟩

def drawLog (app : App) (main : Rect) : App × List Paint :=
  let (revisions, paints, targets) :=
    app.revisions.draw (app.logArea main) app.theme app.operation app.followsCursor []
  ({ app with revisions := revisions, targets := targets }, paints)

def drawPanel (app : App) (main : Rect) : App × List Paint :=
  if app.panel.visible then
    let (panel, paints, targets) := app.panel.draw (panelArea main) app.theme app.targets
    ({ app with panel := panel, targets := targets }, paints)
  else (app, [])

def dropToast (app : App) : App :=
  { app with toast := app.toast.filter fun t => !t.expired }

def draw (app : App) (width height : Nat) : App × List Paint :=
  let main := mainArea width height
  let (app, log) := app.drawLog main
  let (app, panel) := app.drawPanel main
  let app := app.dropToast
  let footer := Paint.lines (footerArea width height) [app.footer]
  (app, log ++ panel ++ [footer] ++ if app.showsHelp then Help.paint app.theme main else [])

def screen (width height : Nat) (paints : List Paint) : Grid :=
  (Grid.empty width height).paintAll paints

end RevisionGraph.App
