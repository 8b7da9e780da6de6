import RevisionGraph.Config
import RevisionGraph.Operation
import RevisionGraph.View.BookmarkPanel
import RevisionGraph.View.RevisionList

/-!
# The application

The application holds all state of the dashboard. Panels and operations give it effects, and it alone
carries them out. A runner answers its commands; the application remembers which commands it ran.
-/

namespace RevisionGraph

structure Toast where
  text : String
  expired : Bool
  deriving DecidableEq, Repr

structure App where
  config : Config
  theme : Theme
  revisions : RevisionList
  panel : BookmarkPanel
  operation : Option Operation
  focus : Panel
  targets : Targets ScreenTarget
  followsCursor : Bool
  dragging : Bool
  showsHelp : Bool
  toast : Option Toast
  quits : Bool
  calls : Calls
  deriving DecidableEq, Repr

namespace App

def initial (config : Config) (theme : Theme) : App where
  config := config
  theme := theme
  revisions := .initial config.batchSize
  panel := .initial
  operation := none
  focus := .revisions
  targets := []
  followsCursor := true
  dragging := false
  showsHelp := false
  toast := none
  quits := false
  calls := []

def pollInterval (app : App) : Nat :=
  if app.revisions.isLoading then 30 else 250

def isEditing (app : App) : Bool :=
  app.operation.any Operation.isEditing

def setToast (app : App) (text : String) : App :=
  { app with toast := some ⟨text, false⟩ }

/-- The time of the toast is up; the next frame drops it. -/
def expireToast (app : App) : App :=
  { app with toast := app.toast.map fun t => { t with expired := true } }

/-! ## The selected revision -/

def notifySelection (app : App) : App :=
  let selected := app.revisions.selected
  { app with
    operation := app.operation.map (·.setSelected selected)
    panel := if app.panel.mode = .browse then app.panel else app.panel.setTarget selected }

def requestMore (app : App) : App :=
  { app with revisions := app.revisions.requestMore.1 }

def rowsChanged (app : App) : App :=
  app.notifySelection.requestMore

def cursorMoved (app : App) : App :=
  { app with followsCursor := true }.notifySelection.requestMore

def withCursor (app : App) (moved : RevisionList × Bool) : App :=
  let app := { app with revisions := moved.1 }
  if moved.2 then app.cursorMoved else app

/-! ## Streamed rows -/

def pump (app : App) (blocking : Bool) : App × Bool :=
  let (revisions, changed) := app.revisions.pump blocking
  let app := { app with revisions := revisions }
  if changed then (app.rowsChanged, true) else (app, false)

def tick (app : App) : App :=
  (app.pump false).1

def settleFor : Nat → App → App
  | 0, app => app
  | n + 1, app =>
      let (app, changed) := app.pump true
      if changed then settleFor n app else app

def settle (app : App) : App :=
  settleFor (app.revisions.stream.elim 0 fun s => s.producer.work + 1) app

end App

end RevisionGraph
