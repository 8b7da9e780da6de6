import RevisionGraph.App.State

/-!
# Taking in messages and carrying out effects
-/

namespace RevisionGraph.App

def recordCall (app : App) (call : Call) : App :=
  { app with calls := app.calls ++ [call] }

def reloadRevisions (runner : Runner) (app : App) (select : Option String) : App :=
  let command := app.config.logCommand
  let answer := runner.stream app.calls command
  let app := app.recordCall (.stream command)
  match answer with
  | .ok source => { app with revisions := app.revisions.startLoad source select }
  | .error e => app.setToast e.message

def start (runner : Runner) (app : App) : App :=
  app.reloadRevisions runner none

def loadBookmarks (runner : Runner) (app : App) : App :=
  let answer := runner.run app.calls .listBookmarks
  let app := app.recordCall (.run .listBookmarks)
  let (panel, failure) := app.panel.load answer
  let app := { app with panel := panel }
  failure.elim app fun e => app.setToast e.message

/-! ## Operations -/

def startOperation (app : App) (operation : Operation) : App :=
  { app with
    operation := some (operation.setSelected app.revisions.selected)
    focus := .revisions
    panel := app.panel.setFocus false }

/-- Gives the focus back to the panel that the operation came from and loads it anew. -/
def closeOperation (runner : Runner) (app : App) : App :=
  match app.operation with
  | none => app
  | some operation =>
      let app := { app with operation := none }
      match operation.owner with
      | .revisions => { app with focus := .revisions }.reloadRevisions runner none
      | .bookmarks =>
          let app := { app with panel := app.panel.endMode }
          let app :=
            if app.panel.visible then
              { app with focus := .bookmarks, panel := app.panel.setFocus true }
            else app
          app.loadBookmarks runner

def startMode (app : App) (mode : PanelMode) (operation : Operation) : App :=
  let app := { app with panel := app.panel.startMode mode app.revisions.selected }
  app.startOperation operation

/-! ## Messages and effects -/

def update (runner : Runner) (app : App) : Message → App
  | .refresh => app.reloadRevisions runner none
  | .refreshAndSelect revision => app.reloadRevisions runner (some revision)
  | .reloadBookmarks => app.loadBookmarks runner
  | .toggleRange first last =>
      { app with revisions := (app.revisions.toggleRange first last).1 }
  | .startMoveMode bookmark => app.startMode .moving (.move ⟨bookmark, none⟩)
  | .startCreateMode => app.startMode .creating (.create .initial)
  | .endMoveMode | .endCreateMode => { app with panel := app.panel.endMode }
  | .closeOperation => app.closeOperation runner
  | .updateRevset revset =>
      { app with
        config := { app.config with revset := some revset }
        focus := .revisions
        panel := app.panel.setFocus false }.reloadRevisions runner none
  | .toast text => app.setToast text

def updateAll (runner : Runner) (app : App) (messages : List Message) : App :=
  messages.foldl (update runner) app

/-- Runs a command; the messages that follow it are taken in only if it succeeds. -/
def runCommand (runner : Runner) (app : App) (command : Command) (next : List Message) : App :=
  let answer := runner.run app.calls command
  let app := app.recordCall (.run command)
  match answer with
  | .ok _ => app.updateAll runner next
  | .error e => app.setToast e.message

mutual

def applyEffect (runner : Runner) : Effect → App → App
  | .run command next, app => app.runCommand runner command next
  | .emit message, app => app.update runner message
  | .sequence effects, app => applyEffects runner effects app
  | .batch effects, app => applyEffects runner effects app

def applyEffects (runner : Runner) : List Effect → App → App
  | [], app => app
  | e :: rest, app => applyEffects runner rest (applyEffect runner e app)

end

def applyOutcome (runner : Runner) (app : App) : Outcome → App
  | .effect e => applyEffect runner e app
  | _ => app

end RevisionGraph.App
