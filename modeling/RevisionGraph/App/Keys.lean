import RevisionGraph.App.Update

/-!
# Keys

A key goes, in this order, to the help text, to an operation that is entering text, to the bookmark
panel if it has the focus, to an operation, to the keys that work everywhere, and to the log.
-/

namespace RevisionGraph

def Outcome.isPass : Outcome → Bool
  | .pass => true
  | _ => false

namespace App

def closesHelp : KeyCode → Bool
  | .esc | .char '?' | .char 'q' => true
  | _ => false

/-- Gives a key to the operation; false when it was left to others. -/
def operationKey (runner : Runner) (app : App) (key : Key) : App × Bool :=
  match app.operation with
  | none => (app, false)
  | some operation =>
      let r := operation.handleKey runner app.revisions.checked app.calls key
      let app :=
        { app with
          operation := some r.operation
          revisions := { app.revisions with checked := r.checked }
          calls := r.calls }
      (app.applyOutcome runner r.outcome, !r.outcome.isPass)

def panelKey (runner : Runner) (app : App) (key : Key) : App × Bool :=
  let (panel, outcome) := app.panel.handleKey app.config.remote key
  let app := { app with panel := panel }.applyOutcome runner outcome
  let app := if app.panel.visible then app else { app with focus := .revisions }
  (app, !outcome.isPass)

def togglePanel (runner : Runner) (app : App) : App :=
  let app := { app with panel := app.panel.toggleVisible }
  if app.panel.visible then { app with focus := .bookmarks }.loadBookmarks runner
  else { app with focus := .revisions }

def switchFocus (app : App) : App :=
  match app.focus with
  | .revisions => { app with focus := .bookmarks, panel := app.panel.setFocus true }
  | .bookmarks => { app with focus := .revisions, panel := app.panel.setFocus false }

def globalKey (runner : Runner) (app : App) (key : Key) : App × Bool :=
  match key.code with
  | .char 'q' => ({ app with quits := true }, true)
  | .char '?' => ({ app with showsHelp := true }, true)
  | .char 'r' => (app.update runner .refresh, true)
  | .char 'b' => if app.operation.isNone then (app.togglePanel runner, true) else (app, false)
  | .tab =>
      if app.operation.isNone && app.panel.visible then (app.switchFocus, true) else (app, false)
  | .esc =>
      if app.operation.isNone && !app.revisions.checked.ids.isEmpty then
        ({ app with
            revisions := { app.revisions with checked := app.revisions.checked.clear } }, true)
      else (app, false)
  | _ => (app, false)

def startBatch (app : App) : App :=
  match app.operation, app.revisions.selected with
  | none, some start => app.startOperation (.batch (.ofStart start))
  | _, _ => app

def revisionsKey (app : App) (key : Key) : App :=
  let v := app.revisions
  let page : Int := v.pageLength
  match key.code with
  | .down | .char 'j' => app.withCursor (v.moveCursor 1)
  | .up | .char 'k' => app.withCursor (v.moveCursor (-1))
  | .pageDown => app.withCursor (v.moveCursor page)
  | .pageUp => app.withCursor (v.moveCursor (-page))
  | .home | .char 'g' => app.withCursor v.selectFirst
  | .endKey | .char 'G' => app.withCursor v.selectLast
  | .char ' ' => { app with revisions := v.toggleSelected }
  | .char 'v' => app.startBatch
  | _ => app

def logKey (runner : Runner) (app : App) (key : Key) : App :=
  let (app, handled) :=
    if app.operation.any Operation.isFocused then app.operationKey runner key else (app, false)
  if handled then app
  else
    let (app, handled) := app.globalKey runner key
    if handled then app else app.revisionsKey key

def handleKey (runner : Runner) (app : App) (key : Key) : App :=
  if key.ctrl ∧ key.code = .char 'c' then { app with quits := true }
  else if app.showsHelp then
    if closesHelp key.code then { app with showsHelp := false } else app
  else if app.isEditing then (app.operationKey runner key).1
  else if app.focus = .bookmarks ∧ app.panel.isFocused then
    let (app, handled) := app.panelKey runner key
    if handled then app else app.logKey runner key
  else app.logKey runner key

end App

end RevisionGraph
