import RevisionGraph.App.Draw
import RevisionGraph.App.Keys
import RevisionGraph.App.Mouse

/-!
# Who has the focus, and in which mode

The application and its panel both say which of them has the focus, and the mode of the panel repeats
what operation is at hand. This is the part of the state in which they must agree. It goes on by
itself: what a message does to it depends on nothing else, whatever the runner answers.
-/

namespace RevisionGraph

def Operation.panelMode : Operation → PanelMode
  | .batch _ => .browse
  | .move _ => .moving
  | .create _ => .creating

namespace Operation

@[simp] theorem panelMode_setSelected (o : Operation) (selected : Option Commit) :
    (o.setSelected selected).panelMode = o.panelMode := by
  cases o <;> rfl

@[simp] theorem panelMode_handleKey (runner : Runner) (o : Operation) (checked : CheckedSet)
    (calls : Calls) (key : Key) :
    (o.handleKey runner checked calls key).operation.panelMode = o.panelMode := by
  cases o <;> rfl

theorem owner_eq_revisions_iff (o : Operation) : o.owner = .revisions ↔ o.panelMode = .browse := by
  cases o <;> simp [owner, panelMode]

theorem owner_eq_bookmarks_iff (o : Operation) : o.owner = .bookmarks ↔ o.panelMode ≠ .browse := by
  cases o <;> simp [owner, panelMode]

end Operation

structure Standing where
  focus : Panel
  visible : Bool
  wantsFocus : Bool
  mode : PanelMode
  operationMode : Option PanelMode
  /-- The panel shows a target though it only browses. -/
  strayTarget : Bool
  deriving DecidableEq, Repr

namespace Standing

def focusLog (s : Standing) : Standing :=
  { s with focus := .revisions, wantsFocus := false }

def startMode (s : Standing) (mode : PanelMode) : Standing :=
  { s.focusLog with mode := mode, operationMode := some mode, strayTarget := false }

def endMode (s : Standing) : Standing :=
  { s with mode := .browse, strayTarget := false }

def focusPanelIfVisible (s : Standing) : Standing :=
  if s.visible then { s with focus := .bookmarks, wantsFocus := true } else s

def closeOperation (s : Standing) : Standing :=
  match s.operationMode with
  | none => s
  | some mode =>
      let s := { s with operationMode := none }
      if mode = .browse then { s with focus := .revisions } else s.endMode.focusPanelIfVisible

def update (s : Standing) : Message → Standing
  | .startMoveMode _ => s.startMode .moving
  | .startCreateMode => s.startMode .creating
  | .endMoveMode | .endCreateMode => s.endMode
  | .closeOperation => s.closeOperation
  | .updateRevset _ => s.focusLog
  | .refresh | .refreshAndSelect _ | .reloadBookmarks | .toggleRange .. | .toast _ => s

end Standing

def Message.IsQuiet (m : Message) : Prop :=
  ∀ s : Standing, s.update m = s

/-! ## The messages of an effect -/

namespace Effect

mutual

/-- The messages that an effect brings if all its commands succeed, in order. -/
def messages : Effect → List Message
  | .run _ next => next
  | .emit message => [message]
  | .sequence effects => messagesOfAll effects
  | .batch effects => messagesOfAll effects

def messagesOfAll : List Effect → List Message
  | [] => []
  | e :: rest => e.messages ++ messagesOfAll rest

end

def IsQuiet (e : Effect) : Prop :=
  ∀ m ∈ e.messages, m.IsQuiet

end Effect

namespace App

def standing (app : App) : Standing where
  focus := app.focus
  visible := app.panel.visible
  wantsFocus := app.panel.wantsFocus
  mode := app.panel.mode
  operationMode := app.operation.map Operation.panelMode
  strayTarget := app.panel.mode == .browse && app.panel.target.isSome

variable (app : App) (runner : Runner)

/-! ## What leaves the standing as it is -/

@[simp] theorem standing_setToast (text : String) : (app.setToast text).standing = app.standing :=
  rfl

@[simp] theorem standing_recordCall (call : Call) : (app.recordCall call).standing = app.standing :=
  rfl

@[simp] theorem standing_requestMore : app.requestMore.standing = app.standing :=
  rfl

@[simp] theorem standing_notifySelection : app.notifySelection.standing = app.standing := by
  by_cases hmode : app.panel.mode = .browse
  · simp [standing, notifySelection, hmode, Function.comp_def]
  · have hbrowse : (app.panel.mode == .browse) = false := by simpa using hmode
    simp [standing, notifySelection, hmode, hbrowse, Function.comp_def, BookmarkPanel.setTarget]

@[simp] theorem standing_rowsChanged : app.rowsChanged.standing = app.standing := by
  simp [rowsChanged]

@[simp] theorem standing_withCursor (moved : RevisionList × Bool) :
    (app.withCursor moved).standing = app.standing := by
  simp only [withCursor]
  split
  · simp only [cursorMoved, standing_requestMore, standing_notifySelection]
    rfl
  · rfl

@[simp] theorem standing_reloadRevisions (select : Option String) :
    (app.reloadRevisions runner select).standing = app.standing := by
  simp only [reloadRevisions]
  split <;> rfl

@[simp] theorem standing_loadBookmarks : (app.loadBookmarks runner).standing = app.standing := by
  simp only [loadBookmarks]
  cases runner.run app.calls .listBookmarks <;> rfl

theorem standing_drawLog (main : Rect) : (app.drawLog main).1.standing = app.standing :=
  rfl

theorem standing_drawPanel (main : Rect) : (app.drawPanel main).1.standing = app.standing := by
  simp only [drawPanel, BookmarkPanel.draw]
  split
  · split <;> rfl
  · rfl

@[simp] theorem standing_draw (width height : Nat) :
    (app.draw width height).1.standing = app.standing := by
  have hpanel := (app.drawLog (mainArea width height)).1.standing_drawPanel (mainArea width height)
  exact hpanel.trans (app.standing_drawLog _)

/-! ## Messages and effects -/

theorem standing_startMode {mode : PanelMode} {o : Operation} (ho : o.panelMode = mode)
    (hmode : mode ≠ .browse) :
    (app.startMode mode o).standing = app.standing.startMode mode := by
  have hbrowse : (mode == .browse) = false := by simpa using hmode
  simp [startMode, startOperation, standing, Standing.startMode, Standing.focusLog,
    BookmarkPanel.startMode, BookmarkPanel.setFocus, ho, hbrowse]

theorem standing_endMode :
    { app with panel := app.panel.endMode }.standing = app.standing.endMode := by
  simp [standing, Standing.endMode, BookmarkPanel.endMode]

theorem standing_closeOperation :
    (app.closeOperation runner).standing = app.standing.closeOperation := by
  cases hoperation : app.operation with
  | none => simp [closeOperation, Standing.closeOperation, standing, hoperation]
  | some o =>
      cases howner : o.owner with
      | revisions =>
          have hmode := o.owner_eq_revisions_iff.mp howner
          simp only [closeOperation, hoperation, howner, standing_reloadRevisions]
          simp [Standing.closeOperation, standing, hoperation, hmode]
      | bookmarks =>
          have hmode := o.owner_eq_bookmarks_iff.mp howner
          simp only [closeOperation, hoperation, howner, standing_loadBookmarks]
          cases hvisible : app.panel.visible <;>
            simp [standing, Standing.closeOperation, Standing.focusPanelIfVisible,
              Standing.endMode, hoperation, hvisible, hmode, BookmarkPanel.endMode,
              BookmarkPanel.setFocus]

theorem standing_update (m : Message) :
    (app.update runner m).standing = app.standing.update m := by
  cases m with
  | refresh => exact app.standing_reloadRevisions runner none
  | refreshAndSelect revision => exact app.standing_reloadRevisions runner (some revision)
  | reloadBookmarks => exact app.standing_loadBookmarks runner
  | toggleRange first last => rfl
  | startMoveMode bookmark => exact app.standing_startMode rfl (by decide)
  | startCreateMode => exact app.standing_startMode rfl (by decide)
  | endMoveMode => exact app.standing_endMode
  | endCreateMode => exact app.standing_endMode
  | closeOperation => exact app.standing_closeOperation runner
  | updateRevset revset =>
      simp only [update, standing_reloadRevisions]
      rfl
  | toast text => rfl

theorem standing_updateAll_of_quiet {messages : List Message} (quiet : ∀ m ∈ messages, m.IsQuiet) :
    (app.updateAll runner messages).standing = app.standing := by
  induction messages generalizing app with
  | nil => rfl
  | cons m rest ih =>
      rw [List.forall_mem_cons] at quiet
      have hrest := ih (app.update runner m) quiet.2
      rw [standing_update, quiet.1] at hrest
      exact hrest

theorem standing_runCommand_of_quiet (command : Command) {next : List Message}
    (quiet : ∀ m ∈ next, m.IsQuiet) :
    (app.runCommand runner command next).standing = app.standing := by
  simp only [runCommand]
  cases runner.run app.calls command with
  | error e => rfl
  | ok output => exact standing_updateAll_of_quiet _ runner quiet

mutual

theorem standing_applyEffect_of_quiet (app : App) : (e : Effect) → e.IsQuiet →
    (applyEffect runner e app).standing = app.standing
  | .run command _, quiet => app.standing_runCommand_of_quiet runner command quiet
  | .emit message, quiet => by
      rw [applyEffect, standing_update, quiet message (List.mem_singleton_self message)]
  | .sequence effects, quiet => standing_applyEffects_of_quiet app effects quiet
  | .batch effects, quiet => standing_applyEffects_of_quiet app effects quiet

theorem standing_applyEffects_of_quiet (app : App) : (effects : List Effect) →
    (∀ m ∈ Effect.messagesOfAll effects, m.IsQuiet) →
    (applyEffects runner effects app).standing = app.standing
  | [], _ => rfl
  | e :: rest, quiet => by
      rw [Effect.messagesOfAll, List.forall_mem_append] at quiet
      have hfirst := standing_applyEffect_of_quiet app e quiet.1
      have hrest := standing_applyEffects_of_quiet (applyEffect runner e app) rest quiet.2
      exact hrest.trans hfirst

end

end App

/-! ## The end of an operation -/

namespace Standing

theorem closeOperation_endMode {s : Standing} {mode : PanelMode}
    (hoperation : s.operationMode = some mode) (hmode : mode ≠ .browse) :
    s.endMode.closeOperation = s.closeOperation := by
  simp [closeOperation, endMode, hoperation, hmode]

end Standing

def Effect.parts : Effect → List Effect
  | .sequence effects | .batch effects => effects
  | e => [e]

theorem App.applyEffect_eq_parts (runner : Runner) (e : Effect) (app : App) :
    applyEffect runner e app = applyEffects runner e.parts app := by
  cases e <;> rfl

theorem App.applyEffects_append (runner : Runner) (first second : List Effect) (app : App) :
    applyEffects runner (first ++ second) app =
      applyEffects runner second (applyEffects runner first app) := by
  induction first generalizing app with
  | nil => rfl
  | cons e rest ih => exact ih (applyEffect runner e app)

namespace Operation

def leaving : Operation → List Effect
  | .batch _ => []
  | .move _ => [.emit .endMoveMode]
  | .create _ => [.emit .endCreateMode]

/-- The effect does the work of the operation, takes the panel out of its mode, and closes it. -/
def Exits (o : Operation) (e : Effect) : Prop :=
  ∃ work, e.parts = work ++ o.leaving ++ [.emit .closeOperation] ∧
    ∀ m ∈ Effect.messagesOfAll work, m.IsQuiet

theorem isQuiet_nothing : ∀ m ∈ Effect.messagesOfAll [], m.IsQuiet := by
  simp [Effect.messagesOfAll]

theorem isQuiet_run_refresh (command : Command) :
    ∀ m ∈ Effect.messagesOfAll [.run command [.refresh]], m.IsQuiet := by
  simp [Effect.messagesOfAll, Effect.messages, Message.IsQuiet, Standing.update]

theorem exits_batch (b : BatchSelection) : (batch b).Exits b.confirm := by
  cases hcurrent : b.current with
  | none =>
      refine ⟨[], ?_, isQuiet_nothing⟩
      simp [BatchSelection.confirm, hcurrent, Effect.parts, leaving]
  | some current =>
      refine ⟨[.emit (.toggleRange b.start.changeId current.changeId)], ?_, ?_⟩
      · simp [BatchSelection.confirm, hcurrent, Effect.parts, leaving]
      · simp [Effect.messagesOfAll, Effect.messages, Message.IsQuiet, Standing.update]

theorem exits_move (m : BookmarkMove) : (move m).Exits m.confirm := by
  cases htarget : m.target with
  | none =>
      refine ⟨[], ?_, isQuiet_nothing⟩
      simp [BookmarkMove.confirm, htarget, BookmarkMove.exit, Effect.parts, leaving]
  | some target =>
      refine ⟨[.run (.moveBookmark m.bookmark target.revision) [.refresh]], ?_,
        isQuiet_run_refresh _⟩
      simp [BookmarkMove.confirm, htarget, BookmarkMove.exit, Effect.parts, leaving]

theorem exits_create {c : BookmarkCreation} {e : Effect} (h : c.confirm = .effect e) :
    (create c).Exits e := by
  simp only [BookmarkCreation.confirm] at h
  split at h
  · contradiction
  · next target htarget =>
      split at h
      · contradiction
      · obtain rfl := Outcome.effect.inj h
        exact ⟨[.run (.createBookmark c.input.name target.revision) [.refresh]], rfl,
          isQuiet_run_refresh _⟩

theorem exits_of_handleKey {runner : Runner} {o : Operation} {checked : CheckedSet} {calls : Calls}
    {key : Key} {e : Effect} (h : (o.handleKey runner checked calls key).outcome = .effect e) :
    (key.code = .enter ∨ key.code = .esc) ∧ o.Exits e := by
  cases o with
  | batch b =>
      simp only [handleKey, BatchSelection.handleKey] at h
      split at h
      · next henter =>
          obtain rfl := Outcome.effect.inj h
          exact ⟨.inl henter, exits_batch b⟩
      · next hesc =>
          obtain rfl := Outcome.effect.inj h
          exact ⟨.inr hesc, [], rfl, isQuiet_nothing⟩
      · contradiction
      · contradiction
  | move m =>
      simp only [handleKey, BookmarkMove.handleKey] at h
      split at h
      · next hesc =>
          obtain rfl := Outcome.effect.inj h
          exact ⟨.inr hesc, [], rfl, isQuiet_nothing⟩
      · next henter =>
          obtain rfl := Outcome.effect.inj h
          exact ⟨.inl henter, exits_move m⟩
      · contradiction
  | create c =>
      simp only [handleKey, BookmarkCreation.handleKey] at h
      split at h
      · next hesc =>
          obtain rfl := Outcome.effect.inj h
          exact ⟨.inr hesc, [], rfl, isQuiet_nothing⟩
      · split at h <;> contradiction
      · contradiction
      · contradiction
      · next henter => exact ⟨.inl henter, exits_create h⟩
      · contradiction

end Operation

namespace App

variable (runner : Runner) {app : App} {o : Operation} {e : Effect}

theorem applyEffect_of_exits (h : o.Exits e) :
    ∃ work, (∀ m ∈ Effect.messagesOfAll work, m.IsQuiet) ∧
      applyEffect runner e app =
        (applyEffects runner (work ++ o.leaving) app).closeOperation runner := by
  obtain ⟨work, hparts, hquiet⟩ := h
  refine ⟨work, hquiet, ?_⟩
  rw [applyEffect_eq_parts, hparts, applyEffects_append]
  rfl

theorem standing_leave (app : App) (o : Operation) {work : List Effect}
    (hquiet : ∀ m ∈ Effect.messagesOfAll work, m.IsQuiet) :
    (applyEffects runner (work ++ o.leaving) app).standing =
      if o.panelMode = .browse then app.standing else app.standing.endMode := by
  have hwork := standing_applyEffects_of_quiet runner app work hquiet
  rw [applyEffects_append]
  cases o with
  | batch b => exact hwork
  | move m =>
      simp only [Operation.leaving, applyEffects, applyEffect, standing_update, hwork]
      rfl
  | create c =>
      simp only [Operation.leaving, applyEffects, applyEffect, standing_update, hwork]
      rfl

theorem standing_applyEffect_of_exits (h : o.Exits e)
    (hoperation : app.standing.operationMode = some o.panelMode) :
    (applyEffect runner e app).standing = app.standing.closeOperation := by
  obtain ⟨work, hquiet, happly⟩ := applyEffect_of_exits runner h
  rw [happly, standing_closeOperation, standing_leave runner app o hquiet]
  split
  · rfl
  · next hmode => exact Standing.closeOperation_endMode hoperation hmode

end App

end RevisionGraph
