import Mathlib.Data.List.Basic
import RevisionGraph.App.Update

/-!
# Calls

Calls are only ever added. Each is a load of one of the panels, a look-up of the bookmarks that could
move to a revision, or a change of the repository; the last two are the deeds. Messages only load, so
the deeds of an effect are its own commands, whatever the runner answers.
-/

namespace RevisionGraph

/-! ## Deeds -/

namespace Command

def isLoad : Command → Bool
  | .log .. | .listBookmarks => true
  | _ => false

def lookUp? : Command → Option String
  | .listMovable revision => some revision
  | _ => none

theorem lookUp?_of_isChange {c : Command} (h : c.isChange = true) : c.lookUp? = none := by
  cases c <;> first | rfl | contradiction

end Command

def deeds (calls : Calls) : List Command :=
  (calls.map Call.command).filter fun c => !c.isLoad

def changes (calls : Calls) : List Command :=
  (calls.map Call.command).filter Command.isChange

def lookUps (calls : Calls) : List String :=
  (calls.map Call.command).filterMap Command.lookUp?

@[simp] theorem deeds_append (a b : Calls) : deeds (a ++ b) = deeds a ++ deeds b := by
  simp [deeds]

@[simp] theorem changes_append (a b : Calls) : changes (a ++ b) = changes a ++ changes b := by
  simp [changes]

@[simp] theorem lookUps_append (a b : Calls) : lookUps (a ++ b) = lookUps a ++ lookUps b := by
  simp [lookUps]

theorem changes_eq (calls : Calls) : changes calls = (deeds calls).filter Command.isChange := by
  rw [changes, deeds, List.filter_filter]
  apply List.filter_congr
  intro c _
  cases c <;> rfl

theorem lookUps_eq (calls : Calls) :
    lookUps calls = (deeds calls).filterMap Command.lookUp? := by
  rw [lookUps, deeds, List.filterMap_filter]
  apply List.filterMap_congr
  intro c _
  cases c <;> rfl

/-- The calls have become more, and the new ones are loads except for these deeds. -/
def Adds (before after : Calls) (ds : List Command) : Prop :=
  ∃ new, after = before ++ new ∧ deeds new = ds

namespace Adds

variable {a b c : Calls} {ds es : List Command}

theorem refl (a : Calls) : Adds a a [] :=
  ⟨[], (List.append_nil a).symm, rfl⟩

theorem of_eq (h : b = a) : Adds a b [] :=
  h ▸ refl a

theorem isPrefix (h : Adds a b ds) : a <+: b := by
  obtain ⟨new, rfl, -⟩ := h
  exact List.prefix_append a new

theorem call (a : Calls) (call : Call) : Adds a (a ++ [call]) (deeds [call]) :=
  ⟨[call], rfl, rfl⟩

theorem trans (hab : Adds a b ds) (hbc : Adds b c es) : Adds a c (ds ++ es) := by
  obtain ⟨new, rfl, rfl⟩ := hab
  obtain ⟨newer, rfl, rfl⟩ := hbc
  exact ⟨new ++ newer, List.append_assoc .., deeds_append ..⟩

theorem trans_nil (hab : Adds a b ds) (hbc : Adds b c []) : Adds a c ds := by
  have h := hab.trans hbc
  rwa [List.append_nil] at h

end Adds

def Effect.deeds (e : Effect) : List Command :=
  e.commands.filter fun c => !c.isLoad

def Outcome.deeds : Outcome → List Command
  | .effect e => e.deeds
  | .pass | .consumed => []

/-! ## Messages and effects -/

namespace App

variable (runner : Runner) (app : App)

theorem calls_reloadRevisions (select : Option String) :
    (app.reloadRevisions runner select).calls = app.calls ++ [.stream app.config.logCommand] := by
  simp only [reloadRevisions]
  split <;> rfl

theorem config_reloadRevisions (select : Option String) :
    (app.reloadRevisions runner select).config = app.config := by
  simp only [reloadRevisions]
  split <;> rfl

theorem calls_loadBookmarks :
    (app.loadBookmarks runner).calls = app.calls ++ [.run .listBookmarks] := by
  simp only [loadBookmarks]
  cases runner.run app.calls .listBookmarks <;> rfl

theorem operation_reloadRevisions (app : App) (runner : Runner) (select : Option String) :
    (app.reloadRevisions runner select).operation = app.operation := by
  simp only [reloadRevisions]
  split <;> rfl

theorem operation_loadBookmarks (app : App) (runner : Runner) :
    (app.loadBookmarks runner).operation = app.operation := by
  simp only [loadBookmarks]
  cases runner.run app.calls .listBookmarks <;> rfl

theorem operation_closeOperation (app : App) (runner : Runner) :
    (app.closeOperation runner).operation = none := by
  cases hoperation : app.operation with
  | none => simp only [closeOperation, hoperation]
  | some o =>
      simp only [closeOperation, hoperation]
      split
      · apply operation_reloadRevisions
      · rw [operation_loadBookmarks]
        split <;> rfl

theorem calls_closeOperation_of_revisions {o : Operation} (hoperation : app.operation = some o)
    (howner : o.owner = .revisions) :
    (app.closeOperation runner).calls =
      app.calls ++ [.stream (app.closeOperation runner).config.logCommand] := by
  simp only [closeOperation, hoperation, howner, calls_reloadRevisions, config_reloadRevisions]

theorem calls_closeOperation_of_bookmarks {o : Operation} (hoperation : app.operation = some o)
    (howner : o.owner = .bookmarks) :
    (app.closeOperation runner).calls = app.calls ++ [.run .listBookmarks] := by
  simp only [closeOperation, hoperation, howner, calls_loadBookmarks]
  split <;> rfl

theorem adds_reloadRevisions (select : Option String) :
    Adds app.calls (app.reloadRevisions runner select).calls [] := by
  rw [calls_reloadRevisions]
  exact .call _ (.stream app.config.logCommand)

theorem adds_loadBookmarks : Adds app.calls (app.loadBookmarks runner).calls [] := by
  rw [calls_loadBookmarks]
  exact .call _ (.run .listBookmarks)

theorem adds_closeOperation : Adds app.calls (app.closeOperation runner).calls [] := by
  cases hoperation : app.operation with
  | none =>
      simp only [closeOperation, hoperation]
      exact .refl _
  | some o =>
      cases howner : o.owner with
      | revisions =>
          rw [app.calls_closeOperation_of_revisions runner hoperation howner]
          exact .call _ (.stream (app.closeOperation runner).config.logCommand)
      | bookmarks =>
          rw [app.calls_closeOperation_of_bookmarks runner hoperation howner]
          exact .call _ (.run .listBookmarks)

theorem adds_update (m : Message) : Adds app.calls (app.update runner m).calls [] := by
  cases m with
  | refresh => exact app.adds_reloadRevisions runner none
  | refreshAndSelect revision => exact app.adds_reloadRevisions runner (some revision)
  | updateRevset revset =>
      simp only [update]
      exact adds_reloadRevisions runner _ none
  | reloadBookmarks => exact app.adds_loadBookmarks runner
  | closeOperation => exact app.adds_closeOperation runner
  | toggleRange | startMoveMode | startCreateMode | endMoveMode | endCreateMode | toast =>
      exact .refl _

theorem adds_updateAll (messages : List Message) :
    Adds app.calls (app.updateAll runner messages).calls [] := by
  induction messages generalizing app with
  | nil => exact .refl _
  | cons m rest ih => exact (app.adds_update runner m).trans (ih (app.update runner m))

theorem adds_runCommand (command : Command) (next : List Message) :
    Adds app.calls (app.runCommand runner command next).calls (deeds [.run command]) := by
  have hrecorded := Adds.call app.calls (.run command)
  simp only [runCommand]
  cases runner.run app.calls command with
  | error e => exact hrecorded
  | ok output => exact hrecorded.trans_nil (adds_updateAll runner _ next)

mutual

theorem adds_applyEffect (app : App) : (e : Effect) →
    Adds app.calls (applyEffect runner e app).calls e.deeds
  | .run command next => app.adds_runCommand runner command next
  | .emit message => app.adds_update runner message
  | .sequence effects => adds_applyEffects app effects
  | .batch effects => adds_applyEffects app effects

theorem adds_applyEffects (app : App) : (effects : List Effect) →
    Adds app.calls (applyEffects runner effects app).calls (Effect.sequence effects).deeds
  | [] => .refl _
  | e :: rest => by
      have hfirst := adds_applyEffect app e
      have hrest := adds_applyEffects (applyEffect runner e app) rest
      have hboth := hfirst.trans hrest
      simp only [Effect.deeds, Effect.commands, Effect.commandsOfAll, List.filter_append] at hboth ⊢
      exact hboth

end

theorem adds_applyOutcome (outcome : Outcome) :
    Adds app.calls (app.applyOutcome runner outcome).calls outcome.deeds := by
  cases outcome with
  | pass => exact .refl _
  | consumed => exact .refl _
  | effect e => exact adds_applyEffect runner app e

end App

/-! ## What every effect keeps -/

/-- Running a command and taking in a message keep the property. -/
structure App.Kept (runner : Runner) (P : App → Prop) : Prop where
  recordCall (app : App) (command : Command) : P app → P (app.recordCall (.run command))
  update (app : App) (m : Message) : P app → P (app.update runner m)

namespace App.Kept

variable {runner : Runner} {P : App → Prop}

theorem updateAll (kept : Kept runner P) {app : App} (h : P app) (messages : List Message) :
    P (app.updateAll runner messages) := by
  induction messages generalizing app with
  | nil => exact h
  | cons m rest ih => exact ih (kept.update app m h)

theorem runCommand (kept : Kept runner P) {app : App} (h : P app) (command : Command)
    (next : List Message) : P (app.runCommand runner command next) := by
  have hrecorded := kept.recordCall app command h
  simp only [App.runCommand]
  cases runner.run app.calls command with
  | error e => exact kept.update _ (.toast e.message) hrecorded
  | ok output => exact kept.updateAll hrecorded next

mutual

theorem applyEffect (kept : Kept runner P) {app : App} (h : P app) : (e : Effect) →
    P (App.applyEffect runner e app)
  | .run command next => kept.runCommand h command next
  | .emit message => kept.update app message h
  | .sequence effects => applyEffects kept h effects
  | .batch effects => applyEffects kept h effects

theorem applyEffects (kept : Kept runner P) {app : App} (h : P app) : (effects : List Effect) →
    P (App.applyEffects runner effects app)
  | [] => h
  | e :: rest => applyEffects kept (applyEffect kept h e) rest

end

theorem applyOutcome (kept : Kept runner P) {app : App} (h : P app) (outcome : Outcome) :
    P (app.applyOutcome runner outcome) := by
  cases outcome with
  | pass => exact h
  | consumed => exact h
  | effect e => exact kept.applyEffect h e

end App.Kept

end RevisionGraph
