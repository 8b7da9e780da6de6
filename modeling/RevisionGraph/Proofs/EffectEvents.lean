import RevisionGraph.Proofs.Calls
import RevisionGraph.Runner.Script

/-!
# How an effect is carried out

The application walks through an effect when it carries it out, and the lists of its commands and
messages are made by another walk. Between the two stands the history of carrying it out: the events
of its nodes in order (`Effect.Unfolds`), each of which takes the application from one state to the
next (`App.Undergoes`). There is just one history for each state and each runner. It has all the
commands of the effect and all messages that it emits, whatever fails; a failure takes away only the
messages that wait for the command.
-/

namespace RevisionGraph

/-! ## Events -/

inductive Effect.Event where
  | ran (command : Command) (answer : Except RunError (List UInt8))
  | emitted (message : Message)
  /-- A message that waits for a command is taken in. -/
  | followed (message : Message)

/-- The calls of an event: a command of the effect is one, and messages do no more than load. -/
inductive Effect.Event.Makes : Event → Calls → Prop
  | ran {command : Command} {answer : Except RunError (List UInt8)} :
      Makes (.ran command answer) [.run command]
  | emitted {message : Message} {calls : Calls}
      (loads : ∀ call ∈ calls, call.command.isLoad = true) : Makes (.emitted message) calls
  | followed {message : Message} {calls : Calls}
      (loads : ∀ call ∈ calls, call.command.isLoad = true) : Makes (.followed message) calls

namespace Effect

def Event.command? : Event → Option Command
  | .ran command _ => some command
  | .emitted _ | .followed _ => none

def Event.emitted? : Event → Option Message
  | .emitted message => some message
  | .ran .. | .followed _ => none

/-- All messages that wait for a command are taken in if it succeeds, and else none. -/
def followUps (next : List Message) : Except RunError (List UInt8) → List Event
  | .ok _ => next.map .followed
  | .error _ => []

mutual

inductive Unfolds : Effect → List Event → Prop
  | run {command : Command} {next : List Message} {answer : Except RunError (List UInt8)} :
      Unfolds (.run command next) (.ran command answer :: followUps next answer)
  | emit {message : Message} : Unfolds (.emit message) [.emitted message]
  | sequence {effects : List Effect} {events : List Event} (each : UnfoldsAll effects events) :
      Unfolds (.sequence effects) events
  | batch {effects : List Effect} {events : List Event} (each : UnfoldsAll effects events) :
      Unfolds (.batch effects) events

inductive UnfoldsAll : List Effect → List Event → Prop
  | nil : UnfoldsAll [] []
  | cons {e : Effect} {rest : List Effect} {events later : List Event} (first : Unfolds e events)
      (others : UnfoldsAll rest later) : UnfoldsAll (e :: rest) (events ++ later)

end

theorem filterMap_followUps {α : Type} {pick : Event → Option α}
    (hpick : ∀ message, pick (.followed message) = none) (next : List Message)
    (answer : Except RunError (List UInt8)) : (followUps next answer).filterMap pick = [] := by
  refine List.filterMap_eq_nil_iff.mpr fun event hevent => ?_
  cases answer with
  | ok output =>
      obtain ⟨message, -, rfl⟩ := List.mem_map.mp hevent
      exact hpick message
  | error e => exact absurd hevent List.not_mem_nil

structure Lists (e : Effect) (events : List Event) : Prop where
  commands_eq : events.filterMap Event.command? = e.commands
  emitted_eq : events.filterMap Event.emitted? = e.emitted

theorem Lists.cons {e : Effect} {rest : List Effect} {events later : List Event}
    (hfirst : e.Lists events) (hothers : (sequence rest).Lists later) :
    (sequence (e :: rest)).Lists (events ++ later) where
  commands_eq := by
    rw [List.filterMap_append, hfirst.commands_eq, hothers.commands_eq]
    rfl
  emitted_eq := by
    rw [List.filterMap_append, hfirst.emitted_eq, hothers.emitted_eq]
    rfl

mutual

theorem Unfolds.lists : {e : Effect} → {events : List Event} → e.Unfolds events → e.Lists events
  | .run command next, _, .run =>
      ⟨congrArg (command :: ·) (filterMap_followUps (fun _ => rfl) next _),
        filterMap_followUps (fun _ => rfl) next _⟩
  | .emit _, _, .emit => ⟨rfl, rfl⟩
  | .sequence _, _, .sequence each => each.lists
  | .batch _, _, .batch each => ⟨each.lists.commands_eq, each.lists.emitted_eq⟩

theorem UnfoldsAll.lists : {effects : List Effect} → {events : List Event} →
    UnfoldsAll effects events → (sequence effects).Lists events
  | [], _, .nil => ⟨rfl, rfl⟩
  | _ :: _, _, .cons first others => first.lists.cons others.lists

end

end Effect

/-! ## States -/

namespace App

variable {runner : Runner} {app between after other : App} {event : Effect.Event}
  {events later : List Effect.Event}

inductive Undergoes (runner : Runner) (app : App) : Effect.Event → App → Prop
  | succeeds {command : Command} {output : List UInt8}
      (answer : runner.run app.calls command = .ok output) :
      Undergoes runner app (.ran command (.ok output)) (app.recordCall (.run command))
  | fails {command : Command} {e : RunError} (answer : runner.run app.calls command = .error e) :
      Undergoes runner app (.ran command (.error e))
        ((app.recordCall (.run command)).setToast e.message)
  | emits {message : Message} :
      Undergoes runner app (.emitted message) (app.update runner message)
  | follows {message : Message} :
      Undergoes runner app (.followed message) (app.update runner message)

inductive UndergoesAll (runner : Runner) : App → List Effect.Event → App → Prop
  | nil {app : App} : UndergoesAll runner app [] app
  | cons {app between after : App} {event : Effect.Event} {later : List Effect.Event}
      (first : app.Undergoes runner event between)
      (rest : UndergoesAll runner between later after) :
      UndergoesAll runner app (event :: later) after

theorem Undergoes.state_eq (h : app.Undergoes runner event after)
    (hother : app.Undergoes runner event other) : other = after := by
  cases h <;> cases hother <;> rfl

theorem exists_loads_update (runner : Runner) (app : App) (message : Message) :
    ∃ calls, (∀ call ∈ calls, call.command.isLoad = true) ∧
      (app.update runner message).calls = app.calls ++ calls := by
  obtain ⟨calls, heq, hdeeds⟩ := app.adds_update runner message
  refine ⟨calls, fun call hcall => ?_, heq⟩
  have hload := List.filter_eq_nil_iff.mp hdeeds call.command (List.mem_map_of_mem hcall)
  simpa using hload

theorem Undergoes.makes (h : app.Undergoes runner event after) :
    ∃ calls, event.Makes calls ∧ after.calls = app.calls ++ calls := by
  cases h with
  | succeeds => exact ⟨_, .ran, rfl⟩
  | fails => exact ⟨_, .ran, rfl⟩
  | @emits message =>
      obtain ⟨calls, hloads, heq⟩ := exists_loads_update runner app message
      exact ⟨calls, .emitted hloads, heq⟩
  | @follows message =>
      obtain ⟨calls, hloads, heq⟩ := exists_loads_update runner app message
      exact ⟨calls, .followed hloads, heq⟩

theorem UndergoesAll.append (h : app.UndergoesAll runner events between)
    (hlater : between.UndergoesAll runner later after) :
    app.UndergoesAll runner (events ++ later) after := by
  induction h with
  | nil => exact hlater
  | cons first _ ih => exact .cons first (ih hlater)

theorem UndergoesAll.exists_between (h : app.UndergoesAll runner (events ++ later) after) :
    ∃ between, app.UndergoesAll runner events between ∧
      between.UndergoesAll runner later after := by
  induction events generalizing app with
  | nil => exact ⟨app, .nil, h⟩
  | cons event events ih =>
      cases h with
      | cons first rest =>
          obtain ⟨between, hevents, hlater⟩ := ih rest
          exact ⟨between, .cons first hevents, hlater⟩

theorem UndergoesAll.state_eq (h : app.UndergoesAll runner events after)
    (hother : app.UndergoesAll runner events other) : other = after := by
  induction h with
  | nil =>
      cases hother
      rfl
  | cons first _ ih =>
      cases hother with
      | cons first' rest' =>
          obtain rfl := first.state_eq first'
          exact ih rest'

theorem UndergoesAll.makes (h : app.UndergoesAll runner events after) :
    ∃ calls, List.Forall₂ Effect.Event.Makes events calls ∧
      after.calls = app.calls ++ calls.flatten := by
  induction h with
  | nil => exact ⟨[], .nil, (List.append_nil _).symm⟩
  | cons first _ ih =>
      obtain ⟨made, hmade, hfirst⟩ := first.makes
      obtain ⟨calls, hcalls, hrest⟩ := ih
      refine ⟨made :: calls, .cons hmade hcalls, ?_⟩
      rw [hrest, hfirst, List.append_assoc, List.flatten_cons]

/-! ## Histories -/

/-- The events of an effect, and a state to which they lead. -/
structure History (runner : Runner) (app : App) (e : Effect) (events : List Effect.Event)
    (after : App) : Prop where
  unfolds : e.Unfolds events
  states : app.UndergoesAll runner events after

theorem History.cons {e : Effect} {rest : List Effect}
    (hfirst : History runner app e events between)
    (hothers : History runner between (.sequence rest) later after) :
    History runner app (.sequence (e :: rest)) (events ++ later) after := by
  cases hothers.unfolds with
  | sequence each =>
      exact ⟨.sequence (.cons hfirst.unfolds each), hfirst.states.append hothers.states⟩

theorem History.batch {effects : List Effect}
    (h : History runner app (.sequence effects) events after) :
    History runner app (.batch effects) events after := by
  cases h.unfolds with
  | sequence each => exact ⟨.batch each, h.states⟩

theorem undergoesAll_followed (app : App) (next : List Message) :
    app.UndergoesAll runner (next.map .followed) (app.updateAll runner next) := by
  induction next generalizing app with
  | nil => exact .nil
  | cons message next ih => exact .cons .follows (ih (app.update runner message))

theorem exists_history_run (runner : Runner) (app : App) (command : Command)
    (next : List Message) :
    ∃ events, History runner app (.run command next) events
      (app.runCommand runner command next) := by
  simp only [runCommand]
  cases hanswer : runner.run app.calls command with
  | ok output =>
      exact ⟨_, .run, .cons (.succeeds hanswer) (undergoesAll_followed _ next)⟩
  | error e => exact ⟨_, .run, .cons (.fails hanswer) .nil⟩

mutual

theorem exists_history (runner : Runner) (app : App) : (e : Effect) →
    ∃ events, History runner app e events (applyEffect runner e app)
  | .run command next => exists_history_run runner app command next
  | .emit message => ⟨_, .emit, .cons .emits .nil⟩
  | .sequence effects => exists_history_sequence runner app effects
  | .batch effects => by
      obtain ⟨events, hhistory⟩ := exists_history_sequence runner app effects
      exact ⟨events, hhistory.batch⟩

theorem exists_history_sequence (runner : Runner) (app : App) : (effects : List Effect) →
    ∃ events, History runner app (.sequence effects) events (applyEffects runner effects app)
  | [] => ⟨[], .sequence .nil, .nil⟩
  | e :: rest => by
      obtain ⟨events, hfirst⟩ := exists_history runner app e
      obtain ⟨later, hothers⟩ := exists_history_sequence runner (applyEffect runner e app) rest
      exact ⟨events ++ later, hfirst.cons hothers⟩

end

/-! ## There is one history -/

theorem UndergoesAll.answer_eq {command : Command} {answer : Except RunError (List UInt8)}
    (h : app.UndergoesAll runner (.ran command answer :: later) after) :
    runner.run app.calls command = answer := by
  cases h with
  | cons first _ =>
      cases first with
      | succeeds answer => exact answer
      | fails answer => exact answer

mutual

theorem unfolds_unique {runner : Runner} {app after other : App}
    {events events' : List Effect.Event} : {e : Effect} →
    e.Unfolds events → e.Unfolds events' →
    app.UndergoesAll runner events after → app.UndergoesAll runner events' other → events' = events
  | .run .., .run, .run, hstates, hstates' => by
      obtain rfl := hstates'.answer_eq.symm.trans hstates.answer_eq
      rfl
  | .emit _, .emit, .emit, _, _ => rfl
  | .sequence _, .sequence each, .sequence each', hstates, hstates' =>
      unfoldsAll_unique each each' hstates hstates'
  | .batch _, .batch each, .batch each', hstates, hstates' =>
      unfoldsAll_unique each each' hstates hstates'

theorem unfoldsAll_unique {runner : Runner} {app after other : App}
    {events events' : List Effect.Event} : {effects : List Effect} →
    Effect.UnfoldsAll effects events → Effect.UnfoldsAll effects events' →
    app.UndergoesAll runner events after → app.UndergoesAll runner events' other → events' = events
  | [], .nil, .nil, _, _ => rfl
  | _ :: _, .cons first others, .cons first' others', hstates, hstates' => by
      obtain ⟨between, hbetween, hlater⟩ := hstates.exists_between
      obtain ⟨between', hbetween', hlater'⟩ := hstates'.exists_between
      obtain rfl := unfolds_unique first first' hbetween hbetween'
      obtain rfl := hbetween.state_eq hbetween'
      rw [unfoldsAll_unique others others' hlater hlater']

end

theorem History.unique {e : Effect} {events' : List Effect.Event}
    (h : History runner app e events after) (h' : History runner app e events' other) :
    events' = events ∧ other = after := by
  obtain rfl := unfolds_unique h.unfolds h'.unfolds h.states h'.states
  exact ⟨rfl, h.states.state_eq h'.states⟩

end App

/-- Carrying out an effect has just one history, whatever its nodes are, in whatever state the
application is and whatever the runner answers. The commands that are run for its nodes are those of
the effect in their order, also if some of them fail, and the messages that are taken in for its
nodes are those that it emits in their order. Right after a command that succeeds come the messages
that wait for it, and after one that fails they do not come. All other calls are loads, which the
messages ask for. -/
theorem effect_is_carried_out (runner : Runner) (app : App) (e : Effect) :
    let after := App.applyEffect runner e app
    ∃ events, App.History runner app e events after ∧
      events.filterMap Effect.Event.command? = e.commands ∧
      events.filterMap Effect.Event.emitted? = e.emitted ∧
      (∃ calls, List.Forall₂ Effect.Event.Makes events calls ∧
        after.calls = app.calls ++ calls.flatten) ∧
      ∀ events' after', App.History runner app e events' after' →
        events' = events ∧ after' = after := by
  intro after
  obtain ⟨events, hhistory⟩ := App.exists_history runner app e
  have hlists := hhistory.unfolds.lists
  exact ⟨events, hhistory, hlists.commands_eq, hlists.emitted_eq, hhistory.states.makes,
    fun _ _ hother => hhistory.unique hother⟩

example :
    let runner := Script.runner ⟨[], [⟨.deleteBookmark, none, .error (.notStarted "no program")⟩]⟩
    let e : Effect := .sequence [.run (.deleteBookmark "a") [.refresh],
      .batch [.emit .reloadBookmarks, .run (.forgetBookmark "b") [.reloadBookmarks]]]
    (App.applyEffect runner e (.initial .initial ⟨none⟩)).calls =
      [.run (.deleteBookmark "a"), .run .listBookmarks, .run (.forgetBookmark "b"),
        .run .listBookmarks] := by
  decide +kernel

end RevisionGraph
