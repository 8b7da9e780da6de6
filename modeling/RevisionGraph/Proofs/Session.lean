import Mathlib.Logic.Function.Iterate
import Mathlib.Logic.Relation
import RevisionGraph.App.Draw
import RevisionGraph.App.Keys
import RevisionGraph.App.Mouse
import RevisionGraph.Proofs.Loading

/-!
# Sessions

The application runs in rounds: it picks up what has been streamed, draws a frame of any size, and
takes in one event, or none if none comes in time. The producer goes on at its own pace, also between
the turns of a pump, and the time of a toast may be up at any point. Rounds that would follow a
request to quit count too.
-/

namespace RevisionGraph

/-! ## Pumps amid production -/

/-- The turns of a pump that does not wait, with steps of the producer before and between them. The
flag says whether anything was taken in. -/
inductive RevisionList.Pumps : RevisionList → RevisionList → Bool → Prop
  | rest {v w : RevisionList} (turn : v.turn false = (w, false)) : Pumps v w false
  | more {v w u : RevisionList} {changed : Bool} (turn : v.turn false = (w, true))
      (later : Pumps w u changed) : Pumps v u true
  | produce {v w : RevisionList} {changed : Bool} (later : Pumps (v.perform .produce) w changed) :
      Pumps v w changed

theorem RevisionList.pumps_pump (v : RevisionList) :
    v.Pumps (v.pump false).1 (v.pump false).2 := by
  fun_induction RevisionList.pump v false with
  | case1 v w hturn ih => exact .more hturn ih
  | case2 v w hturn => exact .rest hturn

theorem RevisionList.turn_of_stream_none {v : RevisionList} (h : v.stream = none) (blocking : Bool) :
    v.turn blocking = (v, false) := by
  have hsettle : v.settle = v := by rw [settle, h, Option.map_none, ← h]
  simp [turn, takeIn, hsettle, h]

namespace App

def produce (app : App) : App :=
  { app with revisions := app.revisions.perform .produce }

def pumped (app : App) (revisions : RevisionList) (changed : Bool) : App :=
  let app := { app with revisions := revisions }
  if changed then app.rowsChanged else app

theorem pump_eq_pumped (app : App) (blocking : Bool) :
    app.pump blocking =
      (app.pumped (app.revisions.pump blocking).1 (app.revisions.pump blocking).2,
        (app.revisions.pump blocking).2) := by
  simp only [pump, pumped]
  split
  · next hchanged => rw [hchanged]
  · next hchanged => rw [Bool.eq_false_iff.mpr hchanged]

theorem tick_eq_pumped (app : App) :
    app.tick = app.pumped (app.revisions.pump false).1 (app.revisions.pump false).2 := by
  rw [tick, pump_eq_pumped]

end App

/-! ## Rounds -/

inductive Phase where
  | begun
  | ticked
  | drawn
  deriving DecidableEq, Repr

/-- The application may be in this state at this point of a round. -/
inductive Session (runner : Runner) (config : Config) (theme : Theme) : Phase → App → Prop
  | start : Session runner config theme .begun (App.start runner (.initial config theme))
  | tick {app : App} {revisions : RevisionList} {changed : Bool}
      (before : Session runner config theme .begun app)
      (pumps : app.revisions.Pumps revisions changed) :
      Session runner config theme .ticked (app.pumped revisions changed)
  | draw {app : App} (before : Session runner config theme .ticked app) (width height : Nat) :
      Session runner config theme .drawn (app.draw width height).1
  | key {app : App} (before : Session runner config theme .drawn app) (key : Key) :
      Session runner config theme .begun (app.handleKey runner key)
  | mouse {app : App} (before : Session runner config theme .drawn app) (event : MouseEvent) :
      Session runner config theme .begun (app.handleMouse event)
  | noEvent {app : App} (before : Session runner config theme .drawn app) :
      Session runner config theme .begun app
  | produce {phase : Phase} {app : App} (before : Session runner config theme phase app) :
      Session runner config theme phase app.produce
  | expireToast {phase : Phase} {app : App} (before : Session runner config theme phase app) :
      Session runner config theme phase app.expireToast

namespace Session

variable {runner : Runner} {config : Config} {theme : Theme} {app : App}

theorem tick_app (before : Session runner config theme .begun app) :
    Session runner config theme .ticked app.tick := by
  rw [app.tick_eq_pumped]
  exact .tick before app.revisions.pumps_pump

theorem tick_idle (before : Session runner config theme .begun app)
    (idle : app.revisions.turn false = (app.revisions, false)) :
    Session runner config theme .ticked app :=
  .tick before (.rest idle)

theorem produces {phase : Phase} (before : Session runner config theme phase app) (n : Nat) :
    Session runner config theme phase (App.produce^[n] app) := by
  induction n generalizing app with
  | zero => exact before
  | succ n ih => exact ih (.produce before)

theorem tick_turn (before : Session runner config theme .begun app)
    (changed : (app.revisions.turn false).2 = true)
    (idle : ((app.revisions.turn false).1.turn false).2 = false) :
    Session runner config theme .ticked
      (app.pumped ((app.revisions.turn false).1.turn false).1 true) :=
  .tick before (.more (Prod.ext rfl changed) (.rest (Prod.ext rfl idle)))

end Session

def App.keyRound (runner : Runner) (app : App) (code : KeyCode) : App :=
  (app.draw 80 24).1.handleKey runner (.plain code)

theorem Session.keyRound {runner : Runner} {config : Config} {theme : Theme} {app : App}
    (h : Session runner config theme .begun app) (idle : app.revisions.stream = none)
    (code : KeyCode) : Session runner config theme .begun (app.keyRound runner code) :=
  .key (.draw (.tick_idle h (RevisionList.turn_of_stream_none idle false)) 80 24) (.plain code)

def App.mouseRound (app : App) (event : MouseEvent) : App :=
  (app.draw 80 24).1.handleMouse event

theorem Session.mouseRound {runner : Runner} {config : Config} {theme : Theme} {app : App}
    (h : Session runner config theme .begun app) (idle : app.revisions.stream = none)
    (event : MouseEvent) : Session runner config theme .begun (app.mouseRound event) :=
  .mouse (.draw (.tick_idle h (RevisionList.turn_of_stream_none idle false)) 80 24) event

def App.started (config : Config) (theme : Theme) (lines : List Line) : App :=
  { App.initial config theme with
    revisions :=
      { RevisionList.initial config.batchSize with
        stream := some ⟨config.batchSize, .start lines, [.requestMore], none, false⟩
        awaiting := true
        replaceNext := true }
    calls := [.stream config.logCommand] }

theorem Session.started {runner : Runner} {config : Config} {source : Source}
    (h : runner.stream [] config.logCommand = .ok source) (theme : Theme) :
    Session runner config theme .begun (.started config theme source.transcript.lines) := by
  have hanswer : runner.stream (App.initial config theme).calls
      (App.initial config theme).config.logCommand = .ok source := h
  have hstart : App.start runner (.initial config theme) =
      .started config theme source.transcript.lines := by
    simp only [App.start, App.reloadRevisions, hanswer]
    rfl
  exact hstart ▸ .start

/-! ## Steps -/

inductive Happening where
  | tick
  | draw (width height : Nat)
  | key (key : Key)
  | mouse (event : MouseEvent)
  | noEvent
  | produce
  | expireToast
  deriving DecidableEq, Repr

/-- What can happen next in a session, with the points before and after it. -/
inductive Step (runner : Runner) : Phase × App → Happening → Phase × App → Prop
  | tick {app : App} {revisions : RevisionList} {changed : Bool}
      (pumps : app.revisions.Pumps revisions changed) :
      Step runner (.begun, app) .tick (.ticked, app.pumped revisions changed)
  | draw (app : App) (width height : Nat) :
      Step runner (.ticked, app) (.draw width height) (.drawn, (app.draw width height).1)
  | key (app : App) (key : Key) :
      Step runner (.drawn, app) (.key key) (.begun, app.handleKey runner key)
  | mouse (app : App) (event : MouseEvent) :
      Step runner (.drawn, app) (.mouse event) (.begun, app.handleMouse event)
  | noEvent (app : App) : Step runner (.drawn, app) .noEvent (.begun, app)
  | produce (phase : Phase) (app : App) : Step runner (phase, app) .produce (phase, app.produce)
  | expireToast (phase : Phase) (app : App) :
      Step runner (phase, app) .expireToast (phase, app.expireToast)

theorem Step.of_key {runner : Runner} {p q : Phase × App} {key : Key}
    (h : Step runner p (.key key) q) :
    p.1 = .drawn ∧ q = (.begun, p.2.handleKey runner key) := by
  cases h
  exact ⟨rfl, rfl⟩

def Leads (runner : Runner) : Phase × App → Phase × App → Prop :=
  Relation.ReflTransGen fun p q => ∃ happening, Step runner p happening q

theorem Session.step {runner : Runner} {config : Config} {theme : Theme} {p q : Phase × App}
    {happening : Happening} (h : Session runner config theme p.1 p.2)
    (hstep : Step runner p happening q) : Session runner config theme q.1 q.2 := by
  cases hstep with
  | tick pumps => exact .tick h pumps
  | draw app width height => exact .draw h width height
  | key app key => exact .key h key
  | mouse app event => exact .mouse h event
  | noEvent app => exact .noEvent h
  | produce phase app => exact .produce h
  | expireToast phase app => exact .expireToast h

theorem Session.of_steps {runner : Runner} {config : Config} {theme : Theme}
    {P : Phase × App → Prop} (start : P (.begun, App.start runner (.initial config theme)))
    (step : ∀ {p q happening}, Session runner config theme p.1 p.2 → P p →
      Step runner p happening q → P q)
    {phase : Phase} {app : App} (h : Session runner config theme phase app) : P (phase, app) := by
  induction h with
  | start => exact start
  | tick before pumps ih => exact step before ih (.tick pumps)
  | draw before width height ih => exact step before ih (.draw _ width height)
  | key before key ih => exact step before ih (.key _ key)
  | mouse before event ih => exact step before ih (.mouse _ event)
  | noEvent before ih => exact step before ih (.noEvent _)
  | produce before ih => exact step before ih (.produce _ _)
  | expireToast before ih => exact step before ih (.expireToast _ _)

theorem session_iff_leads {runner : Runner} {config : Config} {theme : Theme} {phase : Phase}
    {app : App} :
    Session runner config theme phase app ↔
      Leads runner (.begun, App.start runner (.initial config theme)) (phase, app) := by
  constructor
  · intro h
    exact h.of_steps .refl fun _ hleads hstep => hleads.tail ⟨_, hstep⟩
  · intro h
    suffices ∀ q, Leads runner (.begun, App.start runner (.initial config theme)) q →
        Session runner config theme q.1 q.2 from this _ h
    intro q hq
    induction hq with
    | refl => exact .start
    | tail _ hstep ih =>
        obtain ⟨happening, hstep⟩ := hstep
        exact ih.step hstep

end RevisionGraph
