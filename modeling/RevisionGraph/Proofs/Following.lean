import RevisionGraph.Proofs.ListRuns
import RevisionGraph.Proofs.Naming

/-!
# Operations follow the selection

An operation keeps a copy of the revision that it would act on. `App.Carries` and `App.Answered` say
all that can become of an operation in one step of a session. From them it follows that the copy is
the selected revision, with one exception: a creation that goes back from its name to the choice of a
revision keeps the revision that the name was for until it is told of another one.
-/

namespace RevisionGraph

/-! ## What an operation would act on -/

namespace Operation

def target : Operation → Option Commit
  | .batch b => b.current
  | .move m => m.target
  | .create c => c.target

variable {runner : Runner} {o : Operation} {checked : CheckedSet} {calls : Calls} {key : Key}

@[simp] theorem isEditing_setSelected (o : Operation) (selected : Option Commit) :
    (o.setSelected selected).isEditing = o.isEditing := by
  cases o with
  | batch b => rfl
  | move m => rfl
  | create c =>
      simp only [setSelected, BookmarkCreation.setSelected]
      split <;> rfl

theorem target_setSelected (o : Operation) (selected : Option Commit) :
    (o.setSelected selected).target = if o.isEditing then o.target else selected := by
  cases o with
  | batch b => rfl
  | move m => rfl
  | create c =>
      obtain ⟨stage, target, input⟩ := c
      cases stage <;> rfl

theorem target_handleKey (runner : Runner) (o : Operation) (checked : CheckedSet) (calls : Calls)
    (key : Key) : (o.handleKey runner checked calls key).operation.target = o.target := by
  cases o with
  | batch b => rfl
  | move m => rfl
  | create c =>
      simp only [handleKey, BookmarkCreation.handleKey]
      split
      · rfl
      · split <;> rfl
      · rfl
      · rfl
      · rfl
      · rfl

inductive Response (o : Operation) (key : Key) : Operation → Prop
  | stay : Response o key o
  | edit {p : Operation} (editing : p.isEditing = true) : Response o key p
  | stepBack {entered c : BookmarkCreation} (operation : o = .create entered)
      (stage : entered.stage = .entering) (esc : key.code = .esc) (back : c.stage = .selecting)
      (target : c.target = entered.target) : Response o key (.create c)

theorem response_handleKey (runner : Runner) (o : Operation) (checked : CheckedSet) (calls : Calls)
    (key : Key) : o.Response key (o.handleKey runner checked calls key).operation := by
  cases o with
  | batch b => exact .stay
  | move m => exact .stay
  | create c =>
      simp only [handleKey, BookmarkCreation.handleKey]
      split
      · exact .stay
      · split
        · exact .stay
        · exact .edit rfl
      · exact .stay
      · next hstage hesc => exact .stepBack rfl hstage hesc rfl rfl
      · exact .stay
      · next hstage _ _ =>
          apply Response.edit
          simp [isEditing, hstage]

theorem operation_handleKey_of_effect {e : Effect}
    (h : (o.handleKey runner checked calls key).outcome = .effect e) :
    (o.handleKey runner checked calls key).operation = o := by
  cases o with
  | batch b => rfl
  | move m => rfl
  | create c =>
      simp only [handleKey, BookmarkCreation.handleKey] at h ⊢
      split at h
      · rfl
      · split at h <;> contradiction
      · contradiction
      · contradiction
      · rfl
      · contradiction

end Operation

/-! ## The selection -/

namespace RevisionList

variable {v w : RevisionList}

theorem selected_requestMore (v : RevisionList) : v.requestMore.1.selected = v.selected := by
  unfold requestMore
  split
  · rfl
  · split <;> rfl

theorem selected_draw (v : RevisionList) (area : Rect) (theme : Theme)
    (operation : Option Operation) (follow : Bool) (targets : Targets ScreenTarget) :
    (v.draw area theme operation follow targets).1.selected = v.selected := by
  unfold draw
  split <;> rfl

theorem selected_toggleRange (v : RevisionList) (first last : String) :
    (v.toggleRange first last).1.selected = v.selected := by
  unfold toggleRange
  split <;> rfl

theorem selected_eq_none_iff (h : v.cursor ≤ v.lastIndex) : v.selected = none ↔ v.rows = [] := by
  unfold lastIndex at h
  simp only [selected, Option.map_eq_none_iff, List.getElem?_eq_none_iff]
  rw [← List.length_eq_zero_iff]
  omega

theorem turn_of_unchanged (h : v.turn false = (w, false)) : w = v := by
  simp only [turn, takeIn, Bool.false_and, Bool.false_eq_true, if_false] at h
  split at h
  · exact (Prod.mk.inj h).1.symm
  · exact (Prod.mk.inj h).1.symm
  · simp at h
  · simp at h

theorem Pumps.selected_of_unchanged {changed : Bool} (h : v.Pumps w changed)
    (hchanged : changed = false) : w.selected = v.selected := by
  induction h with
  | rest turn => rw [turn_of_unchanged turn]
  | more turn later => contradiction
  | produce later ih => exact ih hchanged

end RevisionList

/-! ## What becomes of an operation -/

namespace App

/-- The operation stays as it is and so does the selection, or the operation has been told of the
selection, or there is none. An operation that is told may have been at hand before or be a new
one. -/
inductive Carries (app after : App) : Prop
  | rests (operation : after.operation = app.operation)
      (selected : after.revisions.selected = app.revisions.selected)
  | told {o : Operation} (origin : app.operation = some o ∨ o.isEditing = false)
      (operation : after.operation = some (o.setSelected after.revisions.selected))
  | ended (operation : after.operation = none)

structure Answered (runner : Runner) (key : Key) (o : Operation) (app after : App) : Prop where
  hidden : app.showsHelp = false
  asked : app.operation = some o
  operation :
    after.operation = some (o.handleKey runner app.revisions.checked app.calls key).operation
  selected : after.revisions.selected = app.revisions.selected

variable {runner : Runner} {app before after : App} {key : Key}

namespace Carries

theorem trans_rests (h : app.Carries before) (hoperation : after.operation = before.operation)
    (hselected : after.revisions.selected = before.revisions.selected) : app.Carries after := by
  cases h with
  | rests operation selected =>
      exact .rests (hoperation.trans operation) (hselected.trans selected)
  | told origin operation =>
      apply told origin
      rw [hoperation, operation, hselected]
  | ended operation => exact .ended (hoperation.trans operation)

theorem of_notified (hoperation : after.operation =
    app.operation.map (·.setSelected after.revisions.selected)) : app.Carries after := by
  cases happ : app.operation with
  | none =>
      apply ended
      rw [hoperation, happ]
      rfl
  | some o =>
      apply told (.inl happ)
      rw [hoperation, happ]
      rfl

theorem withCursor (hoperation : before.operation = app.operation) (index : Nat) :
    app.Carries (before.withCursor (app.revisions.select index)) := by
  simp only [App.withCursor]
  split
  · apply of_notified
    simp only [cursorMoved, App.requestMore, notifySelection, hoperation,
      RevisionList.selected_requestMore]
  · next hunmoved =>
      constructor
      · exact hoperation
      · exact congrArg RevisionList.selected
          (RevisionList.select_of_unmoved (Bool.eq_false_iff.mpr hunmoved))

end Carries

/-! ## Messages and effects -/

theorem selected_reloadRevisions (app : App) (runner : Runner) (select : Option String) :
    (app.reloadRevisions runner select).revisions.selected = app.revisions.selected := by
  simp only [reloadRevisions]
  split <;> rfl

namespace Carries

theorem reloadRevisions (h : app.Carries before) (select : Option String) :
    app.Carries (before.reloadRevisions runner select) :=
  h.trans_rests (operation_reloadRevisions ..) (selected_reloadRevisions ..)

theorem loadBookmarks (h : app.Carries before) : app.Carries (before.loadBookmarks runner) := by
  apply h.trans_rests
  · apply operation_loadBookmarks
  · rw [revisions_loadBookmarks]

theorem startOperation (app before : App) {o : Operation} (ho : o.isEditing = false) :
    app.Carries (before.startOperation o) :=
  .told (.inr ho) rfl

end Carries

theorem kept_carries (runner : Runner) (app : App) : Kept runner app.Carries where
  recordCall before command h := h.trans_rests rfl rfl
  update before m h := by
    cases m with
    | refresh => exact h.reloadRevisions none
    | refreshAndSelect revision => exact h.reloadRevisions (some revision)
    | reloadBookmarks => exact h.loadBookmarks
    | toggleRange first last =>
        exact h.trans_rests rfl (before.revisions.selected_toggleRange first last)
    | startMoveMode bookmark => exact .startOperation app _ rfl
    | startCreateMode => exact .startOperation app _ rfl
    | endMoveMode => exact h.trans_rests rfl rfl
    | endCreateMode => exact h.trans_rests rfl rfl
    | closeOperation => exact .ended (operation_closeOperation before runner)
    | updateRevset revset =>
        apply Carries.reloadRevisions
        exact h.trans_rests rfl rfl
    | toast text => exact h.trans_rests rfl rfl

/-! ## Keys -/

theorem carries_panelKey (app : App) (runner : Runner) (key : Key) :
    app.Carries (app.panelKey runner key).1 := by
  have hpanel : app.Carries { app with
      panel := (app.panel.handleKey app.config.remote key).1 } := .rests rfl rfl
  have houtcome := (kept_carries runner app).applyOutcome hpanel
    (app.panel.handleKey app.config.remote key).2
  simp only [panelKey]
  split
  · exact houtcome
  · exact houtcome.trans_rests rfl rfl

theorem carries_globalKey (app : App) (runner : Runner) (key : Key) :
    app.Carries (app.globalKey runner key).1 := by
  have hsame : app.Carries app := .rests rfl rfl
  have hresponse := app.response_globalKey runner key
  generalize app.globalKey runner key = r at hresponse ⊢
  cases hresponse with
  | refreshes => exact hsame.reloadRevisions none
  | showsPanel =>
      apply Carries.loadBookmarks
      exact .rests rfl rfl
  | quits | showsHelp | hidesPanel | focusesPanel | focusesLog | unchecks => exact .rests rfl rfl
  | passes => exact hsame

theorem carries_revisionsKey (app : App) (key : Key) : app.Carries (app.revisionsKey key) := by
  have hresponse := app.response_revisionsKey key
  generalize app.revisionsKey key = after at hresponse
  cases hresponse with
  | moves index => exact .withCursor rfl index
  | startsBatch => exact .startOperation app app rfl
  | toggles | stays => exact .rests rfl rfl

theorem carries_operationKey (hidden : app.showsHelp = false) (runner : Runner) (key : Key) :
    app.Carries (app.operationKey runner key).1 ∨
      ∃ o, Answered runner key o app (app.operationKey runner key).1 := by
  cases hoperation : app.operation with
  | none =>
      simp only [operationKey, hoperation]
      exact .inl (.rests rfl rfl)
  | some o =>
      simp only [operationKey, hoperation]
      cases houtcome : (o.handleKey runner app.revisions.checked app.calls key).outcome with
      | pass => exact .inr ⟨o, hidden, hoperation, rfl, rfl⟩
      | consumed => exact .inr ⟨o, hidden, hoperation, rfl, rfl⟩
      | effect e =>
          left
          have hanswered : app.Carries
              (app.answered (o.handleKey runner app.revisions.checked app.calls key)) := by
            constructor
            · rw [hoperation]
              exact congrArg some (Operation.operation_handleKey_of_effect houtcome)
            · rfl
          exact (kept_carries runner app).applyEffect hanswered e

theorem carries_handleKey (app : App) (runner : Runner) (key : Key) :
    app.Carries (app.handleKey runner key) ∨
      ∃ o, Answered runner key o app (app.handleKey runner key) := by
  have hroute := app.route_handleKey runner key
  generalize app.handleKey runner key = after at hroute
  cases hroute with
  | quits => exact .inl (.rests rfl rfl)
  | closesHelp => exact .inl (.rests rfl rfl)
  | underHelp => exact .inl (.rests rfl rfl)
  | operation hidden => exact carries_operationKey hidden runner key
  | panel => exact .inl (app.carries_panelKey runner key)
  | everywhere => exact .inl (app.carries_globalKey runner key)
  | log => exact .inl (app.carries_revisionsKey key)

/-! ## Everything else that happens -/

theorem carries_handleMouse (app : App) (event : MouseEvent) :
    app.Carries (app.handleMouse event) := by
  have hresponse := app.response_handleMouse event
  generalize app.handleMouse event = after at hresponse
  cases hresponse with
  | pressesRevision index => exact .withCursor (by rfl) index
  | drags index => exact .withCursor rfl index
  | scrollsLog => exact .rests rfl (RevisionList.selected_requestMore _)
  | pressesBookmark | releases | scrollsPanel | stays => exact .rests rfl rfl

theorem carries_draw (app : App) (width height : Nat) : app.Carries (app.draw width height).1 := by
  obtain ⟨_, _, _, hdraw⟩ := app.draw_eq width height
  rw [hdraw]
  exact .rests rfl (RevisionList.selected_draw ..)

theorem carries_pumped (app : App) {revisions : RevisionList} {changed : Bool}
    (pumps : app.revisions.Pumps revisions changed) : app.Carries (app.pumped revisions changed) := by
  cases changed with
  | true =>
      apply Carries.of_notified
      simp only [pumped, if_true, rowsChanged, App.requestMore, notifySelection,
        RevisionList.selected_requestMore]
  | false => exact .rests rfl (pumps.selected_of_unchanged rfl)

end App

variable {runner : Runner} {config : Config} {theme : Theme} {phase : Phase} {app : App}

theorem Step.carries {p q : Phase × App} {happening : Happening} (h : Step runner p happening q) :
    p.2.Carries q.2 ∨
      ∃ key o, happening = .key key ∧ App.Answered runner key o p.2 q.2 := by
  cases h with
  | tick pumps => exact .inl (App.carries_pumped _ pumps)
  | draw app width height => exact .inl (app.carries_draw width height)
  | key app key =>
      apply (app.carries_handleKey runner key).imp_right
      rintro ⟨o, hanswered⟩
      exact ⟨key, o, rfl, hanswered⟩
  | mouse app event => exact .inl (app.carries_handleMouse event)
  | noEvent app => exact .inl (.rests rfl rfl)
  | produce phase app => exact .inl (.rests rfl rfl)
  | expireToast phase app => exact .inl (.rests rfl rfl)

/-! ## Following -/

/-- Unless text is being entered, the operation at hand would act on the selected revision. -/
def App.Follows (app : App) : Prop :=
  ∀ o, app.operation = some o → o.isEditing = false → o.target = app.revisions.selected

def Quiet (runner : Runner) (p q : Phase × App) : Prop :=
  (∃ happening, Step runner p happening q) ∧ q.2.operation = p.2.operation ∧
    q.2.revisions.selected = p.2.revisions.selected

/-- Esc has taken a creation back from its name, which was for another revision than the selected
one, and neither the creation nor the selection has changed since. -/
def SteppedBack (runner : Runner) (config : Config) (theme : Theme) (q : Phase × App) : Prop :=
  ∃ (pressed : App) (key : Key) (c : BookmarkCreation),
    Session runner config theme .drawn pressed ∧ pressed.showsHelp = false ∧
      pressed.operation = some (.create c) ∧ c.stage = .entering ∧ key.code = .esc ∧
      c.target ≠ pressed.revisions.selected ∧
      Relation.ReflTransGen (Quiet runner) (.begun, pressed.handleKey runner key) q

variable {p q : Phase × App} {happening : Happening}

namespace App

variable {after : App} {o : Operation} {c : BookmarkCreation}

theorem follows_of_eq (hoperation : after.operation = app.operation)
    (hselected : after.revisions.selected = app.revisions.selected) (h : app.Follows) :
    after.Follows := by
  intro o ho hediting
  rw [hselected]
  exact h o (hoperation ▸ ho) hediting

theorem follows_of_told
    (h : app.operation = some (o.setSelected app.revisions.selected)) : app.Follows := by
  intro p hp hediting
  obtain rfl := Option.some.inj (h.symm.trans hp)
  rw [Operation.isEditing_setSelected] at hediting
  rw [Operation.target_setSelected, hediting, if_neg Bool.false_ne_true]

theorem follows_of_editing (h : app.operation = some o) (hediting : o.isEditing = true) :
    app.Follows := by
  intro p hp hnot
  obtain rfl := Option.some.inj (h.symm.trans hp)
  rw [hediting] at hnot
  contradiction

theorem handleKey_esc (runner : Runner) {key : Key} (hidden : app.showsHelp = false)
    (hoperation : app.operation = some (.create c)) (hstage : c.stage = .entering)
    (hesc : key.code = .esc) :
    (app.handleKey runner key).operation =
        some (.create { c with stage := .selecting, input := c.input.clear }) ∧
      (app.handleKey runner key).revisions.selected = app.revisions.selected := by
  have hediting : app.isEditing = true := by simp [isEditing, hoperation, Operation.isEditing, hstage]
  simp [handleKey, hesc, hidden, hediting, operationKey, hoperation, Operation.handleKey,
    BookmarkCreation.handleKey, hstage, applyOutcome, RevisionList.selected]

end App

theorem SteppedBack.target_ne_selected (h : SteppedBack runner config theme q) :
    ∃ c, q.2.operation = some (.create c) ∧ c.stage = .selecting ∧
      c.target ≠ q.2.revisions.selected := by
  obtain ⟨pressed, key, c, -, hidden, hoperation, hstage, hesc, hother, hquiet⟩ := h
  obtain ⟨hback, hselected⟩ := App.handleKey_esc runner hidden hoperation hstage hesc
  induction hquiet with
  | refl =>
      refine ⟨_, hback, rfl, ?_⟩
      rw [hselected]
      exact hother
  | tail _ hstep ih =>
      obtain ⟨-, hsame, hstays⟩ := hstep
      rw [hsame, hstays]
      exact ih

theorem follows_or_steppedBack_of_quiet (hquiet : Quiet runner p q)
    (h : p.2.Follows ∨ SteppedBack runner config theme p) :
    q.2.Follows ∨ SteppedBack runner config theme q := by
  rcases h with hfollows | ⟨pressed, key, c, hpressed, hidden, hoperation, hstage, hesc, hother, hsince⟩
  · exact .inl (App.follows_of_eq hquiet.2.1 hquiet.2.2 hfollows)
  · exact .inr ⟨pressed, key, c, hpressed, hidden, hoperation, hstage, hesc, hother,
      hsince.tail hquiet⟩

theorem Step.follows_or_steppedBack (hstep : Step runner p happening q)
    (hsession : Session runner config theme p.1 p.2)
    (h : p.2.Follows ∨ SteppedBack runner config theme p) :
    q.2.Follows ∨ SteppedBack runner config theme q := by
  rcases hstep.carries with hcarries | ⟨key, o, rfl, hanswered⟩
  · cases hcarries with
    | rests operation selected =>
        exact follows_or_steppedBack_of_quiet ⟨⟨happening, hstep⟩, operation, selected⟩ h
    | told origin operation => exact .inl (App.follows_of_told operation)
    | ended operation =>
        left
        intro o ho
        rw [operation] at ho
        contradiction
  · have hresponse := o.response_handleKey runner p.2.revisions.checked p.2.calls key
    have hafter := hanswered.operation
    generalize (o.handleKey runner p.2.revisions.checked p.2.calls key).operation = after
      at hresponse hafter
    cases hresponse with
    | stay =>
        have hsame := hafter.trans hanswered.asked.symm
        exact follows_or_steppedBack_of_quiet ⟨⟨_, hstep⟩, hsame, hanswered.selected⟩ h
    | edit editing => exact .inl (App.follows_of_editing hafter editing)
    | @stepBack entered c operation stage esc back target =>
        obtain ⟨hdrawn, rfl⟩ := hstep.of_key
        by_cases hsame : entered.target = p.2.revisions.selected
        · left
          intro o ho _
          obtain rfl := Option.some.inj (hafter.symm.trans ho)
          rw [hanswered.selected, ← hsame]
          exact target
        · right
          exact ⟨p.2, key, entered, hdrawn ▸ hsession, hanswered.hidden,
            operation ▸ hanswered.asked, stage, esc, hsame, .refl⟩

theorem Session.follows_or_steppedBack (h : Session runner config theme phase app) :
    app.Follows ∨ SteppedBack runner config theme (phase, app) := by
  have hstart : (App.start runner (.initial config theme)).Follows := by
    intro o ho
    rw [App.start, App.operation_reloadRevisions] at ho
    contradiction
  exact h.of_steps (.inl hstart) fun hsession ih hstep => hstep.follows_or_steppedBack hsession ih

/-- An operation that is not entering text acts on the revision under the cursor, except for a
creation that has been taken back from the name of another revision and not been told since. -/
theorem target_ne_selected_iff {o : Operation} (h : Session runner config theme phase app)
    (hoperation : app.operation = some o) (hediting : o.isEditing = false) :
    (app.revisions.selected = none ↔ app.revisions.rows = []) ∧
      (o.target ≠ app.revisions.selected ↔ SteppedBack runner config theme (phase, app)) ∧
      (SteppedBack runner config theme (phase, app) → ∃ c, o = .create c ∧ c.stage = .selecting) := by
  refine ⟨RevisionList.selected_eq_none_iff h.cursor_le, ⟨?_, ?_⟩, ?_⟩
  · intro hother
    exact h.follows_or_steppedBack.resolve_left fun hfollows => hother (hfollows o hoperation hediting)
  · intro hback
    obtain ⟨c, hc, -, hother⟩ := hback.target_ne_selected
    obtain rfl := Option.some.inj (hc.symm.trans hoperation)
    exact hother
  · intro hback
    obtain ⟨c, hc, hstage, -⟩ := hback.target_ne_selected
    exact ⟨c, Option.some.inj (hoperation.symm.trans hc), hstage⟩

/-! A log of two rows, the name of a bookmark on the first one, and the mouse on the second. -/

def twoRows : Source :=
  [.bytes (Text.Utf8.bytes "* \x1B[1mk\x1B[m x\n* \x1B[1mm\x1B[m y\n")]

def rowLine (changeId rest : String) : Line :=
  [.plain "* ", ⟨changeId, Style.plain.withModifier .bold⟩, .plain rest]

def twoRowsRunner : Runner :=
  Script.runner ⟨[.ok twoRows], []⟩

theorem transcript_twoRows :
    twoRows.transcript = ⟨[rowLine "k" " x", rowLine "m" " y"], none⟩ := by
  rw [Source.transcript_eq_ofChunks, Source.chunks_eq]
  decide +kernel

/-- The panel is shown, `c` and Enter are pressed, the button moves from the first row to the second,
and Esc is pressed. The button is held from before Enter on, since a click is ignored while a name is
entered. -/
def draggedApp : App :=
  let started := App.started .initial ⟨none⟩ [rowLine "k" " x", rowLine "m" " y"]
  let read := started.produce.produce.produce.produce.produce
  let loaded := read.pumped ((read.revisions.turn false).1.turn false).1 true
  let creating := (loaded.keyRound twoRowsRunner (.char 'b')).keyRound twoRowsRunner (.char 'c')
  let pressed := creating.mouseRound ⟨.down .left, 0, 0⟩
  let dragged := (pressed.keyRound twoRowsRunner .enter).mouseRound ⟨.drag .left, 0, 2⟩
  dragged.keyRound twoRowsRunner .esc

theorem session_of_draggedApp : Session twoRowsRunner .initial ⟨none⟩ .begun draggedApp := by
  have hstream : twoRowsRunner.stream [] Config.initial.logCommand = .ok twoRows := rfl
  have started := Session.started hstream ⟨none⟩
  rw [transcript_twoRows] at started
  have loaded := started.produce.produce.produce.produce.produce.tick_turn
    (by decide +kernel) (by decide +kernel)
  have shown := Session.key (.draw loaded 80 24) (.plain (.char 'b'))
  have creating := shown.keyRound (by decide +kernel) (.char 'c')
  have pressed := creating.mouseRound (by decide +kernel) ⟨.down .left, 0, 0⟩
  have entering := pressed.keyRound (by decide +kernel) .enter
  have dragged := entering.mouseRound (by decide +kernel) ⟨.drag .left, 0, 2⟩
  exact dragged.keyRound (by decide +kernel) .esc

theorem operation_draggedApp :
    draggedApp.operation = some (.create ⟨.selecting, some ⟨"k", none, false, false⟩, .empty⟩) := by
  decide +kernel

theorem selected_draggedApp :
    draggedApp.revisions.selected = some ⟨"m", none, false, false⟩ := by
  decide +kernel

theorem target_ne_selected_iff_of_drag :
    Session twoRowsRunner .initial ⟨none⟩ .begun draggedApp ∧
      SteppedBack twoRowsRunner .initial ⟨none⟩ (.begun, draggedApp) := by
  obtain ⟨-, hback, -⟩ := target_ne_selected_iff session_of_draggedApp operation_draggedApp rfl
  refine ⟨session_of_draggedApp, hback.mp ?_⟩
  rw [selected_draggedApp]
  decide

/-- The creation would be on the first row while the cursor is on the second. -/
theorem creation_target_differs_from_selected :
    ∃ c, Session twoRowsRunner .initial ⟨none⟩ .begun draggedApp ∧
      draggedApp.operation = some (.create c) ∧ c.stage = .selecting ∧
      draggedApp.revisions.cursor = 1 ∧ c.target = some ⟨"k", none, false, false⟩ ∧
      draggedApp.revisions.selected = some ⟨"m", none, false, false⟩ := by
  refine ⟨_, session_of_draggedApp, operation_draggedApp, rfl, ?_, rfl, selected_draggedApp⟩
  decide +kernel

end RevisionGraph
