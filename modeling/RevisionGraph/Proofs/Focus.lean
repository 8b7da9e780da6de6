import RevisionGraph.Proofs.Responses
import RevisionGraph.Proofs.Session
import RevisionGraph.Proofs.Standing
import RevisionGraph.Runner.Script

/-!
# Focus and mode

In every session the application and its panel agree on the focus and on the mode, and while a
bookmark is moved or created the panel stays up beside the log, which has the focus.
-/

namespace RevisionGraph

/-! ## Standings in which all agree -/

namespace Standing

def setVisible (s : Standing) (visible : Bool) : Standing :=
  { s with
    focus := if visible then .bookmarks else .revisions
    visible := visible
    wantsFocus := visible }

def leaveHidden (s : Standing) : Standing :=
  if s.visible then s else { s with focus := .revisions }

/-- Both say the same, and beside an operation of its own the panel stays up without the focus. -/
structure Coherent (s : Standing) : Prop where
  focus : s.focus = .bookmarks ↔ s.visible = true ∧ s.wantsFocus = true
  mode : s.mode = s.operationMode.getD .browse
  aside : s.mode ≠ .browse → s.visible = true ∧ s.wantsFocus = false
  target : s.strayTarget = false

namespace Coherent

variable {s : Standing}

theorem focusLog (h : s.Coherent) : s.focusLog.Coherent where
  focus := by simp [Standing.focusLog]
  mode := h.mode
  aside hmode := ⟨(h.aside hmode).1, rfl⟩
  target := h.target

theorem startMode (hvisible : s.visible = true) (mode : PanelMode) :
    (s.startMode mode).Coherent where
  focus := by simp [Standing.startMode, Standing.focusLog]
  mode := rfl
  aside _ := ⟨hvisible, rfl⟩
  target := rfl

theorem focusPanel (h : s.Coherent) (hvisible : s.visible = true) (hmode : s.mode = .browse) :
    { s with focus := .bookmarks, wantsFocus := true }.Coherent where
  focus := by simp [hvisible]
  mode := h.mode
  aside hother := absurd hmode hother
  target := h.target

theorem setVisible (h : s.Coherent) (hmode : s.mode = .browse) (visible : Bool) :
    (s.setVisible visible).Coherent where
  focus := by cases visible <;> simp [Standing.setVisible]
  mode := h.mode
  aside hother := absurd hmode hother
  target := h.target

theorem leaveHidden (h : s.Coherent) : s.leaveHidden.Coherent := by
  simp only [Standing.leaveHidden]
  split
  · exact h
  · next hhidden =>
      exact { focus := by simp [hhidden], mode := h.mode, aside := h.aside, target := h.target }

theorem mode_eq_browse (h : s.Coherent) (hfocus : s.focus = .bookmarks) : s.mode = .browse := by
  by_contra hmode
  have hwants := (h.focus.mp hfocus).2
  rw [(h.aside hmode).2] at hwants
  contradiction

theorem focus_eq_revisions (h : s.Coherent) (hmode : s.mode ≠ .browse) : s.focus = .revisions := by
  cases hfocus : s.focus with
  | revisions => rfl
  | bookmarks => exact absurd (h.mode_eq_browse hfocus) hmode

theorem closeOperation (h : s.Coherent) (hfocus : s.focus = .revisions) :
    s.closeOperation.Coherent := by
  have hmode := h.mode
  cases hoperation : s.operationMode with
  | none =>
      simp only [Standing.closeOperation, hoperation]
      exact h
  | some mode =>
      rw [hoperation, Option.getD_some] at hmode
      simp only [Standing.closeOperation, hoperation]
      split
      · next hbrowse =>
          exact { focus := by rw [← h.focus, hfocus], mode := hmode.trans hbrowse,
                  aside := h.aside, target := h.target }
      · next hother =>
          have hvisible := (h.aside (hmode ▸ hother)).1
          simp only [endMode, focusPanelIfVisible, hvisible, if_true]
          exact { focus := by simp, mode := rfl, aside := fun hmode => absurd rfl hmode,
                  target := rfl }

end Coherent

end Standing

/-! ## Keys -/

namespace BookmarkPanel

inductive Response (p : BookmarkPanel) (key : Key) : BookmarkPanel × Outcome → Prop
  | pass (notEnter : key.code ≠ .enter) (notEsc : key.code ≠ .esc) : Response p key (p, .pass)
  | consume (cursor : Nat) : Response p key ({ p with cursor := cursor }, .consumed)
  | hide : Response p key (p.toggleVisible, .consumed)
  | act {e : Effect} (quiet : e.IsQuiet) : Response p key (p, .effect e)
  | showRevset (revset : String) : Response p key (p, .effect (.emit (.updateRevset revset)))
  | startMoving (bookmark : String) :
      Response p key (p.startMode .moving none, .effect (.emit (.startMoveMode bookmark)))
  | startCreating : Response p key (p.startMode .creating none, .effect (.emit .startCreateMode))

theorem response_withBookmark {p : BookmarkPanel} {key : Key} {bookmark : Option Bookmark}
    {effect : Bookmark → Effect} (h : ∀ b, Response p key (p, .effect (effect b))) :
    Response p key (p, withBookmark bookmark effect) := by
  cases bookmark with
  | none => exact .consume p.cursor
  | some b => exact h b

theorem isQuiet_reloading (command : Command) : (reloading command).IsQuiet := by
  simp [reloading, Effect.IsQuiet, Effect.messages, Message.IsQuiet, Standing.update]

theorem isQuiet_new (revisions : List String) :
    (Effect.run (.new revisions) [.refreshAndSelect "@"]).IsQuiet := by
  simp [Effect.IsQuiet, Effect.messages, Message.IsQuiet, Standing.update]

theorem response_bookmarkKey (p : BookmarkPanel) (remote : String) {key : Key} {c : Char}
    (hkey : key.code = .char c) : Response p key (p, p.bookmarkKey remote c) := by
  simp only [bookmarkKey]
  split
  · exact response_withBookmark fun b => .act (isQuiet_new [b.name])
  · exact response_withBookmark fun b => .act (isQuiet_reloading _)
  · exact response_withBookmark fun b => .act (isQuiet_reloading _)
  · exact response_withBookmark fun b => .act (isQuiet_reloading _)
  · split
    · exact .consume p.cursor
    · exact .act (isQuiet_reloading _)
  · exact .pass (by simp [hkey]) (by simp [hkey])

theorem response_handleKey (p : BookmarkPanel) (remote : String) (key : Key) :
    Response p key (p.handleKey remote key) := by
  simp only [handleKey]
  split
  · exact .hide
  · exact .consume _
  · exact .consume _
  · exact .consume _
  · exact .consume _
  · exact .consume 0
  · exact .consume 0
  · exact .consume p.lastIndex
  · exact .consume p.lastIndex
  · exact response_withBookmark fun b => .showRevset _
  · simp only [startMoving]
    split
    · exact .consume p.cursor
    · next b _ => exact .startMoving b.name
  · exact .startCreating
  · next c hkey => exact p.response_bookmarkKey remote hkey
  · exact .pass ‹_› ‹_›

theorem handleKey_of_isPass {p : BookmarkPanel} {remote : String} {key : Key}
    (h : (p.handleKey remote key).2.isPass = true) :
    p.handleKey remote key = (p, .pass) ∧ key.code ≠ .enter ∧ key.code ≠ .esc := by
  have hresponse := p.response_handleKey remote key
  generalize p.handleKey remote key = r at h hresponse ⊢
  cases hresponse with
  | pass notEnter notEsc => exact ⟨rfl, notEnter, notEsc⟩
  | consume | hide | act | showRevset | startMoving | startCreating => contradiction

end BookmarkPanel

namespace App

variable {app : App} {runner : Runner} {key : Key}

/-- The application once its operation has looked at a key, before the effect of the key. -/
def answered (app : App) (r : Operation.KeyResult) : App :=
  { app with
    operation := some r.operation
    revisions := { app.revisions with checked := r.checked }
    calls := r.calls }

theorem standing_answered (runner : Runner) (key : Key) {o : Operation}
    (hoperation : app.operation = some o) :
    (app.answered (o.handleKey runner app.revisions.checked app.calls key)).standing =
      app.standing := by
  simp [answered, standing, hoperation]

theorem operationMode_answered (runner : Runner) (key : Key) {o : Operation}
    (hoperation : app.operation = some o) :
    (app.answered (o.handleKey runner app.revisions.checked app.calls key)).standing.operationMode =
      some o.panelMode := by
  rw [standing_answered runner key hoperation]
  simp [standing, hoperation]

theorem standing_operationKey (app : App) (runner : Runner) (key : Key) :
    (app.operationKey runner key).1.standing = app.standing ∨
      (key.code = .enter ∨ key.code = .esc) ∧
        (app.operationKey runner key).1.standing = app.standing.closeOperation := by
  cases hoperation : app.operation with
  | none =>
      simp only [operationKey, hoperation]
      exact .inl trivial
  | some o =>
      have hanswered := standing_answered runner key hoperation
      cases houtcome : (o.handleKey runner app.revisions.checked app.calls key).outcome with
      | pass =>
          simp only [operationKey, hoperation, houtcome]
          exact .inl hanswered
      | consumed =>
          simp only [operationKey, hoperation, houtcome]
          exact .inl hanswered
      | effect e =>
          obtain ⟨hends, hexits⟩ := Operation.exits_of_handleKey houtcome
          have hafter := standing_applyEffect_of_exits runner hexits
            (operationMode_answered runner key hoperation)
          simp only [operationKey, hoperation, houtcome]
          exact .inr ⟨hends, hafter.trans (congrArg _ hanswered)⟩

theorem coherent_operationKey (h : app.standing.Coherent)
    (hkey : app.focus = .bookmarks → key.code ≠ .enter ∧ key.code ≠ .esc) :
    (app.operationKey runner key).1.standing.Coherent := by
  rcases app.standing_operationKey runner key with hstays | ⟨hends, hcloses⟩
  · rw [hstays]
    exact h
  · have hfocus : app.focus = .revisions := by
      cases hfocus : app.focus with
      | revisions => rfl
      | bookmarks =>
          obtain ⟨hnotEnter, hnotEsc⟩ := hkey hfocus
          exact (hends.elim hnotEnter hnotEsc).elim
    rw [hcloses]
    exact h.closeOperation hfocus

theorem panelKey_of_unhandled (hvisible : app.panel.visible = true)
    (h : (app.panelKey runner key).2 = false) :
    (app.panelKey runner key).1 = app ∧ key.code ≠ .enter ∧ key.code ≠ .esc := by
  have hisPass : (app.panel.handleKey app.config.remote key).2.isPass = true := by
    simpa [panelKey] using h
  obtain ⟨hpass, hkey⟩ := BookmarkPanel.handleKey_of_isPass hisPass
  refine ⟨?_, hkey⟩
  simp only [panelKey, hpass]
  exact if_pos hvisible

theorem standing_panelKey (app : App) (runner : Runner) (key : Key) :
    (app.panelKey runner key).1.standing =
      let r := app.panel.handleKey app.config.remote key
      ({ app with panel := r.1 }.applyOutcome runner r.2).standing.leaveHidden := by
  simp only [panelKey]
  split
  · next hvisible => exact (if_pos hvisible).symm
  · next hhidden => exact (if_neg hhidden).symm

theorem coherent_panelKey (h : app.standing.Coherent) (hfocus : app.focus = .bookmarks) :
    (app.panelKey runner key).1.standing.Coherent := by
  have hvisible : app.panel.visible = true := (h.focus.mp hfocus).1
  have hresponse := app.panel.response_handleKey app.config.remote key
  rw [standing_panelKey]
  generalize app.panel.handleKey app.config.remote key = r at hresponse ⊢
  cases hresponse with
  | pass => exact h.leaveHidden
  | consume cursor => exact h.leaveHidden
  | hide =>
      have hhidden := h.setVisible (h.mode_eq_browse hfocus) false
      simpa [applyOutcome, Standing.leaveHidden, Standing.setVisible, standing,
        BookmarkPanel.toggleVisible, hvisible] using hhidden
  | act quiet =>
      simp only [applyOutcome, standing_applyEffect_of_quiet _ _ _ quiet]
      exact h.leaveHidden
  | showRevset revset =>
      simp only [applyOutcome, applyEffect, standing_update]
      exact h.focusLog.leaveHidden
  | startMoving bookmark =>
      simp only [applyOutcome, applyEffect, standing_update]
      exact (Standing.Coherent.startMode hvisible .moving).leaveHidden
  | startCreating =>
      simp only [applyOutcome, applyEffect, standing_update]
      exact (Standing.Coherent.startMode hvisible .creating).leaveHidden

theorem mode_of_no_operation (h : app.standing.Coherent) (hnone : app.operation = none) :
    app.standing.mode = .browse := by
  have hmode := h.mode
  simp only [standing, hnone] at hmode
  exact hmode

theorem coherent_globalKey (app : App) (runner : Runner) (key : Key)
    (h : app.standing.Coherent) :
    (app.globalKey runner key).1.standing.Coherent := by
  have hresponse := app.response_globalKey runner key
  generalize app.globalKey runner key = r at hresponse ⊢
  -- Without an operation the panel only browses, so it may come and go, or take the focus.
  cases hresponse with
  | quits | showsHelp | unchecks | passes => exact h
  | refreshes =>
      rw [standing_reloadRevisions]
      exact h
  | showsPanel idle hidden =>
      have hshown := h.setVisible (mode_of_no_operation h idle) true
      rw [standing_loadBookmarks]
      simpa [Standing.setVisible, standing, BookmarkPanel.toggleVisible, hidden] using hshown
  | hidesPanel idle visible =>
      have hhidden := h.setVisible (mode_of_no_operation h idle) false
      simpa [Standing.setVisible, standing, BookmarkPanel.toggleVisible, visible] using hhidden
  | focusesPanel idle visible => exact h.focusPanel visible (mode_of_no_operation h idle)
  | focusesLog => exact h.focusLog

theorem coherent_revisionsKey (h : app.standing.Coherent) :
    (app.revisionsKey key).standing.Coherent := by
  have hresponse := app.response_revisionsKey key
  generalize app.revisionsKey key = after at hresponse
  cases hresponse with
  | moves =>
      rw [standing_withCursor]
      exact h
  | startsBatch idle =>
      have hmode := mode_of_no_operation h idle
      exact { h.focusLog with mode := hmode }
  | toggles | stays => exact h

theorem coherent_logKey (h : app.standing.Coherent)
    (hkey : app.focus = .bookmarks → key.code ≠ .enter ∧ key.code ≠ .esc) :
    (app.logKey runner key).standing.Coherent := by
  have hoperation : (if app.operation.any Operation.isFocused then app.operationKey runner key
      else (app, false)).1.standing.Coherent := by
    split
    · exact coherent_operationKey h hkey
    · exact h
  simp only [logKey]
  generalize (if app.operation.any Operation.isFocused then app.operationKey runner key
      else (app, false)) = first at hoperation ⊢
  split
  · exact hoperation
  · have hglobal := first.1.coherent_globalKey runner key hoperation
    split
    · exact hglobal
    · exact coherent_revisionsKey hglobal

theorem isFocused_of_focus (h : app.standing.Coherent) (hfocus : app.focus = .bookmarks) :
    app.panel.isFocused = true :=
  Bool.and_eq_true_iff.mpr (h.focus.mp hfocus)

theorem focus_of_isEditing (h : app.standing.Coherent) (hediting : app.isEditing = true) :
    app.focus = .revisions := by
  obtain ⟨o, hoperation, hstage⟩ := (Option.any_eq_true _ _).mp hediting
  cases o with
  | batch | move => contradiction
  | create c =>
      have hmode : app.standing.mode = .creating := by
        rw [h.mode]
        simp [standing, hoperation, Operation.panelMode]
      exact h.focus_eq_revisions (by rw [hmode]; decide)

theorem coherent_handleKey (h : app.standing.Coherent) :
    (app.handleKey runner key).standing.Coherent := by
  simp only [handleKey]
  split
  · exact h
  · split
    · split <;> exact h
    · split
      · next hediting =>
          have hfocus := focus_of_isEditing h hediting
          exact coherent_operationKey h fun hpanel => by rw [hfocus] at hpanel; contradiction
      · split
        · next hpanel =>
            split
            · exact coherent_panelKey h hpanel.1
            · next hunhandled =>
                have hvisible : app.panel.visible = true := (h.focus.mp hpanel.1).1
                obtain ⟨hsame, hkey⟩ :=
                  panelKey_of_unhandled hvisible (Bool.not_eq_true _ ▸ hunhandled)
                rw [hsame]
                exact coherent_logKey h fun _ => hkey
        · next hpanel =>
            refine coherent_logKey h fun hfocus => ?_
            exact absurd ⟨hfocus, isFocused_of_focus h hfocus⟩ hpanel

/-! ## The mouse -/

def OffersOnlyVisible (app : App) : Prop :=
  ∀ t ∈ app.targets, ∀ i, t.message = .bookmarkRow i → app.panel.visible = true

theorem coherent_handleMouse (h : app.standing.Coherent) (hoffers : app.OffersOnlyVisible)
    (event : MouseEvent) : (app.handleMouse event).standing.Coherent := by
  have hresponse := app.response_handleMouse event
  generalize app.handleMouse event = after at hresponse
  cases hresponse with
  | pressesRevision =>
      rw [standing_withCursor]
      exact h.focusLog
  | pressesBookmark index hit browsing =>
      obtain ⟨t, ht, hmessage⟩ := Targets.exists_mem_of_hit hit
      have hpanel := h.focusPanel (hoffers t ht index hmessage) browsing
      simp only [BookmarkPanel.select]
      split <;> exact hpanel
  | drags =>
      rw [standing_withCursor]
      exact h
  | scrollsLog =>
      rw [standing_requestMore]
      exact h
  | releases | scrollsPanel | stays => exact h

theorem message_ne_bookmarkRow_of_mem_draw {v : RevisionList} {area : Rect} {theme : Theme}
    {operation : Option Operation} {follow : Bool} {t : Target ScreenTarget}
    (h : t ∈ (v.draw area theme operation follow []).2.2) (i : Nat) :
    t.message ≠ .bookmarkRow i := by
  simp only [RevisionList.draw] at h
  split at h
  · contradiction
  · rcases Targets.mem_or_message_eq_of_mem_register h with h | h
    · rcases Viewport.mem_or_message_eq_of_mem_registerItems h with h | ⟨j, h⟩
      · rcases Viewport.mem_or_message_eq_of_mem_registerItems h with h | ⟨j, h⟩
        · contradiction
        · simp [h]
      · simp [h]
    · simp [h]

theorem targets_draw_of_hidden (app : App) (width height : Nat) (h : app.panel.visible = false) :
    (app.draw width height).1.targets =
      (app.drawLog (mainArea width height)).1.targets := by
  simp [draw, drawPanel, drawLog, dropToast, h]

theorem offersOnlyVisible_draw (app : App) (width height : Nat) :
    (app.draw width height).1.OffersOnlyVisible := by
  intro t ht i hmessage
  have hvisible : (app.draw width height).1.panel.visible = app.panel.visible :=
    congrArg Standing.visible (app.standing_draw width height)
  rw [hvisible]
  by_contra hhidden
  rw [targets_draw_of_hidden app width height (Bool.not_eq_true _ ▸ hhidden)] at ht
  exact message_ne_bookmarkRow_of_mem_draw ht i hmessage

theorem standing_pumped (app : App) (revisions : RevisionList) (changed : Bool) :
    (app.pumped revisions changed).standing = app.standing := by
  simp only [pumped]
  split
  · exact standing_rowsChanged _
  · rfl

end App

/-! ## Sessions -/

theorem coherent_initial (config : Config) (theme : Theme) :
    (App.initial config theme).standing.Coherent where
  focus := by simp [App.initial, App.standing, BookmarkPanel.initial]
  mode := rfl
  aside hmode := absurd rfl hmode
  target := rfl

variable {runner : Runner} {config : Config} {theme : Theme} {phase : Phase} {app : App}

theorem Session.coherent (h : Session runner config theme phase app) :
    app.standing.Coherent ∧ (phase = .drawn → app.OffersOnlyVisible) := by
  induction h with
  | start =>
      refine ⟨?_, fun hphase => absurd hphase (by decide)⟩
      rw [App.start, App.standing_reloadRevisions]
      exact coherent_initial config theme
  | @tick app revisions changed before pumps ih =>
      refine ⟨?_, fun hphase => absurd hphase (by decide)⟩
      rw [App.standing_pumped]
      exact ih.1
  | @draw app before width height ih =>
      refine ⟨?_, fun _ => app.offersOnlyVisible_draw width height⟩
      rw [App.standing_draw]
      exact ih.1
  | key before key ih =>
      exact ⟨App.coherent_handleKey ih.1, fun hphase => absurd hphase (by decide)⟩
  | mouse before event ih =>
      have hcoherent := App.coherent_handleMouse ih.1 (ih.2 rfl) event
      exact ⟨hcoherent, fun hphase => absurd hphase (by decide)⟩
  | noEvent before ih => exact ⟨ih.1, fun hphase => absurd hphase (by decide)⟩
  | produce before ih => exact ih
  | expireToast before ih => exact ih

/-- The panel has the focus exactly when it is visible and wants it, its mode tells what operation is
at hand, and beside an operation of its own it stays visible and leaves the focus to the log. -/
theorem focus_and_mode_agree (h : Session runner config theme phase app) :
    (app.focus = .bookmarks ↔ app.panel.visible = true ∧ app.panel.wantsFocus = true) ∧
      (app.panel.mode = .moving ↔ ∃ m, app.operation = some (.move m)) ∧
      (app.panel.mode = .creating ↔ ∃ c, app.operation = some (.create c)) ∧
      (app.panel.mode = .browse ↔
        app.operation = none ∨ ∃ b, app.operation = some (.batch b)) ∧
      ((∃ m, app.operation = some (.move m)) ∨ (∃ c, app.operation = some (.create c)) →
        app.panel.visible = true ∧ app.panel.wantsFocus = false ∧ app.focus = .revisions) := by
  have hcoherent := h.coherent.1
  have hmode : app.panel.mode = (app.operation.map Operation.panelMode).getD .browse :=
    hcoherent.mode
  have haside : app.panel.mode ≠ .browse →
      app.panel.visible = true ∧ app.panel.wantsFocus = false ∧ app.focus = .revisions := by
    intro hother
    obtain ⟨hvisible, hwants⟩ := hcoherent.aside hother
    exact ⟨hvisible, hwants, hcoherent.focus_eq_revisions hother⟩
  refine ⟨hcoherent.focus, ?_⟩
  cases hoperation : app.operation with
  | none =>
      rw [hoperation] at hmode
      simp [hmode]
  | some o =>
      rw [hoperation] at hmode
      cases o with
      | batch b => simp [hmode, Operation.panelMode]
      | move m => simpa [hmode, Operation.panelMode] using haside
      | create c => simpa [hmode, Operation.panelMode] using haside

theorem focus_and_mode_agree_beside_creation :
    let runner := Script.runner ⟨[.error (.notStarted "not found")],
      [⟨.listBookmarks, none, .error (.failed (some 1) "no repository")⟩]⟩
    ∃ app, Session runner .initial ⟨none⟩ .begun app ∧
      (∃ c, app.operation = some (.create c)) ∧ app.panel.mode = .creating ∧
      app.panel.visible = true ∧ app.panel.wantsFocus = false ∧ app.focus = .revisions := by
  intro runner
  have started : Session runner .initial ⟨none⟩ .begun _ := .start
  have shown := Session.key (.draw (.tick_idle started rfl) 80 24) (.plain (.char 'b'))
  have creating := Session.key (.draw (.tick_idle shown rfl) 80 24) (.plain (.char 'c'))
  obtain ⟨-, -, hcreating, -, haside⟩ := focus_and_mode_agree creating
  exact ⟨_, creating, ⟨_, rfl⟩, hcreating.mpr ⟨_, rfl⟩, haside (.inr ⟨_, rfl⟩)⟩

end RevisionGraph
