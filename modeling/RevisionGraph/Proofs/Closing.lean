import RevisionGraph.Proofs.Calls
import RevisionGraph.Proofs.Focus

/-!
# The end of an operation

Once an operation has answered a key with an effect it is over, and the panel it came from has the
focus and is loaded anew, whatever the runner answers on the way.
-/

namespace RevisionGraph

/-! ## The messages of the last effect -/

namespace Effect

theorem messages_eq_parts (e : Effect) : e.messages = messagesOfAll e.parts := by
  cases e <;> simp [messages, messagesOfAll, parts]

theorem messagesOfAll_append (first second : List Effect) :
    messagesOfAll (first ++ second) = messagesOfAll first ++ messagesOfAll second := by
  induction first with
  | nil => rfl
  | cons e rest ih => simp only [List.cons_append, messagesOfAll, ih, List.append_assoc]

theorem emitted_eq_parts (e : Effect) : e.emitted = emittedByAll e.parts := by
  cases e <;> simp [emitted, emittedByAll, parts]

theorem emittedByAll_append (first second : List Effect) :
    emittedByAll (first ++ second) = emittedByAll first ++ emittedByAll second := by
  induction first with
  | nil => rfl
  | cons e rest ih => simp only [List.cons_append, emittedByAll, ih, List.append_assoc]

end Effect

theorem not_isQuiet_closeOperation : ¬ Message.IsQuiet .closeOperation := by
  intro hquiet
  have hsame := hquiet ⟨.revisions, false, false, .browse, some .browse, false⟩
  contradiction

namespace Operation.Exits

variable {o : Operation} {e : Effect}

theorem messages (h : o.Exits e) :
    ∃ before, e.messages = before ++ [.closeOperation] ∧ .closeOperation ∉ before := by
  obtain ⟨work, hparts, hquiet⟩ := h
  refine ⟨Effect.messagesOfAll work ++ Effect.messagesOfAll o.leaving, ?_, ?_⟩
  · rw [Effect.messages_eq_parts, hparts, Effect.messagesOfAll_append,
      Effect.messagesOfAll_append]
    rfl
  · intro hclose
    rcases List.mem_append.mp hclose with hwork | hleaving
    · exact not_isQuiet_closeOperation (hquiet _ hwork)
    · cases o <;> simp [leaving, Effect.messagesOfAll, Effect.messages] at hleaving

theorem emitted (h : o.Exits e) :
    ∃ before, e.emitted = before ++ [.closeOperation] ∧
      (∀ m, o = .move m → .endMoveMode ∈ before) ∧
      (∀ c, o = .create c → .endCreateMode ∈ before) := by
  obtain ⟨work, hparts, -⟩ := h
  refine ⟨Effect.emittedByAll work ++ Effect.emittedByAll o.leaving, ?_, ?_, ?_⟩
  · rw [Effect.emitted_eq_parts, hparts, Effect.emittedByAll_append, Effect.emittedByAll_append]
    rfl
  · rintro m rfl
    exact List.mem_append_right _ (List.mem_singleton_self _)
  · rintro c rfl
    exact List.mem_append_right _ (List.mem_singleton_self _)

end Operation.Exits

/-! ## Handing over -/

namespace Standing

variable {s : Standing} {mode : PanelMode}

theorem operationMode_closeOperation (s : Standing) : s.closeOperation.operationMode = none := by
  cases hoperation : s.operationMode with
  | none => simp [closeOperation, hoperation]
  | some mode =>
      simp only [closeOperation, hoperation, focusPanelIfVisible]
      split
      · rfl
      · split <;> rfl

theorem focus_closeOperation_of_browse (hoperation : s.operationMode = some .browse) :
    s.closeOperation.focus = .revisions := by
  simp [closeOperation, hoperation]

theorem focus_closeOperation_of_visible (hoperation : s.operationMode = some mode)
    (hmode : mode ≠ .browse) (hvisible : s.visible = true) :
    s.closeOperation.focus = .bookmarks := by
  simp [closeOperation, hoperation, hmode, focusPanelIfVisible, endMode, hvisible]

end Standing

namespace App

/-- The operation gets to see the key: no help text is shown, and the panel does not take the key
first. -/
def ReachesOperation (app : App) (key : Key) : Prop :=
  ¬ (key.ctrl ∧ key.code = .char 'c') ∧ app.showsHelp = false ∧
    (app.isEditing = true ∨ ¬ (app.focus = .bookmarks ∧ app.panel.isFocused) ∨
      (app.panel.handleKey app.config.remote key).2.isPass = true)

theorem handleKey_of_answer {runner : Runner} {app : App} {key : Key} {o : Operation} {e : Effect}
    (hoperation : app.operation = some o) (hreaches : app.ReachesOperation key)
    (hanswer : (o.handleKey runner app.revisions.checked app.calls key).outcome = .effect e) :
    app.handleKey runner key =
      applyEffect runner e
        (app.answered (o.handleKey runner app.revisions.checked app.calls key)) := by
  obtain ⟨hquit, hhelp, hway⟩ := hreaches
  have hkey : app.operationKey runner key =
      (applyEffect runner e
        (app.answered (o.handleKey runner app.revisions.checked app.calls key)), true) := by
    simp only [operationKey, hoperation, hanswer]
    rfl
  rw [handleKey, if_neg hquit, hhelp, if_neg Bool.false_ne_true]
  by_cases hediting : app.isEditing = true
  · rw [if_pos hediting, hkey]
  · have hpanel : ¬ (app.focus = .bookmarks ∧ app.panel.isFocused = true) := by
      rcases hway with hediting' | hpanel | hpass
      · contradiction
      · exact hpanel
      · obtain ⟨-, hnotEnter, hnotEsc⟩ := BookmarkPanel.handleKey_of_isPass hpass
        have hends := (Operation.exits_of_handleKey hanswer).1
        exact (hends.elim hnotEnter hnotEsc).elim
    have hfocused : app.operation.any Operation.isFocused = true := by
      simpa [isEditing, hoperation, Operation.isFocused] using hediting
    rw [if_neg hediting, if_neg hpanel, logKey, if_pos hfocused, hkey]
    rfl

theorem calls_prefix_answered (runner : Runner) (app : App) (key : Key) (o : Operation) :
    app.calls <+:
      (app.answered (o.handleKey runner app.revisions.checked app.calls key)).calls := by
  cases o with
  | batch | move => exact List.prefix_rfl
  | create c =>
      simp only [answered, Operation.handleKey, BookmarkCreation.handleKey]
      split
      · exact List.prefix_rfl
      · split
        · exact List.prefix_rfl
        · exact List.prefix_append _ _
      · exact List.prefix_rfl
      · exact List.prefix_rfl
      · exact List.prefix_rfl
      · exact List.prefix_rfl

theorem applyEffect_eq_closeOperation (runner : Runner) {app : App} {o : Operation} {e : Effect}
    (hexits : o.Exits e) (hoperation : app.standing.operationMode = some o.panelMode) :
    ∃ before : App, applyEffect runner e app = before.closeOperation runner ∧
      app.calls <+: before.calls ∧ ∃ p, before.operation = some p ∧ p.panelMode = o.panelMode := by
  obtain ⟨work, hquiet, happly⟩ := applyEffect_of_exits runner hexits
  refine ⟨_, happly, (adds_applyEffects runner app _).isPrefix, ?_⟩
  have hmode : (applyEffects runner (work ++ o.leaving) app).standing.operationMode =
      some o.panelMode := by
    rw [standing_leave runner app o hquiet]
    split <;> exact hoperation
  exact Option.map_eq_some_iff.mp hmode

theorem over_of_coherent {app : App} (h : app.standing.Coherent)
    (hnone : app.standing.operationMode = none) :
    app.operation = none ∧ app.panel.mode = .browse ∧ app.panel.target = none := by
  have hmode : app.panel.mode = .browse := by
    have hmode := h.mode
    rw [hnone] at hmode
    exact hmode
  have htarget := h.target
  simp only [standing, hmode] at htarget
  exact ⟨Option.map_eq_none_iff.mp hnone, hmode, by simpa using htarget⟩

end App

variable {runner : Runner} {config : Config} {theme : Theme} {phase : Phase} {app : App}

/-- An operation that answers a key with an effect is over after the key, and its panel has been
given the focus and was loaded anew last of all. -/
theorem answered_operation_is_closed {o : Operation} {e : Effect}
    (h : Session runner config theme phase app) (key : Key) (hoperation : app.operation = some o)
    (hreaches : app.ReachesOperation key)
    (hanswer : (o.handleKey runner app.revisions.checked app.calls key).outcome = .effect e) :
    let after := app.handleKey runner key
    (after.operation = none ∧ after.panel.mode = .browse ∧ after.panel.target = none) ∧
      (o.owner = .revisions → after.focus = .revisions ∧
        ∃ made, after.calls =
          app.calls ++ made ++ [.stream (.log after.config.revset after.config.limit)]) ∧
      (o.owner = .bookmarks → after.focus = .bookmarks ∧ after.panel.isFocused = true ∧
        ∃ made, after.calls = app.calls ++ made ++ [.run .listBookmarks]) ∧
      (∃ before, e.messages = before ++ [.closeOperation] ∧ .closeOperation ∉ before) ∧
      ∃ before, e.emitted = before ++ [.closeOperation] ∧
        (∀ m, o = .move m → .endMoveMode ∈ before) ∧
        (∀ c, o = .create c → .endCreateMode ∈ before) := by
  intro after
  have hcoherent := h.coherent.1
  have hafter : after.standing.Coherent := App.coherent_handleKey hcoherent
  have hexits := (Operation.exits_of_handleKey hanswer).2
  have hmode : app.standing.operationMode = some o.panelMode := by simp [App.standing, hoperation]
  have hanswered := App.standing_answered runner key hoperation
  have hhandled := App.handleKey_of_answer hoperation hreaches hanswer
  have hcloses : after.standing = app.standing.closeOperation := by
    rw [← hanswered]
    exact (congrArg App.standing hhandled).trans
      (App.standing_applyEffect_of_exits runner hexits
        (App.operationMode_answered runner key hoperation))
  obtain ⟨before, hbefore, hcalls, p, hp, hpmode⟩ :=
    App.applyEffect_eq_closeOperation runner hexits
      (App.operationMode_answered runner key hoperation)
  have hlast : after = before.closeOperation runner := hhandled.trans hbefore
  obtain ⟨made, hmade⟩ := (app.calls_prefix_answered runner key o).trans hcalls
  refine ⟨App.over_of_coherent hafter ?_, ?_, ?_, hexits.messages, hexits.emitted⟩
  · rw [hcloses, Standing.operationMode_closeOperation]
  · intro howner
    have hbrowse := o.owner_eq_revisions_iff.mp howner
    refine ⟨?_, made, ?_⟩
    · exact (congrArg Standing.focus hcloses).trans
        (Standing.focus_closeOperation_of_browse (hbrowse ▸ hmode))
    · have hpowner := p.owner_eq_revisions_iff.mpr (hpmode.trans hbrowse)
      rw [hlast, hmade]
      exact before.calls_closeOperation_of_revisions runner hp hpowner
  · intro howner
    have hother := o.owner_eq_bookmarks_iff.mp howner
    have hvisible : app.standing.visible = true := by
      refine (hcoherent.aside ?_).1
      rw [hcoherent.mode, hmode]
      exact hother
    have hfocus : after.focus = .bookmarks :=
      (congrArg Standing.focus hcloses).trans
        (Standing.focus_closeOperation_of_visible hmode hother hvisible)
    refine ⟨hfocus, App.isFocused_of_focus hafter hfocus, made, ?_⟩
    have hpowner := p.owner_eq_bookmarks_iff.mpr (hpmode ▸ hother)
    rw [hlast, hmade]
    exact before.calls_closeOperation_of_bookmarks runner hp hpowner

theorem answered_operation_is_closed_without_bookmarks :
    let runner := Script.runner ⟨[.error (.notStarted "not found")],
      [⟨.listBookmarks, none, .error (.failed (some 1) "no repository")⟩]⟩
    ∃ app, Session runner .initial ⟨none⟩ .drawn app ∧
      app.operation = some (.create .initial) ∧ app.ReachesOperation (.plain .esc) ∧
      let after := app.handleKey runner (.plain .esc)
      after.operation = none ∧ after.panel.mode = .browse ∧ after.focus = .bookmarks ∧
        after.panel.isFocused = true ∧
        ∃ made, after.calls = app.calls ++ made ++ [.run .listBookmarks] := by
  intro runner
  have started : Session runner .initial ⟨none⟩ .begun _ := .start
  have shown := Session.key (.draw (.tick_idle started rfl) 80 24) (.plain (.char 'b'))
  have creating := Session.key (.draw (.tick_idle shown rfl) 80 24) (.plain (.char 'c'))
  have drawn := Session.draw (.tick_idle creating rfl) 80 24
  generalize happ : (App.draw _ 80 24).1 = app at drawn
  have hoperation : app.operation = some (.create .initial) := by rw [← happ]; rfl
  have hfocus : app.focus = .revisions := by rw [← happ]; rfl
  have hhelp : app.showsHelp = false := by rw [← happ]; rfl
  have hreaches : app.ReachesOperation (.plain .esc) :=
    ⟨by decide, hhelp, .inr (.inl (by simp [hfocus]))⟩
  obtain ⟨⟨hnone, hbrowse, -⟩, -, hback, -⟩ :=
    answered_operation_is_closed drawn (.plain .esc) hoperation hreaches rfl
  exact ⟨app, drawn, hoperation, hreaches, hnone, hbrowse, hback rfl⟩

end RevisionGraph
