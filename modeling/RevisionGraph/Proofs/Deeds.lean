import RevisionGraph.Proofs.Calls
import RevisionGraph.Proofs.Routing

/-!
# What is done besides loading

Deeds come only from keys. A key has at most one, and the state before it says which
(`App.KeyDeeds`); any number of loads may follow.
-/

namespace RevisionGraph

/-! ## What a key asks for -/

/-- A key of the panel asks for a change of the bookmark under its cursor. -/
inductive Bookmark.Asks (b : Bookmark) (remote : String) : KeyCode → Command → Prop
  | new : Asks b remote (.char 'n') (.new [b.name])
  | delete (deletable : b.isDeletable = true) : Asks b remote (.char 'd') (.deleteBookmark b.name)
  | forget : Asks b remote (.char 'f') (.forgetBookmark b.name)
  | track (trackable : b.isTrackable = true) :
      Asks b remote (.char 't') (.trackBookmark b.name remote)
  | untrack {pointer : Pointer} (first : b.remotes.head? = some pointer) :
      Asks b remote (.char 'u') (.untrackBookmark b.name pointer.remote)

inductive Operation.Asks : Operation → Command → Prop
  | move {m : BookmarkMove} {target : Commit} (target_eq : m.target = some target) :
      Asks (.move m) (.moveBookmark m.bookmark target.revision)
  | create {c : BookmarkCreation} {target : Commit} (stage : c.stage = .entering)
      (target_eq : c.target = some target) (named : c.input.name ≠ "") :
      Asks (.create c) (.createBookmark c.input.name target.revision)

inductive Operation.LooksUp : Operation → String → Prop
  | create {c : BookmarkCreation} {target : Commit} (stage : c.stage = .selecting)
      (target_eq : c.target = some target) : LooksUp (.create c) target.revision

inductive App.Asks (app : App) (key : Key) : Command → Prop
  | operation {o : Operation} {command : Command} (operation : app.operation = some o)
      (enter : key.code = .enter) (asks : o.Asks command) : Asks app key command
  | panel {b : Bookmark} {command : Command} (focus : app.focus = .bookmarks)
      (focused : app.panel.isFocused = true) (notEditing : app.isEditing = false)
      (selected : app.panel.selected = some b) (asks : b.Asks app.config.remote key.code command) :
      Asks app key command

theorem Bookmark.Asks.isChange {b : Bookmark} {remote : String} {code : KeyCode} {command : Command}
    (h : b.Asks remote code command) : command.isChange = true := by
  cases h <;> rfl

theorem Bookmark.Asks.ne_create {b : Bookmark} {remote : String} {code : KeyCode} {command : Command}
    (h : b.Asks remote code command) {name revision : String} :
    command ≠ .createBookmark name revision := by
  cases h <;> simp

theorem App.Asks.isChange {app : App} {key : Key} {command : Command}
    (h : app.Asks key command) : command.isChange = true := by
  cases h with
  | operation _ _ asks => cases asks <;> rfl
  | panel _ _ _ _ asks => exact asks.isChange

inductive App.KeyDeeds (app : App) (key : Key) : List Command → Prop
  | nothing : KeyDeeds app key []
  | lookUp {o : Operation} {revision : String} (operation : app.operation = some o)
      (enter : key.code = .enter) (looksUp : o.LooksUp revision) :
      KeyDeeds app key [.listMovable revision]
  | change {command : Command} (asks : app.Asks key command) : KeyDeeds app key [command]

namespace Operation

variable {runner : Runner} {o : Operation} {checked : CheckedSet} {calls : Calls} {key : Key}

theorem deeds_confirm_batch (b : BatchSelection) : b.confirm.deeds = [] := by
  unfold BatchSelection.confirm
  split <;> rfl

theorem deeds_confirm_move (m : BookmarkMove) :
    m.confirm.deeds = [] ∨ ∃ command, (move m).Asks command ∧ m.confirm.deeds = [command] := by
  unfold BookmarkMove.confirm
  split
  · exact .inl rfl
  · next target htarget => exact .inr ⟨_, .move htarget, rfl⟩

theorem deeds_confirm_create {c : BookmarkCreation} (hstage : c.stage = .entering) :
    c.confirm.deeds = [] ∨ ∃ command, (create c).Asks command ∧ c.confirm.deeds = [command] := by
  unfold BookmarkCreation.confirm
  split
  · exact .inl rfl
  · next target htarget =>
      split
      · exact .inl rfl
      · next hname =>
          have hnamed : c.input.name ≠ "" := by simpa using hname
          exact .inr ⟨_, .create hstage htarget hnamed, rfl⟩

theorem deeds_handleKey (runner : Runner) (o : Operation) (checked : CheckedSet) (calls : Calls)
    (key : Key) :
    let r := o.handleKey runner checked calls key
    (Adds calls r.calls [] ∧ r.outcome.deeds = []) ∨
      (∃ revision, key.code = .enter ∧ o.LooksUp revision ∧
        Adds calls r.calls [.listMovable revision] ∧ r.outcome.deeds = []) ∨
      ∃ command, key.code = .enter ∧ o.Asks command ∧ Adds calls r.calls [] ∧
        r.outcome.deeds = [command] := by
  intro r
  cases o with
  | batch b =>
      refine .inl ⟨.refl _, ?_⟩
      simp only [r, handleKey, BatchSelection.handleKey]
      split
      · exact deeds_confirm_batch b
      · rfl
      · rfl
      · rfl
  | move m =>
      simp only [r, handleKey, BookmarkMove.handleKey]
      split
      · exact .inl ⟨.refl _, rfl⟩
      · next henter =>
          rcases deeds_confirm_move m with hnone | ⟨command, hasks, hdeeds⟩
          · exact .inl ⟨.refl _, hnone⟩
          · exact .inr (.inr ⟨command, henter, hasks, .refl _, hdeeds⟩)
      · exact .inl ⟨.refl _, rfl⟩
  | create c =>
      simp only [r, handleKey, BookmarkCreation.handleKey]
      split
      · exact .inl ⟨.refl _, rfl⟩
      · next hstage henter =>
          split
          · exact .inl ⟨.refl _, rfl⟩
          · next target htarget =>
              exact .inr (.inl ⟨_, henter, .create hstage htarget, .call _ _, rfl⟩)
      · exact .inl ⟨.refl _, rfl⟩
      · exact .inl ⟨.refl _, rfl⟩
      · next hstage henter =>
          rcases deeds_confirm_create hstage with hnone | ⟨command, hasks, hdeeds⟩
          · exact .inl ⟨.refl _, hnone⟩
          · exact .inr (.inr ⟨command, henter, hasks, .refl _, hdeeds⟩)
      · exact .inl ⟨.refl _, rfl⟩

end Operation

namespace BookmarkPanel

variable (p : BookmarkPanel) (remote : String)

theorem deeds_withBookmark (bookmark : Option Bookmark) (command : Bookmark → Command)
    (next : List Message) (hdeed : ∀ b, (command b).isLoad = false) :
    (withBookmark bookmark fun b => .run (command b) next).deeds = [] ∨
      ∃ b, bookmark = some b ∧
        (withBookmark bookmark fun b => .run (command b) next).deeds = [command b] := by
  cases bookmark with
  | none => exact .inl rfl
  | some b =>
      refine .inr ⟨b, rfl, ?_⟩
      simp [withBookmark, Outcome.deeds, Effect.deeds, Effect.commands, hdeed]

theorem deeds_bookmarkKey (c : Char) :
    (p.bookmarkKey remote c).deeds = [] ∨
      ∃ b command, p.selected = some b ∧ b.Asks remote (.char c) command ∧
        (p.bookmarkKey remote c).deeds = [command] := by
  simp only [bookmarkKey, reloading]
  split
  · rcases deeds_withBookmark p.selected (fun b => .new [b.name]) [.refreshAndSelect "@"] fun _ => rfl with
      hnone | ⟨b, hb, hdeeds⟩
    · exact .inl hnone
    · exact .inr ⟨b, _, hb, .new, hdeeds⟩
  · rcases deeds_withBookmark (p.selected.filter (·.isDeletable)) (fun b => .deleteBookmark b.name)
      [.refresh, .reloadBookmarks] fun _ => rfl with hnone | ⟨b, hb, hdeeds⟩
    · exact .inl hnone
    · obtain ⟨hselected, hdeletable⟩ := Option.filter_eq_some_iff.mp hb
      exact .inr ⟨b, _, hselected, .delete hdeletable, hdeeds⟩
  · rcases deeds_withBookmark p.selected (fun b => .forgetBookmark b.name)
      [.refresh, .reloadBookmarks] fun _ => rfl with hnone | ⟨b, hb, hdeeds⟩
    · exact .inl hnone
    · exact .inr ⟨b, _, hb, .forget, hdeeds⟩
  · rcases deeds_withBookmark (p.selected.filter (·.isTrackable))
      (fun b => .trackBookmark b.name remote) [.refresh, .reloadBookmarks] fun _ => rfl with
      hnone | ⟨b, hb, hdeeds⟩
    · exact .inl hnone
    · obtain ⟨hselected, htrackable⟩ := Option.filter_eq_some_iff.mp hb
      exact .inr ⟨b, _, hselected, .track htrackable, hdeeds⟩
  · split
    · exact .inl rfl
    · next command huntrack =>
        obtain ⟨b, hselected, hcommand⟩ := Option.bind_eq_some_iff.mp huntrack
        obtain ⟨pointer, hfirst, rfl⟩ := Option.map_eq_some_iff.mp hcommand
        exact .inr ⟨b, _, hselected, .untrack hfirst, rfl⟩
  · exact .inl rfl

theorem deeds_handleKey (key : Key) :
    (p.handleKey remote key).2.deeds = [] ∨
      ∃ b command, p.selected = some b ∧ b.Asks remote key.code command ∧
        (p.handleKey remote key).2.deeds = [command] := by
  simp only [handleKey]
  split
  · exact .inl rfl
  · exact .inl rfl
  · exact .inl rfl
  · exact .inl rfl
  · exact .inl rfl
  · exact .inl rfl
  · exact .inl rfl
  · exact .inl rfl
  · exact .inl rfl
  · left
    cases p.selected <;> rfl
  · left
    unfold startMoving
    split <;> rfl
  · exact .inl rfl
  · next hkey =>
      rw [hkey]
      exact p.deeds_bookmarkKey remote _
  · exact .inl rfl

end BookmarkPanel

/-! ## The application -/

namespace App

variable {app : App} {runner : Runner} {key : Key}

theorem adds_operationKey (app : App) (runner : Runner) (key : Key) :
    ∃ ds, Adds app.calls (app.operationKey runner key).1.calls ds ∧ app.KeyDeeds key ds := by
  cases hoperation : app.operation with
  | none =>
      simp only [operationKey, hoperation]
      exact ⟨[], .refl _, .nothing⟩
  | some o =>
      have houtcome := adds_applyOutcome runner
        (app.answered (o.handleKey runner app.revisions.checked app.calls key))
        (o.handleKey runner app.revisions.checked app.calls key).outcome
      have hdeeds := o.deeds_handleKey runner app.revisions.checked app.calls key
      simp only [operationKey, hoperation]
      rcases hdeeds with ⟨hcalls, hnone⟩ | ⟨revision, henter, hlooks, hcalls, hnone⟩ |
        ⟨command, henter, hasks, hcalls, hone⟩
      · rw [hnone] at houtcome
        exact ⟨_, hcalls.trans_nil houtcome, .nothing⟩
      · rw [hnone] at houtcome
        exact ⟨_, hcalls.trans_nil houtcome, .lookUp hoperation henter hlooks⟩
      · rw [hone] at houtcome
        exact ⟨_, hcalls.trans houtcome, .change (.operation hoperation henter hasks)⟩

theorem adds_panelKey (app : App) (runner : Runner) (key : Key) :
    ∃ ds, Adds app.calls (app.panelKey runner key).1.calls ds ∧
      (ds = [] ∨ ∃ b command, app.panel.selected = some b ∧
        b.Asks app.config.remote key.code command ∧ ds = [command]) := by
  have houtcome := adds_applyOutcome runner
    { app with panel := (app.panel.handleKey app.config.remote key).1 }
    (app.panel.handleKey app.config.remote key).2
  have hcalls : (app.panelKey runner key).1.calls =
      ({ app with panel := (app.panel.handleKey app.config.remote key).1 }.applyOutcome runner
        (app.panel.handleKey app.config.remote key).2).calls := by
    simp only [panelKey]
    split <;> rfl
  rw [hcalls]
  exact ⟨_, houtcome, app.panel.deeds_handleKey app.config.remote key⟩

theorem adds_globalKey (app : App) (runner : Runner) (key : Key) :
    Adds app.calls (app.globalKey runner key).1.calls [] := by
  have hresponse := app.response_globalKey runner key
  generalize app.globalKey runner key = r at hresponse ⊢
  cases hresponse with
  | refreshes => exact app.adds_update runner .refresh
  | showsPanel => exact adds_loadBookmarks runner _
  | quits | showsHelp | hidesPanel | focusesPanel | focusesLog | unchecks | passes => exact .refl _

theorem calls_revisionsKey (app : App) (key : Key) : (app.revisionsKey key).calls = app.calls := by
  have hresponse := app.response_revisionsKey key
  generalize app.revisionsKey key = after at hresponse
  cases hresponse with
  | moves =>
      simp only [withCursor]
      split <;> rfl
  | toggles | startsBatch | stays => rfl

theorem adds_handleKey (app : App) (runner : Runner) (key : Key) :
    ∃ ds, Adds app.calls (app.handleKey runner key).calls ds ∧
      (ds = [] ∨ app.showsHelp = false ∧ app.KeyDeeds key ds) := by
  have hroute := app.route_handleKey runner key
  generalize app.handleKey runner key = after at hroute
  cases hroute with
  | quits => exact ⟨[], .refl _, .inl rfl⟩
  | closesHelp => exact ⟨[], .refl _, .inl rfl⟩
  | underHelp => exact ⟨[], .refl _, .inl rfl⟩
  | operation hidden =>
      obtain ⟨ds, hadds, hdeeds⟩ := app.adds_operationKey runner key
      exact ⟨ds, hadds, .inr ⟨hidden, hdeeds⟩⟩
  | panel hidden notEditing focus focused =>
      obtain ⟨ds, hadds, rfl | ⟨b, command, hb, hasks, rfl⟩⟩ := app.adds_panelKey runner key
      · exact ⟨[], hadds, .inl rfl⟩
      · exact ⟨[command], hadds, .inr ⟨hidden, .change (.panel focus focused notEditing hb hasks)⟩⟩
  | everywhere hidden => exact ⟨[], app.adds_globalKey runner key, .inl rfl⟩
  | log hidden => exact ⟨[], .of_eq (app.calls_revisionsKey key), .inl rfl⟩

/-- No call has been made, and at most the operation has been told what is selected. -/
structure OnlyTells (app after : App) : Prop where
  calls_eq : after.calls = app.calls
  operation_eq : after.operation = app.operation ∨
    ∃ selected, after.operation = app.operation.map (·.setSelected selected)

namespace OnlyTells

variable {before after : App}

theorem of_eq (hcalls : after.calls = app.calls) (hoperation : after.operation = app.operation) :
    app.OnlyTells after :=
  ⟨hcalls, .inl hoperation⟩

theorem withCursor (hcalls : before.calls = app.calls)
    (hoperation : before.operation = app.operation) (moved : RevisionList × Bool) :
    app.OnlyTells (before.withCursor moved) := by
  simp only [App.withCursor]
  split
  · exact ⟨hcalls, .inr ⟨moved.1.selected, congrArg (Option.map _) hoperation⟩⟩
  · exact .of_eq hcalls hoperation

end OnlyTells

theorem onlyTells_pumped (app : App) (revisions : RevisionList) (changed : Bool) :
    app.OnlyTells (app.pumped revisions changed) := by
  simp only [pumped]
  split
  · exact ⟨rfl, .inr ⟨revisions.selected, rfl⟩⟩
  · exact .of_eq rfl rfl

theorem onlyTells_draw (app : App) (width height : Nat) :
    app.OnlyTells (app.draw width height).1 := by
  obtain ⟨_, _, _, hdraw⟩ := app.draw_eq width height
  rw [hdraw]
  exact .of_eq rfl rfl

theorem onlyTells_handleMouse (app : App) (event : MouseEvent) :
    app.OnlyTells (app.handleMouse event) := by
  have hresponse := app.response_handleMouse event
  generalize app.handleMouse event = after at hresponse
  cases hresponse with
  | pressesRevision => exact .withCursor (by rfl) (by rfl) _
  | drags => exact .withCursor rfl rfl _
  | pressesBookmark | releases | scrollsLog | scrollsPanel | stays => exact .of_eq rfl rfl

end App

/-! ## Steps -/

variable {runner : Runner} {p q : Phase × App} {happening : Happening}

theorem Step.adds (h : Step runner p happening q) :
    ∃ ds, Adds p.2.calls q.2.calls ds ∧
      (ds = [] ∨ ∃ key, happening = .key key ∧ p.2.showsHelp = false ∧ p.2.KeyDeeds key ds) := by
  cases h with
  | tick pumps => exact ⟨[], .of_eq (App.onlyTells_pumped _ _ _).calls_eq, .inl rfl⟩
  | draw app width height => exact ⟨[], .of_eq (app.onlyTells_draw width height).calls_eq, .inl rfl⟩
  | key app key =>
      obtain ⟨ds, hadds, hdeeds⟩ := app.adds_handleKey runner key
      exact ⟨ds, hadds, hdeeds.imp_right fun hasked => ⟨key, rfl, hasked⟩⟩
  | mouse app event => exact ⟨[], .of_eq (app.onlyTells_handleMouse event).calls_eq, .inl rfl⟩
  | noEvent app => exact ⟨[], .refl _, .inl rfl⟩
  | produce phase app => exact ⟨[], .refl _, .inl rfl⟩
  | expireToast phase app => exact ⟨[], .refl _, .inl rfl⟩

/-- A deed among the calls so far was one of the calls of a key, and the only deed among them. -/
def Origin (runner : Runner) (config : Config) (theme : Theme) (q : Phase × App) (before : Calls)
    (call : Call) : Prop :=
  ∃ (pressed : App) (key : Key), Session runner config theme .drawn pressed ∧
    pressed.KeyDeeds key [call.command] ∧ deeds before = deeds pressed.calls ∧
    pressed.calls <+: before ∧ before ++ [call] <+: (pressed.handleKey runner key).calls ∧
    Leads runner (.begun, pressed.handleKey runner key) q

variable {config : Config} {theme : Theme} {before after : Calls} {call : Call}

theorem Origin.step (h : Origin runner config theme p before call)
    (hstep : Step runner p happening q) : Origin runner config theme q before call := by
  obtain ⟨pressed, key, hpressed, hdeeds, hbefore, hgrown, hcall, hleads⟩ := h
  exact ⟨pressed, key, hpressed, hdeeds, hbefore, hgrown, hcall, hleads.tail ⟨happening, hstep⟩⟩

theorem Step.origin_of_deed (h : Step runner p happening q)
    (hsession : Session runner config theme p.1 p.2) (hdeed : call.command.isLoad = false)
    (hgrown : p.2.calls <+: before) (hcalls : q.2.calls = before ++ call :: after) :
    Origin runner config theme q before call := by
  obtain ⟨ds, ⟨new, hnew, rfl⟩, hds⟩ := h.adds
  obtain ⟨middle, rfl⟩ := hgrown
  obtain rfl : new = middle ++ call :: after := by
    rw [hnew, List.append_assoc] at hcalls
    exact List.append_cancel_left hcalls
  have hsplit : deeds (middle ++ call :: after) = deeds middle ++ call.command :: deeds after := by
    simp [deeds, hdeed]
  rw [hsplit] at hds
  rcases hds with hnone | ⟨key, rfl, -, hdeeds⟩
  · simp at hnone
  · -- A key has one deed at most, so there is none before this one.
    obtain ⟨hmiddle, hafter⟩ : deeds middle = [] ∧ deeds after = [] := by
      generalize hall : deeds middle ++ call.command :: deeds after = all at hdeeds
      have hlength := congrArg List.length hall
      have hone : all.length ≤ 1 := by cases hdeeds <;> simp
      simp only [List.length_append, List.length_cons] at hlength
      exact ⟨List.eq_nil_of_length_eq_zero (by omega), List.eq_nil_of_length_eq_zero (by omega)⟩
    obtain ⟨hdrawn, rfl⟩ := h.of_key
    rw [hmiddle, hafter, List.nil_append] at hdeeds
    refine ⟨p.2, key, hdrawn ▸ hsession, hdeeds, ?_, List.prefix_append _ _, ⟨after, ?_⟩, .refl⟩
    · rw [deeds_append, hmiddle, List.append_nil]
    · rw [List.append_assoc, List.singleton_append]
      exact hcalls.symm

theorem origin_of_deed {phase : Phase} {app : App} (h : Session runner config theme phase app)
    (hcalls : app.calls = before ++ call :: after) (hdeed : call.command.isLoad = false) :
    Origin runner config theme (phase, app) before call := by
  have hstart : deeds (App.start runner (.initial config theme)).calls = [] := by
    rw [App.start, App.calls_reloadRevisions]
    rfl
  refine h.of_steps (P := fun q => ∀ after, q.2.calls = before ++ call :: after →
    Origin runner config theme q before call) ?_ ?_ after hcalls
  · intro after hcalls
    rw [hcalls] at hstart
    simp [deeds, hdeed] at hstart
  · intro p q happening hsession ih hstep after hcalls
    obtain ⟨ds, ⟨new, hnew, -⟩, -⟩ := hstep.adds
    rcases List.append_eq_append_iff.mp (hnew.symm.trans hcalls) with
      ⟨middle, hbefore, -⟩ | ⟨middle, hold, hmiddle⟩
    · exact hstep.origin_of_deed hsession hdeed ⟨middle, hbefore.symm⟩ hcalls
    · cases middle with
      | nil =>
          have hsame : p.2.calls = before := hold.trans (List.append_nil before)
          exact hstep.origin_of_deed hsession hdeed (hsame ▸ List.prefix_rfl) hcalls
      | cons c rest =>
          obtain ⟨rfl, -⟩ := List.cons_eq_cons.mp hmiddle
          exact (ih rest hold).step hstep

/-- Whatever happens changes the repository at most once, and then it is a key that asks for it
while no help text is shown. -/
theorem changes_are_asked_for (h : Step runner p happening q) :
    ∃ new, q.2.calls = p.2.calls ++ new ∧
      (changes new = [] ∨
        ∃ key command, happening = .key key ∧ p.2.showsHelp = false ∧ p.2.Asks key command ∧
          changes new = [command]) := by
  obtain ⟨ds, ⟨new, hcalls, hnew⟩, hds⟩ := h.adds
  refine ⟨new, hcalls, ?_⟩
  rw [changes_eq, hnew]
  rcases hds with rfl | ⟨key, hkey, hshown, hdeeds⟩
  · exact .inl rfl
  · cases hdeeds with
    | nothing => exact .inl rfl
    | lookUp operation enter looksUp => exact .inl rfl
    | @change command asks =>
        refine .inr ⟨key, command, hkey, hshown, asks, ?_⟩
        rw [List.filter_singleton, asks.isChange]
        rfl

def runnerOfMain : Runner :=
  Script.runner ⟨[.error (.notStarted "not found")],
    [⟨.listBookmarks, none, .ok "main abc\n".toUTF8.toList⟩]⟩

theorem changes_are_asked_for_of_delete :
    ∃ app, Session runnerOfMain .initial ⟨none⟩ .drawn app ∧ changes app.calls = [] ∧
      app.Asks (.plain (.char 'd')) (.deleteBookmark "main") ∧
      changes (app.handleKey runnerOfMain (.plain (.char 'd'))).calls = [.deleteBookmark "main"] := by
  have started : Session runnerOfMain .initial ⟨none⟩ .begun _ := .start
  have shown := Session.key (.draw (.tick_idle started rfl) 80 24) (.plain (.char 'b'))
  have drawn := Session.draw (.tick_idle shown rfl) 80 24
  generalize happ : (App.draw _ 80 24).1 = app at drawn
  have hbefore : changes app.calls = [] := by
    rw [← happ]
    rfl
  have hafter : changes (app.handleKey runnerOfMain (.plain (.char 'd'))).calls =
      [.deleteBookmark "main"] := by
    rw [← happ]
    decide +kernel
  obtain ⟨new, hcalls, hchanges⟩ :=
    changes_are_asked_for (.key app (.plain (.char 'd')) : Step runnerOfMain _ _ _)
  have hnew : changes new = [.deleteBookmark "main"] := by
    rw [← hafter, hcalls, changes_append, hbefore, List.nil_append]
  rcases hchanges with hnone | ⟨key, command, hkey, -, hasks, hone⟩
  · rw [hnone] at hnew
    contradiction
  · obtain rfl : command = .deleteBookmark "main" := by simpa [hone] using hnew
    obtain rfl : key = .plain (.char 'd') := by simpa using hkey.symm
    exact ⟨app, drawn, hbefore, hasks, hafter⟩

end RevisionGraph
