import Mathlib.Algebra.GroupWithZero.Nat
import Mathlib.Algebra.Order.BigOperators.Group.List
import Mathlib.Algebra.Order.Group.Nat
import RevisionGraph.Proofs.Deeds

/-!
# The name and the target of a new bookmark

A new bookmark gets the words that have been typed, with hyphens between them, and the revision whose
bookmarks were looked up last: while a name is being entered nothing looks up another one, and the
target stays as it was then.
-/

namespace RevisionGraph

/-! ## Names -/

namespace Text

theorem isBlank_of_mem_splitOnP {cs piece : List Char} (h : piece ∈ cs.splitOnP isBlank) :
    ∀ c ∈ piece, isBlank c = false := by
  induction cs generalizing piece with
  | nil =>
      rw [List.splitOnP_nil, List.mem_singleton] at h
      simp [h]
  | cons d rest ih =>
      rw [List.splitOnP_cons_eq_if_modifyHead] at h
      obtain ⟨first, others, hsplit⟩ := List.exists_cons_of_ne_nil (List.splitOnP_ne_nil isBlank rest)
      rw [hsplit] at ih h
      split at h
      · rcases List.mem_cons.mp h with rfl | hrest
        · simp
        · exact ih hrest
      · next hblank =>
          rw [List.modifyHead_cons] at h
          rcases List.mem_cons.mp h with rfl | hothers
          · rw [List.forall_mem_cons]
            exact ⟨Bool.eq_false_iff.mpr hblank, ih (List.mem_cons_self ..)⟩
          · exact ih (List.mem_cons_of_mem _ hothers)

/-- The length of the pieces with a separator after each. -/
def span (pieces : List (List Char)) : Nat :=
  (pieces.map fun piece => piece.length + 1).sum

theorem span_splitOnP (cs : List Char) : span (cs.splitOnP isBlank) = cs.length + 1 := by
  induction cs with
  | nil => rfl
  | cons d rest ih =>
      obtain ⟨first, others, hsplit⟩ := List.exists_cons_of_ne_nil (List.splitOnP_ne_nil isBlank rest)
      rw [List.splitOnP_cons_eq_if_modifyHead]
      rw [hsplit] at ih ⊢
      simp only [span, List.map_cons, List.sum_cons] at ih
      split
      · simp only [span, List.map_cons, List.sum_cons, List.length_cons, List.length_nil]
        omega
      · simp only [span, List.modifyHead_cons, List.map_cons, List.sum_cons, List.length_cons]
        omega

theorem span_filter_le (p : List Char → Bool) (pieces : List (List Char)) :
    span (pieces.filter p) ≤ span pieces :=
  (List.Sublist.map _ List.filter_sublist).sum_le_sum fun _ _ => Nat.zero_le _

theorem span_words_le (cs : List Char) : span (words cs) ≤ cs.length + 1 := by
  rw [← span_splitOnP]
  exact span_filter_le _ _

theorem length_intercalate (pieces : List (List Char)) :
    (List.intercalate ['-'] pieces).length = span pieces - 1 := by
  induction pieces with
  | nil => rfl
  | cons first rest ih =>
      cases rest with
      | nil => simp [span]
      | cons second rest =>
          simp only [span, List.map_cons, List.sum_cons] at ih ⊢
          rw [List.intercalate_cons_cons, List.length_append, List.length_append, ih]
          simp only [List.length_singleton]
          omega

end Text

namespace NameInput

theorem isBlank_of_mem_normalize {text : List Char} {c : Char} (h : c ∈ normalize text) :
    Text.isBlank c = false := by
  have hwords : ∀ word ∈ Text.words text, ∀ c ∈ word, Text.isBlank c = false := fun word hword =>
    Text.isBlank_of_mem_splitOnP (List.mem_of_mem_filter hword)
  revert h
  rw [normalize]
  generalize Text.words text = pieces at hwords
  intro h
  induction pieces with
  | nil => simp at h
  | cons first rest ih =>
      rw [List.forall_mem_cons] at hwords
      cases rest with
      | nil =>
          rw [List.intercalate_singleton] at h
          exact hwords.1 c h
      | cons second rest =>
          rw [List.intercalate_cons_cons, List.mem_append, List.mem_append,
            List.mem_singleton] at h
          rcases h with (hfirst | rfl) | hrest
          · exact hwords.1 c hfirst
          · rfl
          · exact ih hwords.2 hrest

theorem length_normalize_le (text : List Char) : (normalize text).length ≤ text.length := by
  have hspan := Text.span_words_le text
  rw [normalize, Text.length_intercalate]
  omega

theorem length_name_le (n : NameInput) : n.name.length ≤ n.value.length := by
  rw [name, String.length_ofList]
  exact length_normalize_le n.value

theorem length_setValue_le (n : NameInput) (text : List Char) :
    (n.setValue text).value.length ≤ limit :=
  List.length_take_le limit text

theorem length_insert_le {n : NameInput} (h : n.value.length ≤ limit) (c : Char) :
    (n.insert c).1.value.length ≤ limit := by
  unfold insert
  split
  · exact h
  · next hroom =>
      simp only [List.length_insertIdx]
      split <;> omega

theorem length_accept_le {n : NameInput} (h : n.value.length ≤ limit) :
    n.accept.1.value.length ≤ limit := by
  unfold accept
  split
  · exact h
  · exact n.length_setValue_le _

theorem length_handleKey_le {n : NameInput} (h : n.value.length ≤ limit) (key : Key) :
    (n.handleKey key).1.value.length ≤ limit := by
  have herase (i : Nat) : (n.value.eraseIdx i).length ≤ limit :=
    (List.length_eraseIdx_le n.value i).trans h
  cases hcode : key.code with
  | char c =>
      simp only [handleKey, hcode, handleChar]
      split
      · split
        · exact Nat.zero_le limit
        · split
          · exact h
          · split <;> exact h
      · split
        · exact h
        · exact length_insert_le h c
  | backspace =>
      simp only [handleKey, hcode, deleteBefore]
      split
      · exact h
      · exact herase _
  | delete =>
      simp only [handleKey, hcode, deleteAfter]
      split
      · exact h
      · exact herase _
  | tab =>
      simp only [handleKey, hcode]
      exact length_accept_le h
  | _ =>
      simp only [handleKey, hcode]
      exact h

end NameInput

/-! ## Targets -/

def Operation.Anchored (looked : Option String) : Operation → Prop
  | .create c =>
      c.input.value.length ≤ NameInput.limit ∧
        (c.stage = .entering → ∃ target, c.target = some target ∧ looked = some target.revision)
  | .batch _ | .move _ => True

namespace Operation

theorem anchored_initial (looked : Option String) : (create .initial).Anchored looked :=
  ⟨Nat.zero_le _, fun hstage => absurd hstage (by decide)⟩

theorem Anchored.setSelected {looked : Option String} {o : Operation} (h : o.Anchored looked)
    (selected : Option Commit) : (o.setSelected selected).Anchored looked := by
  cases o with
  | batch b => exact h
  | move m => exact h
  | create c =>
      simp only [Operation.setSelected, BookmarkCreation.setSelected]
      split
      · next hstage => exact ⟨h.1, fun hentering => by simp [hstage] at hentering⟩
      · exact h

theorem Anchored.handleKey {o : Operation} {calls : Calls}
    (h : o.Anchored (lookUps calls).getLast?) (runner : Runner) (checked : CheckedSet) (key : Key) :
    let r := o.handleKey runner checked calls key
    r.operation.Anchored (lookUps r.calls).getLast? := by
  intro r
  cases o with
  | batch b => exact h
  | move m => exact h
  | create c =>
      simp only [r, Operation.handleKey, BookmarkCreation.handleKey]
      split
      · exact h
      · split
        · exact h
        · next target htarget =>
            refine ⟨Nat.zero_le _, fun _ => ⟨target, htarget, ?_⟩⟩
            simp [BookmarkCreation.enterName, lookUps, Call.command, Command.lookUp?]
      · exact h
      · have hstage : CreateStage.selecting ≠ .entering := by decide
        exact ⟨Nat.zero_le _, fun hentering => absurd hentering hstage⟩
      · exact h
      · exact ⟨NameInput.length_handleKey_le h.1 key, h.2⟩

end Operation

namespace App

def AnchoredTo (app : App) (looked : Option String) : Prop :=
  ∀ o, app.operation = some o → o.Anchored looked

variable {runner : Runner} {app after : App} {looked : Option String} {key : Key}

theorem AnchoredTo.of_eq (h : app.AnchoredTo looked) (hsame : after.operation = app.operation) :
    after.AnchoredTo looked := by
  intro o ho
  exact h o (hsame ▸ ho)

theorem AnchoredTo.closeOperation (app : App) (runner : Runner) (looked : Option String) :
    (app.closeOperation runner).AnchoredTo looked := by
  intro p hp
  rw [operation_closeOperation] at hp
  contradiction

theorem anchoredTo_startOperation (app : App) {o : Operation} (h : o.Anchored looked) :
    (app.startOperation o).AnchoredTo looked := by
  intro p hp
  obtain rfl : o.setSelected app.revisions.selected = p := Option.some.inj hp
  exact h.setSelected _

theorem kept_anchoredTo (runner : Runner) (looked : Option String) :
    Kept runner fun app => app.AnchoredTo looked where
  recordCall app command h := h
  update app m h := by
    cases m with
    | refresh => exact h.of_eq (app.operation_reloadRevisions runner none)
    | refreshAndSelect revision => exact h.of_eq (app.operation_reloadRevisions runner _)
    | reloadBookmarks => exact h.of_eq (app.operation_loadBookmarks runner)
    | toggleRange first last => exact h
    | startMoveMode bookmark => exact anchoredTo_startOperation _ trivial
    | startCreateMode => exact anchoredTo_startOperation _ (Operation.anchored_initial looked)
    | endMoveMode => exact h
    | endCreateMode => exact h
    | closeOperation => exact AnchoredTo.closeOperation app runner looked
    | updateRevset revset => exact h.of_eq (operation_reloadRevisions _ runner none)
    | toast text => exact h

theorem AnchoredTo.of_onlyTells (h : app.AnchoredTo looked) (htells : app.OnlyTells after) :
    after.AnchoredTo looked := by
  rcases htells.operation_eq with hsame | ⟨selected, htold⟩
  · exact h.of_eq hsame
  · intro p hp
    rw [htold] at hp
    obtain ⟨o, ho, rfl⟩ := Option.map_eq_some_iff.mp hp
    exact (h o ho).setSelected selected

theorem AnchoredTo.panelKey (h : app.AnchoredTo looked) :
    (app.panelKey runner key).1.AnchoredTo looked := by
  have hpanel : AnchoredTo { app with
      panel := (app.panel.handleKey app.config.remote key).1 } looked := h
  have houtcome := (kept_anchoredTo runner looked).applyOutcome hpanel
    (app.panel.handleKey app.config.remote key).2
  simp only [App.panelKey]
  split <;> exact houtcome

theorem AnchoredTo.globalKey (h : app.AnchoredTo looked) :
    (app.globalKey runner key).1.AnchoredTo looked := by
  have hresponse := app.response_globalKey runner key
  generalize app.globalKey runner key = r at hresponse ⊢
  cases hresponse with
  | refreshes => exact (kept_anchoredTo runner looked).update app .refresh h
  | showsPanel => exact h.of_eq (operation_loadBookmarks _ runner)
  | quits | showsHelp | hidesPanel | focusesPanel | focusesLog | unchecks | passes => exact h

theorem AnchoredTo.revisionsKey (h : app.AnchoredTo looked) (key : Key) :
    (app.revisionsKey key).AnchoredTo looked := by
  have hresponse := app.response_revisionsKey key
  generalize app.revisionsKey key = after at hresponse
  cases hresponse with
  | moves => exact h.of_onlyTells (.withCursor rfl rfl _)
  | startsBatch => exact anchoredTo_startOperation app trivial
  | toggles | stays => exact h

/-- What has been looked up last is the target of the name that is being entered. -/
def Anchored (app : App) : Prop :=
  app.AnchoredTo (lookUps app.calls).getLast?

theorem lookUps_of_adds {a b : Calls} {ds : List Command} (h : Adds a b ds) :
    lookUps b = lookUps a ++ ds.filterMap Command.lookUp? := by
  obtain ⟨new, rfl, rfl⟩ := h
  rw [lookUps_append, lookUps_eq new]

theorem Anchored.of_adds {ds : List Command} (hadds : Adds app.calls after.calls ds)
    (hds : ds.filterMap Command.lookUp? = [])
    (h : after.AnchoredTo (lookUps app.calls).getLast?) : after.Anchored := by
  rw [Anchored, lookUps_of_adds hadds, hds, List.append_nil]
  exact h

theorem Anchored.of_onlyTells (h : app.Anchored) (htells : app.OnlyTells after) : after.Anchored :=
  .of_adds (.of_eq htells.calls_eq) rfl (AnchoredTo.of_onlyTells h htells)

theorem Anchored.operationKey (h : app.Anchored) (runner : Runner) (key : Key) :
    (app.operationKey runner key).1.Anchored := by
  cases hoperation : app.operation with
  | none =>
      simp only [App.operationKey, hoperation]
      exact h
  | some o =>
      have hanswered : (app.answered
          (o.handleKey runner app.revisions.checked app.calls key)).Anchored := by
        intro p hp
        obtain rfl := Option.some.inj hp
        exact (h o hoperation).handleKey runner app.revisions.checked key
      have hnone : (o.handleKey runner app.revisions.checked app.calls key).outcome.deeds.filterMap
          Command.lookUp? = [] := by
        rcases o.deeds_handleKey runner app.revisions.checked app.calls key with
          ⟨-, hdeeds⟩ | ⟨-, -, -, -, hdeeds⟩ | ⟨command, -, hasks, -, hdeeds⟩
        · rw [hdeeds, List.filterMap_nil]
        · rw [hdeeds, List.filterMap_nil]
        · rw [hdeeds]
          cases hasks <;> rfl
      simp only [App.operationKey, hoperation]
      exact .of_adds (adds_applyOutcome runner _ _) hnone
        ((kept_anchoredTo runner _).applyOutcome hanswered _)

theorem Anchored.handleKey (h : app.Anchored) (runner : Runner) (key : Key) :
    (app.handleKey runner key).Anchored := by
  have hroute := app.route_handleKey runner key
  generalize app.handleKey runner key = after at hroute
  cases hroute with
  | quits => exact h
  | closesHelp => exact h
  | underHelp => exact h
  | operation => exact h.operationKey runner key
  | panel =>
      obtain ⟨ds, hadds, hds⟩ := app.adds_panelKey runner key
      refine .of_adds hadds ?_ (AnchoredTo.panelKey h)
      rcases hds with rfl | ⟨b, command, -, hasks, rfl⟩
      · rfl
      · rw [List.filterMap_cons_none (Command.lookUp?_of_isChange hasks.isChange), List.filterMap_nil]
  | everywhere => exact .of_adds (app.adds_globalKey runner key) rfl (AnchoredTo.globalKey h)
  | log => exact .of_adds (.of_eq (app.calls_revisionsKey key)) rfl (AnchoredTo.revisionsKey h key)

end App

variable {runner : Runner} {config : Config} {theme : Theme} {phase : Phase} {app : App}

theorem Session.anchored (h : Session runner config theme phase app) : app.Anchored := by
  induction h with
  | start =>
      intro o ho
      rw [App.start, App.operation_reloadRevisions] at ho
      contradiction
  | tick before pumps ih => exact ih.of_onlyTells (App.onlyTells_pumped _ _ _)
  | draw before width height ih => exact ih.of_onlyTells (App.onlyTells_draw _ width height)
  | key before key ih => exact ih.handleKey runner key
  | mouse before event ih => exact ih.of_onlyTells (App.onlyTells_handleMouse _ event)
  | noEvent before ih => exact ih
  | produce before ih => exact ih
  | expireToast before ih => exact ih

/-- A bookmark is created by Enter when a name has been entered, on the revision that was looked up
last, and with the words of the text as its name. -/
theorem bookmark_is_created_as_entered {before after : Calls} {call : Call} {name revision : String}
    (h : Session runner config theme phase app) (hcalls : app.calls = before ++ call :: after)
    (hcreate : call.command = .createBookmark name revision) :
    ((lookUps before).getLast? = some revision ∧ name ≠ "" ∧ name.length ≤ 120 ∧
        ∀ c ∈ name.toList, Text.isBlank c = false) ∧
      ∃ (pressed : App) (key : Key) (c : BookmarkCreation),
        Session runner config theme .drawn pressed ∧ pressed.operation = some (.create c) ∧
          c.stage = .entering ∧ key.code = .enter ∧
          name = String.ofList (List.intercalate ['-'] (Text.words c.input.value)) ∧
          pressed.calls <+: before ∧ before ++ [call] <+: (pressed.handleKey runner key).calls ∧
          Leads runner (.begun, pressed.handleKey runner key) (phase, app) := by
  have hdeed : call.command.isLoad = false := by rw [hcreate]; rfl
  obtain ⟨pressed, key, hpressed, hdeeds, hbefore, hearlier, hcall, hleads⟩ :=
    origin_of_deed h hcalls hdeed
  rw [hcreate] at hdeeds
  have hasks : pressed.Asks key (.createBookmark name revision) := by
    cases hdeeds with
    | change asks => exact asks
  cases hasks with
  | panel _ _ _ _ asks => exact (asks.ne_create rfl).elim
  | operation hoperation henter asks =>
      cases asks with
      | @create c target hstage htarget hnamed =>
          have hanchored := hpressed.anchored _ hoperation
          obtain ⟨target', htarget', hlooked⟩ := hanchored.2 hstage
          obtain rfl : target = target' := Option.some.inj (htarget.symm.trans htarget')
          refine ⟨⟨?_, hnamed, ?_, ?_⟩, pressed, key, c, hpressed, hoperation, hstage, henter, rfl,
            hearlier, hcall, hleads⟩
          · rw [lookUps_eq, hbefore, ← lookUps_eq]
            exact hlooked
          · exact c.input.length_name_le.trans hanchored.1
          · intro d hd
            rw [NameInput.name, String.toList_ofList] at hd
            exact NameInput.isBlank_of_mem_normalize hd

/-! A log of one row, and a name of two words for a bookmark on it. -/

def oneRow : Source :=
  [.bytes (Text.Utf8.bytes "* \x1B[1mk\x1B[m x\n")]

def oneRowLine : Line :=
  [.plain "* ", ⟨"k", Style.plain.withModifier .bold⟩, .plain " x"]

def oneRowRunner : Runner :=
  Script.runner ⟨[.ok oneRow], []⟩

theorem transcript_oneRow : oneRow.transcript = ⟨[oneRowLine], none⟩ := by
  rw [Source.transcript_eq_ofChunks, Source.chunks_eq]
  decide +kernel

theorem session_of_oneRow :
    Session oneRowRunner .initial ⟨none⟩ .begun (.started .initial ⟨none⟩ [oneRowLine]) := by
  have hstream : oneRowRunner.stream [] Config.initial.logCommand = .ok oneRow := rfl
  have hstarted := Session.started hstream ⟨none⟩
  rw [transcript_oneRow] at hstarted
  exact hstarted

theorem bookmark_is_created_as_entered_of_two_words :
    ∃ app before after, Session oneRowRunner .initial ⟨none⟩ .begun app ∧
      app.calls = before ++ .run (.createBookmark "x-y" "k") :: after ∧
      (lookUps before).getLast? = some "k" ∧
      ∃ c : BookmarkCreation,
        "x-y" = String.ofList (List.intercalate ['-'] (Text.words c.input.value)) := by
  have loaded := session_of_oneRow.produce.produce.produce.produce.tick_turn
    (by decide +kernel) (by decide +kernel)
  have shown := Session.key (.draw loaded 80 24) (.plain (.char 'b'))
  have creating := shown.keyRound (by decide +kernel) (.char 'c')
  have entering := creating.keyRound (by decide +kernel) .enter
  have typed := ((entering.keyRound (by decide +kernel) (.char 'x')).keyRound
    (by decide +kernel) (.char ' ')).keyRound (by decide +kernel) (.char 'y')
  have created := typed.keyRound (by decide +kernel) .enter
  generalize happ : App.keyRound _ _ .enter = app at created
  have hcalls : app.calls =
      [.stream (.log none none), .run .listBookmarks, .run (.listMovable "k")] ++
        .run (.createBookmark "x-y" "k") :: [.stream (.log none none), .run .listBookmarks] := by
    rw [← happ]
    decide +kernel
  obtain ⟨⟨hlooked, -⟩, -, -, c, -, -, -, -, hname, -⟩ :=
    bookmark_is_created_as_entered created hcalls rfl
  exact ⟨app, _, _, created, hcalls, hlooked, c, hname⟩

end RevisionGraph
