import RevisionGraph.Proofs.LoadingAhead
import RevisionGraph.View.BookmarkPanel

/-!
# Consistent lists

A list keeps apart what it knows of its rows, its stream and the revision that it looks for. After
every run of actions these agree (`RevisionList.Consistent`): the cursor is on a row if there is
one, a batch is awaited just while one more was requested than received, and no row that is there is
still looked for. The cursor of the bookmark panel is on a bookmark in the same way
(`BookmarkPanel.Consistent`).

The requests and batches are those of the stream that is open. They are written down as the list
takes its actions (`RevisionList.exchange`), and are what is seen of a run of that stream
(`Stream.Shows`).
-/

namespace RevisionGraph

theorem cursor_of_le {α : Type} {cursor : Nat} {entries : List α}
    (h : cursor ≤ entries.length - 1) :
    (cursor < entries.length ∨ cursor = 0 ∧ entries = []) ∧
      (entries[cursor]?.isSome = true ↔ entries ≠ []) := by
  cases entries with
  | nil => exact ⟨.inr ⟨Nat.le_zero.mp h, rfl⟩, by simp⟩
  | cons entry rest =>
      have hlt : cursor < (entry :: rest).length := Nat.lt_succ_of_le h
      exact ⟨.inl hlt, by simp [List.getElem?_eq_getElem hlt]⟩

/-! ## What is seen of a stream -/

namespace Stream

variable {s t : Stream} {source : Source} {n : Nat} {events : List Event}

/-- A run without a close has led to this stream, and these events were seen of it. -/
def Shows (s : Stream) (source : Source) (n : Nat) (events : List Event) : Prop :=
  ∃ moves, .close ∉ moves ∧ (start source n).performAll moves = (s, events)

theorem shows_start (source : Source) (n : Nat) : (start source n).Shows source n [] :=
  ⟨[], List.not_mem_nil, rfl⟩

namespace Shows

theorem perform (h : s.Shows source n events) (move : Move) (hmove : move ≠ .close) :
    (s.perform move).1.Shows source n (events ++ (s.perform move).2.toList) := by
  obtain ⟨moves, hmoves, hrun⟩ := h
  refine ⟨moves ++ [move], ?_, ?_⟩
  · simp [hmoves, hmove.symm]
  · rw [performAll_concat, hrun]

theorem produce (h : s.Shows source n events) : (s.step.getD s).Shows source n events := by
  have hmove := h.perform .produce (by decide)
  rwa [Stream.perform, Option.toList_none, List.append_nil] at hmove

theorem settle (h : s.Shows source n events) : s.settle.Shows source n events := by
  have hruns := s.runs_settle
  generalize s.settle = t at hruns ⊢
  induction hruns with
  | refl => exact h
  | tail _ hstep ih =>
      have hnext := ih.produce
      rwa [hstep, Option.getD_some] at hnext

theorem request (h : s.Shows source n events) :
    s.request.1.Shows source n (events ++ if s.request.2 then [.requested] else []) := by
  have hmove := h.perform .request (by decide)
  cases hsent : s.request.2 with
  | false => simpa [Stream.perform, hsent] using hmove
  | true => simpa [Stream.perform, hsent] using hmove

theorem receive (h : s.Shows source n events) :
    s.receive.1.Shows source n (events ++ (Event.ofPoll s.receive.2).toList) :=
  h.perform .poll (by decide)

end Shows

end Stream

/-! ## What a list exchanges with its stream -/

namespace RevisionList

variable {v w : RevisionList} {events : List Stream.Event}

def delivered (v : RevisionList) : List Stream.Event :=
  (v.stream.bind fun s => Stream.Event.ofPoll s.receive.2).toList

def turnEvents (v : RevisionList) (blocking : Bool) : List Stream.Event :=
  (if blocking && v.awaiting then v.settle else v).delivered

def pumpEvents (v : RevisionList) (blocking : Bool) : List Stream.Event :=
  v.turnEvents blocking ++
    match _ : v.turn blocking with
    | (w, true) => w.pumpEvents blocking
    | (_, false) => []
termination_by v.work
decreasing_by exact work_turn_lt ‹_›

def requestEvents (sent : Bool) : List Stream.Event :=
  if sent then [.requested] else []

/-- The events of the open stream, by an action and the events before it. A load opens another
stream, of which the first request is all that has been seen. -/
def eventsAfter (v : RevisionList) (events : List Stream.Event) : Action → List Stream.Event
  | .load source select => requestEvents (v.startLoad source select).awaiting
  | .turn blocking => events ++ v.turnEvents blocking
  | .pump blocking => events ++ v.pumpEvents blocking
  | .requestMore => events ++ requestEvents v.requestMore.2
  | .produce | .select .. | .moveCursor .. | .selectFirst | .selectLast | .scrollBy ..
  | .toggleSelected | .toggleRange .. | .check .. | .draw .. => events

/-- The requests sent to the stream that is open after the actions, and the batches received from
it, in the order in which they came. -/
def exchange (v : RevisionList) (events : List Stream.Event) : List Action → List Stream.Event
  | [] => events
  | action :: actions => (v.perform action).exchange (v.eventsAfter events action) actions

/-! ## The balance of requests and batches -/

theorem Fed.awaiting_of_receive {s t : Stream} {batch : Batch} (h : v.Fed)
    (hstream : v.stream = some s) (hreceive : s.receive = (t, .batch batch)) :
    v.awaiting = true := by
  cases h with
  | idle stream => simp [hstream] at stream
  | asked stream awaiting => exact awaiting
  | supplied stream awaiting replaceNext pending left account =>
      obtain rfl := Option.some.inj (stream.symm.trans hstream)
      obtain ⟨m, hm, -⟩ := account.receive hreceive
      contradiction

theorem Fed.closed_eq {s : Stream} (h : v.Fed) (hstream : v.stream = some s) :
    s.closed = false := by
  cases h with
  | idle stream => simp [hstream] at stream
  | asked stream awaiting pending account =>
      obtain rfl := Option.some.inj (stream.symm.trans hstream)
      exact account.closed_eq
  | supplied stream awaiting replaceNext pending left account =>
      obtain rfl := Option.some.inj (stream.symm.trans hstream)
      exact account.closed_eq

/-- The events are those of the stream, and one more request was sent than batches received while
the list awaits one. -/
structure Balanced (v : RevisionList) (events : List Stream.Event) : Prop where
  fed : v.Fed
  shows : ∀ s, v.stream = some s → ∃ source, s.Shows source v.batchSize events
  count_requested : v.isLoading = true →
    events.count .requested = (Stream.received events).length + if v.awaiting then 1 else 0

namespace Balanced

theorem of_idle (h : v.stream = none) : v.Balanced events where
  fed := .idle h
  shows s hstream := by simp [h] at hstream
  count_requested hloading := by simp [isLoading, h] at hloading

theorem sameLog (h : v.Balanced events) (hvw : SameLog v w) (hawaiting : w.awaiting = v.awaiting) :
    w.Balanced events where
  fed := h.fed.sameLog hvw hawaiting
  shows s hstream := by
    rw [hvw.batchSize]
    exact h.shows s (hvw.stream.symm.trans hstream)
  count_requested hloading := by
    rw [hawaiting]
    refine h.count_requested ?_
    rwa [isLoading, ← hvw.stream]

theorem startLoad (v : RevisionList) (source : Source) (select : Option String) :
    (v.startLoad source select).Balanced (requestEvents (v.startLoad source select).awaiting) where
  fed := Fed.startLoad v source select
  shows s hstream := by
    obtain rfl := Option.some.inj hstream
    exact ⟨source, (Stream.shows_start source v.batchSize).request⟩
  count_requested _ := by
    unfold requestEvents
    split <;> rfl

theorem settle (h : v.Balanced events) : v.settle.Balanced events where
  fed := h.fed.settle
  shows s hstream := by
    obtain ⟨t, ht, rfl⟩ := Option.map_eq_some_iff.mp hstream
    obtain ⟨source, hshows⟩ := h.shows t ht
    exact ⟨source, hshows.settle⟩
  count_requested hloading := by
    refine h.count_requested ?_
    simpa [isLoading, RevisionList.settle] using hloading

theorem produce (h : v.Balanced events) : (v.perform .produce).Balanced events where
  fed := h.fed.produce
  shows s hstream := by
    obtain ⟨t, ht, rfl⟩ := Option.map_eq_some_iff.mp hstream
    obtain ⟨source, hshows⟩ := h.shows t ht
    exact ⟨source, hshows.produce⟩
  count_requested hloading := by
    refine h.count_requested ?_
    simpa [isLoading, RevisionList.perform] using hloading

theorem requestMore (h : v.Balanced events) :
    v.requestMore.1.Balanced (events ++ requestEvents v.requestMore.2) := by
  have hfed := h.fed.requestMore.1
  unfold RevisionList.requestMore at hfed ⊢
  cases hstream : v.stream with
  | none => simpa [requestEvents] using h
  | some s =>
      simp only [hstream] at hfed ⊢
      split
      · simpa [requestEvents] using h
      · next hready =>
          simp only [hready] at hfed
          have hawaiting : v.awaiting = false := by
            simp only [Bool.or_eq_true, not_or] at hready
            exact Bool.eq_false_iff.mpr hready.1.1
          have hcount := h.count_requested (by simp [isLoading, hstream])
          obtain ⟨source, hshows⟩ := h.shows s hstream
          refine ⟨hfed, fun t ht => ?_, fun _ => ?_⟩
          · obtain rfl := Option.some.inj ht
            exact ⟨source, hshows.request⟩
          · rw [hawaiting] at hcount
            cases hsent : s.request.2 with
            | false => simpa [requestEvents, hsent] using hcount
            | true => simpa [requestEvents, hsent] using hcount

theorem takeIn (h : v.Balanced events) : v.takeIn.1.Balanced (events ++ v.delivered) := by
  have hfed := h.fed.takesIn (takesIn_takeIn v)
  unfold RevisionList.takeIn at hfed ⊢
  unfold delivered
  cases hstream : v.stream with
  | none => simpa using h
  | some s =>
      simp only [hstream, Option.map_some, Option.bind_some] at hfed ⊢
      obtain ⟨source, hshows⟩ := h.shows s hstream
      replace hshows := hshows.receive
      cases hreceive : s.receive with
      | mk t poll =>
          rw [hreceive] at hfed hshows
          cases poll with
          | pending => simpa [Stream.Event.ofPoll] using h
          | finished => exact .of_idle rfl
          | batch batch =>
              have hawaiting := h.fed.awaiting_of_receive hstream hreceive
              have hcount := h.count_requested (by simp [isLoading, hstream])
              refine ⟨hfed, fun u hu => ?_, fun _ => ?_⟩
              · have hafter := stream_applyBatch { v with stream := some t, awaiting := false } batch
                rw [hu] at hafter
                split at hafter
                · obtain rfl := Option.some.inj hafter
                  rw [batchSize_applyBatch]
                  exact ⟨source, hshows⟩
                · contradiction
              · rw [hawaiting] at hcount
                rw [awaiting_applyBatch rfl]
                simpa [Stream.Event.ofPoll] using hcount

theorem turn (h : v.Balanced events) (blocking : Bool) :
    (v.turn blocking).1.Balanced (events ++ v.turnEvents blocking) := by
  unfold RevisionList.turn turnEvents
  split
  · exact h.settle.takeIn
  · exact h.takeIn

theorem pump (h : v.Balanced events) (blocking : Bool) :
    (v.pump blocking).1.Balanced (events ++ v.pumpEvents blocking) := by
  fun_induction RevisionList.pump v blocking generalizing events with
  | case1 v w hturn ih =>
      have hw := h.turn blocking
      rw [hturn] at hw
      have hrest := ih hw
      rw [List.append_assoc] at hrest
      rw [pumpEvents, hturn]
      exact hrest
  | case2 v w hturn =>
      have hw := h.turn blocking
      rw [hturn] at hw
      rw [pumpEvents, hturn, List.append_nil]
      exact hw

theorem perform (h : v.Balanced events) (action : Action) :
    (v.perform action).Balanced (v.eventsAfter events action) := by
  have hacts := v.acts_perform action
  cases action with
  | produce => exact h.produce
  | load source select => exact startLoad v source select
  | turn blocking => exact h.turn blocking
  | pump blocking => exact h.pump blocking
  | requestMore => exact h.requestMore
  | select | moveCursor | selectFirst | selectLast | scrollBy | toggleSelected | toggleRange | check
  | draw =>
      generalize v.perform _ = w at hacts ⊢
      cases hacts
      exact h.sameLog ⟨rfl, rfl, rfl, rfl⟩ rfl

theorem performAll (h : v.Balanced events) (actions : List Action) :
    (v.performAll actions).Balanced (v.exchange events actions) := by
  induction actions generalizing v events with
  | nil => exact h
  | cons action actions ih => exact ih (h.perform action)

end Balanced

/-! ## Flags and the revision looked for -/

/-- Without a stream nothing is awaited or about to be replaced, and no row of the load at hand is
still looked for. -/
structure Tidy (v : RevisionList) : Prop where
  idle : v.stream = none → v.awaiting = false ∧ v.replaceNext = false
  unnamed : ∀ name, v.pendingSelection = some name → v.replaceNext = false →
    ∀ row ∈ v.rows, isNamed name row = false

theorem not_isNamed_of_selectPending {name : String}
    (h : v.selectPending.pendingSelection = some name) :
    ∀ row ∈ v.selectPending.rows, isNamed name row = false := by
  unfold selectPending at h ⊢
  split at h
  · next habsent =>
      rw [h, Option.bind_some] at habsent
      exact List.findIdx?_eq_none_iff.mp habsent
  · simp at h

namespace Tidy

theorem of_eq (h : v.Tidy) (hstream : w.stream.isSome = v.stream.isSome)
    (hawaiting : v.stream = none → w.awaiting = v.awaiting)
    (hreplace : w.replaceNext = v.replaceNext)
    (hpending : w.pendingSelection = v.pendingSelection) (hrows : w.rows = v.rows) :
    w.Tidy := by
  constructor
  · intro hnone
    have hidle : v.stream = none := by simpa [hnone] using hstream.symm
    rw [hreplace, hawaiting hidle]
    exact h.idle hidle
  · rw [hreplace, hpending, hrows]
    exact h.unnamed

theorem takesIn (h : v.Tidy) (htakes : v.TakesIn w) : w.Tidy := by
  cases htakes with
  | nothing => exact h
  | ending =>
      refine ⟨fun _ => ⟨rfl, rfl⟩, fun name hname => ?_⟩
      simp [finishLoad, clampCursor] at hname
  | batch =>
      refine ⟨fun _ => ⟨awaiting_applyBatch rfl _, replaceNext_applyBatch ..⟩, ?_⟩
      intro name hname _
      simp only [applyBatch] at hname ⊢
      split at hname
      · next hmore =>
          rw [if_pos hmore]
          exact not_isNamed_of_selectPending hname
      · simp [finishLoad, clampCursor] at hname

theorem perform (h : v.Tidy) (action : Action) : (v.perform action).Tidy := by
  have hsettle (u : RevisionList) (hu : u.Tidy) : u.settle.Tidy :=
    hu.of_eq (by simp [RevisionList.settle]) (fun _ => rfl) rfl rfl rfl
  have hacts := v.acts_perform action
  generalize v.perform action = w at hacts ⊢
  cases hacts with
  | produce => exact h.of_eq (by simp [RevisionList.perform]) (fun _ => rfl) rfl rfl rfl
  | load source select =>
      exact ⟨fun hnone => absurd hnone (by simp [startLoad]),
        fun _ _ hreplace => absurd hreplace (by simp [startLoad])⟩
  | turn blocking => exact turn_keeps (P := Tidy) hsettle (fun _ _ => takesIn) h blocking
  | pump blocking => exact pump_keeps (P := Tidy) hsettle (fun _ _ => takesIn) h blocking
  | requestMore =>
      have hidle (hnone : v.stream = none) : v.requestMore.1.awaiting = v.awaiting :=
        congrArg awaiting (requestMore_of_stream_none hnone)
      obtain ⟨stream, awaiting, heq, hstream⟩ := v.requestMore_eq
      rw [heq] at hidle ⊢
      exact h.of_eq hstream hidle rfl rfl rfl
  | aside => exact h.of_eq rfl (fun _ => rfl) rfl rfl rfl

end Tidy

/-! ## Consistency -/

/-- What a list says of itself is true, and these are the events of its stream. -/
structure Consistent (v : RevisionList) (events : List Stream.Event) : Prop where
  cursor : v.cursor < v.rows.length ∨ v.cursor = 0 ∧ v.rows = []
  selected : v.selected.isSome = true ↔ v.rows ≠ []
  exchange : ∀ s, v.stream = some s → s.closed = false ∧
    (∃ source, s.Shows source v.batchSize events) ∧
    events.count .requested = (Stream.received events).length + if v.awaiting then 1 else 0
  loading : v.awaiting = true ∨ v.replaceNext = true → v.isLoading = true
  pending : ∀ name, v.pendingSelection = some name → v.replaceNext = false →
    ∀ row ∈ v.rows, isNamed name row = false

theorem Balanced.consistent (h : v.Balanced events) (htidy : v.Tidy)
    (hcursor : v.cursor ≤ v.lastIndex) : v.Consistent events := by
  obtain ⟨hwithin, hselected⟩ := cursor_of_le hcursor
  refine ⟨hwithin, ?_, fun s hs => ⟨h.fed.closed_eq hs, h.shows s hs, ?_⟩, ?_, htidy.unnamed⟩
  · rwa [selected, Option.isSome_map]
  · exact h.count_requested (by simp [isLoading, hs])
  · intro hbusy
    cases hstream : v.stream with
    | some s => simp [isLoading, hstream]
    | none =>
        obtain ⟨hawaiting, hreplace⟩ := htidy.idle hstream
        simp [hawaiting, hreplace] at hbusy

end RevisionList

/-! ## The bookmark panel -/

namespace BookmarkPanel

inductive Action where
  | load (answer : Except RunError (List UInt8))
  | setBookmarks (bookmarks : List Bookmark)
  | select (index : Nat)
  | moveCursor (delta : Int)
  | key (remote : String) (key : Key)
  | setFocus (focused : Bool)
  | toggleVisible
  | startMode (mode : PanelMode) (target : Option Commit)
  | setTarget (target : Option Commit)
  | endMode
  | draw (area : Rect) (theme : Theme) (targets : Targets ScreenTarget)

def perform (p : BookmarkPanel) : Action → BookmarkPanel
  | .load answer => (p.load answer).1
  | .setBookmarks bookmarks => p.setBookmarks bookmarks
  | .select index => p.select index
  | .moveCursor delta => p.moveCursor delta
  | .key remote key => (p.handleKey remote key).1
  | .setFocus focused => p.setFocus focused
  | .toggleVisible => p.toggleVisible
  | .startMode mode target => p.startMode mode target
  | .setTarget target => p.setTarget target
  | .endMode => p.endMode
  | .draw area theme targets => (p.draw area theme targets).1

def performAll (p : BookmarkPanel) (actions : List Action) : BookmarkPanel :=
  actions.foldl perform p

variable {p : BookmarkPanel}

theorem cursor_setBookmarks_le (p : BookmarkPanel) (bookmarks : List Bookmark) :
    (p.setBookmarks bookmarks).cursor ≤ (p.setBookmarks bookmarks).lastIndex :=
  Nat.min_le_right ..

theorem cursor_moveCursor_le (p : BookmarkPanel) (delta : Int) :
    (p.moveCursor delta).cursor ≤ (p.moveCursor delta).lastIndex :=
  Nat.min_le_right ..

theorem cursor_handleKey_le (h : p.cursor ≤ p.lastIndex) (remote : String) (key : Key) :
    (p.handleKey remote key).1.cursor ≤ (p.handleKey remote key).1.lastIndex := by
  simp only [handleKey]
  split
  · exact h
  · exact cursor_moveCursor_le ..
  · exact cursor_moveCursor_le ..
  · exact cursor_moveCursor_le ..
  · exact cursor_moveCursor_le ..
  · exact Nat.zero_le _
  · exact Nat.zero_le _
  · exact Nat.le_refl _
  · exact Nat.le_refl _
  · exact h
  · simp only [startMoving]
    split <;> exact h
  · exact h
  · exact h
  · exact h

theorem cursor_perform_le (h : p.cursor ≤ p.lastIndex) (action : Action) :
    (p.perform action).cursor ≤ (p.perform action).lastIndex := by
  cases action with
  | load answer =>
      cases answer with
      | ok output => exact cursor_setBookmarks_le ..
      | error e => exact h
  | setBookmarks bookmarks => exact cursor_setBookmarks_le ..
  | select index =>
      simp only [perform, select]
      split
      · next hindex => exact Nat.le_sub_one_of_lt hindex
      · exact h
  | moveCursor delta => exact cursor_moveCursor_le ..
  | key remote key => exact cursor_handleKey_le h remote key
  | setFocus | toggleVisible | startMode | setTarget | endMode => exact h
  | draw area theme targets =>
      simp only [perform, draw]
      split <;> exact h

theorem cursor_performAll_le (h : p.cursor ≤ p.lastIndex) (actions : List Action) :
    (p.performAll actions).cursor ≤ (p.performAll actions).lastIndex := by
  induction actions generalizing p with
  | nil => exact h
  | cons action actions ih => exact ih (cursor_perform_le h action)

structure Consistent (p : BookmarkPanel) : Prop where
  cursor : p.cursor < p.bookmarks.length ∨ p.cursor = 0 ∧ p.bookmarks = []
  selected : p.selected.isSome = true ↔ p.bookmarks ≠ []

end BookmarkPanel

/-- The list and the panel are consistent after any actions, steps of the producer among them. -/
theorem consistent_performAll (batchSize : Nat) (actions : List RevisionList.Action)
    (panelActions : List BookmarkPanel.Action) :
    let start := RevisionList.initial batchSize
    (start.performAll actions).Consistent (start.exchange [] actions) ∧
      (BookmarkPanel.initial.performAll panelActions).Consistent := by
  intro start
  have hreaches : start.Reaches (start.performAll actions) := ⟨actions, rfl⟩
  have hbalanced : start.Balanced [] := .of_idle rfl
  have htidy : start.Tidy :=
    ⟨fun _ => ⟨rfl, rfl⟩, fun _ hname => absurd hname (Option.some_ne_none _).symm⟩
  constructor
  · exact (hbalanced.performAll actions).consistent
      (hreaches.keeps (fun _ => RevisionList.Tidy.perform) htidy)
      (hreaches.cursor_le (Nat.le_refl 0))
  · obtain ⟨hwithin, hselected⟩ :=
      cursor_of_le (BookmarkPanel.cursor_performAll_le (p := .initial) (Nat.le_refl 0) panelActions)
    exact ⟨hwithin, hselected⟩

end RevisionGraph
