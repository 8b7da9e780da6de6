import RevisionGraph.Proofs.Accounts
import RevisionGraph.Proofs.Following
import RevisionGraph.Proofs.Reloading

/-!
# Loading ahead

A list is due for more rows when they are to come, none are asked for, and few are left below the
cursor and the window (`RevisionList.Due`). A check asks for them. Whatever changes the list checks
afterwards, except for a draw: it may show rows that the last frame did not, or be the first to show
any. So the list becomes due exactly when the window outgrows the rows that the last check found to
be enough (`Outgrown`), and it stays so until something else makes it check.
-/

namespace RevisionGraph

namespace RevisionList

variable {v w : RevisionList}

/-! ## Lists and their requests -/

def lastShown (v : RevisionList) : Nat :=
  v.viewport.layout.lastIndex?.getD 0

/-- More rows are to come and none are asked for, though few are left. -/
def Due (v : RevisionList) : Prop :=
  v.isLoading = true ∧ v.awaiting = false ∧ v.rows.length ≤ v.horizon + loadAhead

/-- Nothing of a list has changed that bears on its requests, except perhaps the window. -/
structure Rests (v w : RevisionList) : Prop where
  rows : w.rows = v.rows
  cursor : w.cursor = v.cursor
  isLoading : w.isLoading = v.isLoading
  awaiting : w.awaiting = v.awaiting

structure Stays (v w : RevisionList) : Prop extends Rests v w where
  viewport : w.viewport = v.viewport

theorem Rests.refl (v : RevisionList) : v.Rests v :=
  ⟨rfl, rfl, rfl, rfl⟩

theorem Rests.trans {u : RevisionList} (hvw : v.Rests w) (hwu : w.Rests u) : v.Rests u where
  rows := hwu.rows.trans hvw.rows
  cursor := hwu.cursor.trans hvw.cursor
  isLoading := hwu.isLoading.trans hvw.isLoading
  awaiting := hwu.awaiting.trans hvw.awaiting

theorem Stays.refl (v : RevisionList) : v.Stays v :=
  ⟨.refl v, rfl⟩

theorem Stays.trans {u : RevisionList} (hvw : v.Stays w) (hwu : w.Stays u) : v.Stays u :=
  ⟨hvw.toRests.trans hwu.toRests, hwu.viewport.trans hvw.viewport⟩

theorem Rests.cursor_far (h : v.Rests w) (hfar : v.horizon + loadAhead < v.rows.length) :
    w.cursor + loadAhead < w.rows.length := by
  have hcursor : v.cursor ≤ v.horizon := Nat.le_max_right ..
  rw [h.cursor, h.rows]
  omega

theorem Rests.lastShown_near (h : v.Rests w) (hfar : v.horizon + loadAhead < v.rows.length)
    (hdue : w.Due) : w.rows.length ≤ w.lastShown + loadAhead := by
  have hcursor := h.cursor_far hfar
  have hnear : w.rows.length ≤ max w.lastShown w.cursor + loadAhead := hdue.2.2
  omega

theorem Stays.due_iff (h : v.Stays w) : w.Due ↔ v.Due := by
  simp only [Due, horizon, h.rows, h.cursor, h.isLoading, h.awaiting, h.viewport]

theorem stays_produce (v : RevisionList) : v.Stays (v.perform .produce) := by
  refine ⟨⟨rfl, rfl, ?_, rfl⟩, rfl⟩
  simp [perform, isLoading]

theorem Pumps.stays_of_unchanged {changed : Bool} (h : v.Pumps w changed)
    (hchanged : changed = false) : v.Stays w := by
  induction h with
  | rest turn => exact turn_of_unchanged turn ▸ .refl _
  | more turn later => contradiction
  | produce later ih => exact (stays_produce _).trans (ih hchanged)

theorem rests_draw (v : RevisionList) (area : Rect) (theme : Theme)
    (operation : Option Operation) (follow : Bool) (targets : Targets ScreenTarget) :
    v.Rests (v.draw area theme operation follow targets).1 := by
  obtain ⟨viewport, heq⟩ := v.draw_eq area theme operation follow targets
  rw [heq]
  exact ⟨rfl, rfl, rfl, rfl⟩

/-- A list that is loading has one request unanswered, or none and rows still to come. -/
inductive Fed (v : RevisionList) : Prop
  | idle (stream : v.stream = none)
  | asked {s : Stream} {rest : List Row} (stream : v.stream = some s) (awaiting : v.awaiting = true)
      (pending : s.pending = Batch.plan v.batchSize rest) (account : s.Account 1)
  | supplied {s : Stream} {rest : List Row} (stream : v.stream = some s)
      (awaiting : v.awaiting = false) (replaceNext : v.replaceNext = false)
      (pending : s.pending = Batch.plan v.batchSize rest) (left : rest ≠ [])
      (account : s.Account 0)

namespace Fed

theorem sameLog (h : v.Fed) (hvw : SameLog v w) (hawaiting : w.awaiting = v.awaiting) : w.Fed := by
  obtain ⟨-, hstream, hbatchSize, hreplace⟩ := hvw
  cases h with
  | idle stream => exact .idle (hstream.trans stream)
  | asked stream awaiting pending account =>
      exact .asked (hstream.trans stream) (hawaiting.trans awaiting) (hbatchSize ▸ pending) account
  | supplied stream awaiting replaceNext pending left account =>
      exact .supplied (hstream.trans stream) (hawaiting.trans awaiting)
        (hreplace.trans replaceNext) (hbatchSize ▸ pending) left account

theorem setStream {s t : Stream} (h : v.Fed) (hstream : v.stream = some s)
    (haccount : ∀ {n}, s.Account n → t.Account n ∧ t.pending = s.pending) :
    Fed { v with stream := some t } := by
  cases h with
  | idle stream => simp [hstream] at stream
  | asked stream awaiting pending account =>
      obtain rfl := Option.some.inj (stream.symm.trans hstream)
      obtain ⟨ht, hsame⟩ := haccount account
      exact .asked rfl awaiting (hsame.trans pending) ht
  | supplied stream awaiting replaceNext pending left account =>
      obtain rfl := Option.some.inj (stream.symm.trans hstream)
      obtain ⟨ht, hsame⟩ := haccount account
      exact .supplied rfl awaiting replaceNext (hsame.trans pending) left ht

theorem applyBatch {t : Stream} {batch : Batch} {rest : List Row} (hstream : v.stream = some t)
    (hawaiting : v.awaiting = false) (haccount : t.Account 0)
    (hpending : batch :: t.pending = Batch.plan v.batchSize rest) : (v.applyBatch batch).Fed := by
  obtain ⟨later, -, hlater, -, hlast⟩ := Batch.plan_eq_cons hpending.symm
  have hafter := stream_applyBatch v batch
  cases hmore : batch.hasMore with
  | false => exact .idle (by simpa [hmore] using hafter)
  | true =>
      simp only [hmore, if_true] at hafter hlast
      rw [← batchSize_applyBatch v batch] at hlater
      exact .supplied (hafter.trans hstream) (awaiting_applyBatch hawaiting batch)
        (replaceNext_applyBatch v batch) hlater hlast.2 haccount

theorem takesIn (h : v.Fed) (htakes : v.TakesIn w) : w.Fed := by
  cases htakes with
  | nothing => exact h
  | ending => exact .idle rfl
  | batch hstream hreceive =>
      have hgiven := Stream.pending_of_receive_batch hreceive
      cases h with
      | idle stream => simp [hstream] at stream
      | asked stream awaiting pending account =>
          obtain rfl := Option.some.inj (stream.symm.trans hstream)
          obtain ⟨m, hm, ht⟩ := account.receive hreceive
          obtain rfl := Nat.succ.inj hm
          exact applyBatch rfl rfl ht (hgiven.symm.trans pending)
      | supplied stream awaiting replaceNext pending left account =>
          obtain rfl := Option.some.inj (stream.symm.trans hstream)
          obtain ⟨m, hm, -⟩ := account.receive hreceive
          contradiction

theorem settle (h : v.Fed) : v.settle.Fed := by
  unfold RevisionList.settle
  cases hstream : v.stream with
  | none => exact h.sameLog ⟨rfl, hstream.symm, rfl, rfl⟩ rfl
  | some s =>
      exact h.setStream hstream fun haccount =>
        ⟨haccount.settle, (Stream.later_settle haccount.sound).pending_eq haccount.closed_eq⟩

theorem requestMore (h : v.Fed) : v.requestMore.1.Fed ∧ ¬ v.requestMore.1.Due := by
  cases h with
  | idle stream =>
      rw [requestMore_of_stream_none stream]
      exact ⟨.idle stream, fun hdue => by simp [Due, isLoading, stream] at hdue⟩
  | asked stream awaiting pending account =>
      have hsame : v.requestMore.1 = v := by
        simp [RevisionList.requestMore, stream, awaiting]
      rw [hsame]
      exact ⟨.asked stream awaiting pending account, fun hdue => by simp [Due, awaiting] at hdue⟩
  | supplied stream awaiting replaceNext pending left account =>
      by_cases hfar : v.horizon + loadAhead < v.rows.length
      · rw [requestMore_of_far stream hfar]
        exact ⟨.supplied stream awaiting replaceNext pending left account,
          fun hdue => absurd hdue.2.2 (Nat.not_le_of_lt hfar)⟩
      · obtain ⟨t, hrequest, ht, hsame⟩ := account.exists_request
        rw [requestMore_of_near stream awaiting replaceNext hfar hrequest]
        exact ⟨.asked rfl rfl (hsame.trans pending) ht, fun hdue => by simp [Due] at hdue⟩

theorem requestMore_of_due (h : v.Fed) (hdue : v.Due) : v.requestMore.2 = true := by
  obtain ⟨hloading, hawaiting, hnear⟩ := hdue
  cases h with
  | idle stream => simp [isLoading, stream] at hloading
  | asked stream awaiting => simp [awaiting] at hawaiting
  | supplied stream awaiting replaceNext pending left account =>
      obtain ⟨t, hrequest, -⟩ := account.exists_request
      simp [RevisionList.requestMore, stream, awaiting, replaceNext, Nat.not_lt_of_le hnear, hrequest]

theorem startLoad (v : RevisionList) (source : Source) (select : Option String) :
    (v.startLoad source select).Fed := by
  obtain ⟨t, hrequest, ht, hpending⟩ := (Stream.account_start source v.batchSize).exists_request
  simp only [RevisionList.startLoad, hrequest]
  exact .asked rfl rfl (hpending.trans (Stream.pending_start ..)) ht

theorem produce (h : v.Fed) : (v.perform .produce).Fed := by
  unfold RevisionList.perform
  cases hstream : v.stream with
  | none => exact h.sameLog ⟨rfl, hstream.symm, rfl, rfl⟩ rfl
  | some s => exact h.setStream hstream fun haccount => haccount.produce

theorem perform (h : v.Fed) (action : Action) : (v.perform action).Fed := by
  have hacts := v.acts_perform action
  generalize v.perform action = w at hacts ⊢
  cases hacts with
  | produce => exact h.produce
  | load source select => exact startLoad v source select
  | turn blocking => exact turn_keeps (P := Fed) (fun _ => settle) (fun _ _ => takesIn) h blocking
  | pump blocking => exact pump_keeps (P := Fed) (fun _ => settle) (fun _ _ => takesIn) h blocking
  | requestMore => exact h.requestMore.1
  | aside => exact h.sameLog ⟨rfl, rfl, rfl, rfl⟩ rfl

theorem reaches (h : v.Fed) (hreaches : v.Reaches w) : w.Fed :=
  hreaches.keeps (fun _ => perform) h

end Fed

theorem not_due_startLoad (v : RevisionList) (source : Source) (select : Option String) :
    ¬ (v.startLoad source select).Due := by
  obtain ⟨t, hrequest, -⟩ := (Stream.account_start source v.batchSize).exists_request
  simp [Due, startLoad, hrequest]

/-! ## What a step does to the list -/

def Tends (v w : RevisionList) : Prop :=
  ¬ w.Due ∨ v.Stays w

theorem Tends.trans {u : RevisionList} (hvw : v.Tends w) (hwu : w.Tends u) : v.Tends u := by
  rcases hwu with hnot | hstays
  · exact .inl hnot
  · exact hvw.imp (mt hstays.due_iff.mp) fun hfirst => hfirst.trans hstays

theorem Touch.tends (h : v.Touch w) (hfed : v.Fed) : v.Tends w := by
  cases h with
  | check checked => exact .inr ⟨⟨rfl, rfl, rfl, rfl⟩, rfl⟩
  | load source select => exact .inl (v.not_due_startLoad source select)
  | move index => exact .inl (hfed.perform (.select index)).requestMore.2
  | scroll lines => exact .inl (hfed.perform (.scrollBy lines)).requestMore.2

theorem Touches.tends (h : v.Touches w) (hfed : v.Fed) : v.Tends w := by
  induction h with
  | refl => exact .inr (.refl v)
  | tail before touch ih => exact ih.trans (touch.tends (hfed.reaches (Touches.reaches before)))

end RevisionList

theorem App.tends_pumped {app : App} (hfed : app.revisions.Fed) {revisions : RevisionList}
    {changed : Bool} (pumps : app.revisions.Pumps revisions changed) :
    app.revisions.Tends (app.pumped revisions changed).revisions := by
  cases changed with
  | true => exact .inl (hfed.reaches pumps.reaches).requestMore.2
  | false => exact .inr (pumps.stays_of_unchanged rfl)

variable {runner : Runner} {config : Config} {theme : Theme} {phase : Phase} {app : App}
  {p q : Phase × App} {happening : Happening}

theorem Session.fed (h : Session runner config theme phase app) : app.revisions.Fed :=
  RevisionList.Fed.reaches (.idle rfl) h.reaches

theorem Step.tends_or (h : Step runner p happening q) (hfed : p.2.revisions.Fed) :
    p.2.revisions.Tends q.2.revisions ∨
      ∃ width height, happening = .draw width height ∧ p.2.revisions.Rests q.2.revisions := by
  cases h with
  | tick pumps => exact .inl (App.tends_pumped hfed pumps)
  | draw app width height =>
      refine .inr ⟨width, height, rfl, ?_⟩
      rw [App.revisions_draw]
      exact RevisionList.rests_draw ..
  | key app key => exact .inl ((app.touches_handleKey runner key).tends hfed)
  | mouse app event => exact .inl ((app.touches_handleMouse event).tends hfed)
  | noEvent app => exact .inl (.inr (.refl _))
  | produce phase app => exact .inl (.inr app.revisions.stays_produce)
  | expireToast phase app => exact .inl (.inr (.refl _))

/-! ## Windows that outgrow the rows -/

/-- A step after which the list is as it was, and its window too unless a frame was drawn. -/
def Unchecked (runner : Runner) (p q : Phase × App) : Prop :=
  ∃ happening, Step runner p happening q ∧ p.2.revisions.Rests q.2.revisions ∧
    (q.2.revisions.viewport = p.2.revisions.viewport ∨
      ∃ width height, happening = .draw width height)

/-- More rows were to come, none were asked for, and there were enough below the cursor and the
window. There are too few below the window now, and nothing else has changed. -/
def Outgrown (runner : Runner) (config : Config) (theme : Theme) (q : Phase × App) : Prop :=
  ∃ p : Phase × App, Session runner config theme p.1 p.2 ∧ p.2.revisions.isLoading = true ∧
    p.2.revisions.awaiting = false ∧
    p.2.revisions.horizon + RevisionList.loadAhead < p.2.revisions.rows.length ∧
    Relation.ReflTransGen (Unchecked runner) p q ∧
    q.2.revisions.rows.length ≤ q.2.revisions.lastShown + RevisionList.loadAhead

theorem rests_of_unchecked (h : Relation.ReflTransGen (Unchecked runner) p q) :
    p.2.revisions.Rests q.2.revisions := by
  induction h with
  | refl => exact .refl _
  | tail _ hstep ih =>
      obtain ⟨happening, -, hrests, -⟩ := hstep
      exact ih.trans hrests

namespace Outgrown

theorem due (h : Outgrown runner config theme q) :
    q.2.revisions.Due ∧
      q.2.revisions.cursor + RevisionList.loadAhead < q.2.revisions.rows.length := by
  obtain ⟨p, -, hloading, hawaiting, hfar, hsince, hnear⟩ := h
  have hrests := rests_of_unchecked hsince
  refine ⟨⟨hrests.isLoading.trans hloading, hrests.awaiting.trans hawaiting, ?_⟩,
    hrests.cursor_far hfar⟩
  exact hnear.trans (Nat.add_le_add_right (Nat.le_max_left ..) _)

theorem tail (h : Outgrown runner config theme p) (hstep : Unchecked runner p q)
    (hdue : q.2.revisions.Due) : Outgrown runner config theme q := by
  obtain ⟨origin, hsession, hloading, hawaiting, hfar, hsince, -⟩ := h
  have hsince := hsince.tail hstep
  exact ⟨origin, hsession, hloading, hawaiting, hfar, hsince,
    (rests_of_unchecked hsince).lastShown_near hfar hdue⟩

end Outgrown

theorem Step.outgrown (hstep : Step runner p happening q)
    (hsession : Session runner config theme p.1 p.2)
    (h : p.2.revisions.Due → Outgrown runner config theme p) (hdue : q.2.revisions.Due) :
    Outgrown runner config theme q := by
  rcases hstep.tends_or hsession.fed with (hchecked | hstays) | ⟨width, height, hdraw, hrests⟩
  · contradiction
  · exact (h (hstays.due_iff.mp hdue)).tail
      ⟨happening, hstep, hstays.toRests, .inl hstays.viewport⟩ hdue
  · have hunchecked : Unchecked runner p q :=
      ⟨happening, hstep, hrests, .inr ⟨width, height, hdraw⟩⟩
    by_cases hbefore : p.2.revisions.Due
    · exact (h hbefore).tail hunchecked hdue
    · have hloading := hrests.isLoading.symm.trans hdue.1
      have hawaiting := hrests.awaiting.symm.trans hdue.2.1
      have hfar := Nat.lt_of_not_le fun hnear => hbefore ⟨hloading, hawaiting, hnear⟩
      exact ⟨p, hsession, hloading, hawaiting, hfar, .single hunchecked,
        hrests.lastShown_near hfar hdue⟩

/-- A list becomes due just when a draw shows rows too near to its end, however far the cursor may
be. A check would then send a request, but nothing checks after a draw. -/
theorem due_iff_outgrown (h : Session runner config theme phase app) :
    (app.revisions.Due ↔ Outgrown runner config theme (phase, app)) ∧
      (app.revisions.Due → app.revisions.cursor + RevisionList.loadAhead <
        app.revisions.rows.length ∧ app.revisions.requestMore.2 = true) ∧
      ¬ app.revisions.requestMore.1.Due := by
  have houtgrown : app.revisions.Due → Outgrown runner config theme (phase, app) := by
    refine h.of_steps (fun hdue => ?_) fun hsession ih hstep hdue => hstep.outgrown hsession ih hdue
    have hstart : (App.initial config theme).revisions.Touches
        ((App.initial config theme).reloadRevisions runner none).revisions :=
      App.touches_reloadRevisions .refl none
    rcases hstart.tends (.idle rfl) with hnot | hstays
    · contradiction
    · exact absurd (hstays.due_iff.mp hdue).1 Bool.false_ne_true
  refine ⟨⟨houtgrown, fun h => h.due.1⟩, fun hdue => ⟨(houtgrown hdue).due.2, ?_⟩,
    h.fed.requestMore.2⟩
  exact h.fed.requestMore_of_due hdue

/-! Twelve rows, of which eleven come at first, and a screen that shows them all. -/

def twelveRows : Source :=
  List.replicate 12 (.bytes (Text.Utf8.bytes "* \x1B[1mk\x1B[m x\n"))

def twelveRowsRunner : Runner :=
  Script.runner ⟨[.ok twelveRows], []⟩

def elevenAtATime : Config :=
  { Config.initial with batchSize := 10 }

theorem transcript_twelveRows :
    twelveRows.transcript = ⟨List.replicate 12 (rowLine "k" " x"), none⟩ := by
  rw [Source.transcript_eq_ofChunks, Source.chunks_eq]
  decide +kernel

/-- The producer reads all lines and delivers the first batch, which a tick takes in. -/
def tickedApp : App :=
  let started := App.started elevenAtATime ⟨none⟩ (List.replicate 12 (rowLine "k" " x"))
  let read := App.produce^[15] started
  read.pumped ((read.revisions.turn false).1.turn false).1 true

theorem session_tickedApp : Session twelveRowsRunner elevenAtATime ⟨none⟩ .ticked tickedApp := by
  have hstream : twelveRowsRunner.stream [] elevenAtATime.logCommand = .ok twelveRows := rfl
  have started := Session.started hstream ⟨none⟩
  rw [transcript_twelveRows] at started
  exact (started.produces 15).tick_turn (by decide +kernel) (by decide +kernel)

theorem due_iff_outgrown_of_tall_screen :
    Session twelveRowsRunner elevenAtATime ⟨none⟩ .drawn (tickedApp.draw 80 24).1 ∧
      Outgrown twelveRowsRunner elevenAtATime ⟨none⟩ (.drawn, (tickedApp.draw 80 24).1) := by
  have drawn := session_tickedApp.draw 80 24
  exact ⟨drawn, (due_iff_outgrown drawn).1.mp
    ⟨by decide +kernel, by decide +kernel, by decide +kernel⟩⟩

/-- The last of eleven rows is on the screen, the twelfth has not come and is not asked for. -/
theorem no_request_after_tall_screen :
    ∃ app, Session twelveRowsRunner elevenAtATime ⟨none⟩ .drawn app ∧
      app.revisions.isLoading = true ∧ app.revisions.awaiting = false ∧
      ¬ max app.revisions.cursor app.revisions.lastShown + RevisionList.loadAhead <
        app.revisions.rows.length := by
  refine ⟨_, session_tickedApp.draw 80 24, ?_, ?_, ?_⟩
  · decide +kernel
  · decide +kernel
  · decide +kernel

end RevisionGraph
