import RevisionGraph.Proofs.Joining

/-!
# Draining a stream

Draining asks for a batch and waits for it until a batch says that there are no more, or until a
request is refused. The producer goes on all the while, so there is a `Drain.Step` for each thing
that can happen next. Requests that were sent before are as many at each round, since a round sends
one and receives one batch. If there are two, the producer can hand over the last batch, take the
next request for the signal that ends it and be gone before the batch is asked for.
-/

namespace RevisionGraph

inductive Drain.Stage where
  | asking
  | waiting
  | finished
  deriving DecidableEq, Repr

structure Drain where
  stage : Drain.Stage
  stream : Stream
  rows : List Row

namespace Drain

def start (s : Stream) : Drain :=
  ⟨.asking, s, []⟩

inductive Step (d : Drain) : Drain → Prop
  | produce {t : Stream} : d.stage ≠ .finished → d.stream.step = some t →
      Step d { d with stream := t }
  | ask {t : Stream} : d.stage = .asking → d.stream.request = (t, true) →
      Step d ⟨.waiting, t, d.rows⟩
  | refused {t : Stream} : d.stage = .asking → d.stream.request = (t, false) →
      Step d ⟨.finished, t, d.rows⟩
  | take {t : Stream} {batch : Batch} : d.stage = .waiting →
      d.stream.receive = (t, .batch batch) →
      Step d ⟨if batch.hasMore then .asking else .finished, t, d.rows ++ batch.rows⟩
  | ended {t : Stream} : d.stage = .waiting → d.stream.receive = (t, .finished) →
      Step d ⟨.finished, t, d.rows⟩

def Leads : Drain → Drain → Prop :=
  Relation.ReflTransGen Step

end Drain

/-! ## Draining ends -/

theorem Stream.work_lt_of_step {s t : Stream} (h : s.step = some t) : t.work < s.work := by
  have hproducer := work_step_lt h
  have hslot : (if t.slot.isSome then 1 else 0) ≤ 1 := by split <;> omega
  simp only [work]
  omega

namespace Drain

def Stage.rank : Stage → Nat
  | .asking => 2
  | .waiting => 1
  | .finished => 0

def work (d : Drain) : Nat :=
  3 * d.stream.work + d.stage.rank

theorem Step.work_lt {d e : Drain} (h : d.Step e) : e.work < d.work := by
  cases h with
  | produce hstage hstep =>
      have hwork := Stream.work_lt_of_step hstep
      simp only [work]
      omega
  | ask hstage hrequest =>
      obtain ⟨-, rfl⟩ := Stream.request_true hrequest
      simp [work, Stream.work, hstage, Stage.rank]
  | refused hstage hrequest =>
      obtain rfl := Stream.request_false hrequest
      simp [work, hstage, Stage.rank]
  | @take t batch hstage hreceive =>
      have hwork := Stream.work_receive_lt hreceive
      have hrank : (if batch.hasMore then Stage.asking else .finished).rank ≤ 2 := by
        split <;> simp [Stage.rank]
      simp only [work, hstage]
      omega
  | ended hstage hreceive =>
      obtain ⟨rfl, -⟩ := Stream.receive_finished hreceive
      simp [work, hstage, Stage.rank]

theorem wellFounded_step : WellFounded fun e d : Drain => d.Step e :=
  Subrelation.wf (fun h => h.work_lt) (measure work).wf

end Drain

/-! ## What has come and what is left -/

namespace Stream.Account

variable {s t : Stream} {n : Nat}

theorem receive_ne_pending (h : s.Account (n + 1)) (hhalt : s.step = none) :
    s.receive ≠ (t, .pending) := by
  have hunanswered := h.unanswered_eq
  unfold Stream.receive
  cases hslot : s.slot with
  | some b => simp
  | none =>
      cases halted_of_step hhalt with
      | unasked hoffering hcontrol =>
          simp [unanswered, hoffering, hcontrol, hslot, Producer.underway, Producer.isGone]
            at hunanswered
      | blocked hsending hfull => simp [hslot] at hfull
      | lingers hlingering hcontrol =>
          simp [unanswered, hlingering, hcontrol, hslot, Producer.underway, Producer.isGone]
            at hunanswered
      | ended hstopped => simp [hstopped]

theorem stopped_or_of_two_le (h : s.Account n) (hn : 2 ≤ n) (hhalt : s.step = none) :
    s.producer = .stopped ∨ s.slot.isSome ∧ 2 ≤ s.pending.length := by
  have hunanswered := h.unanswered_eq
  have hslot := Option.length_toList_le (o := s.slot)
  cases halted_of_step hhalt with
  | unasked hoffering hcontrol =>
      simp [unanswered, hoffering, hcontrol, Producer.underway, Producer.isGone] at hunanswered
      omega
  | blocked hsending hfull =>
      right
      simp [pending, hsending, hfull, Producer.remaining]
  | lingers hlingering hcontrol =>
      simp [unanswered, hlingering, hcontrol, Producer.underway, Producer.isGone] at hunanswered
      omega
  | ended hstopped => exact .inl hstopped

theorem request_settle_of_last {batch : Batch} (h : s.Account n) (hn : 2 ≤ n)
    (hpending : s.pending = [batch]) : s.settle.request = (s.settle, false) := by
  have hstopped : s.settle.producer = .stopped := by
    refine (h.settle.stopped_or_of_two_le hn s.step_settle).resolve_right ?_
    rw [(later_settle h.sound).pending_eq h.closed_eq, hpending]
    simp
  simp [Stream.request, send, hstopped, Producer.hears]

theorem exists_round {batch next : Batch} {later : List Batch} (h : s.Account n) (hn : 2 ≤ n)
    (hpending : s.pending = batch :: next :: later) :
    ∃ t u, s.request = (t, true) ∧ t.settle.receive = (u, .batch batch) ∧ u.Account n ∧
      u.pending = next :: later := by
  cases hrequest : s.request with
  | mk t sent =>
      cases sent with
      | false =>
          have hlength := length_pending_of_isGone (h.isGone_of_request_false hrequest)
          simp [hpending] at hlength
      | true =>
          have hsettled := (h.request hrequest).settle
          have hsame : t.settle.pending = s.pending := by
            have hlater := later_settle (h.request hrequest).sound
            rw [hlater.pending_eq (h.request hrequest).closed_eq]
            obtain ⟨-, rfl⟩ := request_true hrequest
            rfl
          have hslot : t.settle.slot.isSome := by
            rcases hsettled.stopped_or_of_two_le (by omega) t.step_settle with hstopped | hfull
            · have hlength := length_pending_of_isGone (s := t.settle) (by rw [hstopped]; rfl)
              simp [hsame, hpending] at hlength
            · exact hfull.1
          obtain ⟨b, hb⟩ := Option.isSome_iff_exists.mp hslot
          have hreceive : t.settle.receive = ({ t.settle with slot := none }, .batch b) := by
            simp only [Stream.receive, hb]
          obtain ⟨m, hm, hafter⟩ := hsettled.receive hreceive
          obtain rfl := Nat.succ.inj hm
          have hgiven := pending_of_receive_batch hreceive
          rw [hsame, hpending] at hgiven
          obtain ⟨rfl, hleft⟩ := List.cons.inj hgiven
          exact ⟨t, _, rfl, hreceive, hafter, hleft.symm⟩

end Stream.Account

namespace Drain

/-- What holds of the stream at a stage, if `n` requests were unanswered when draining began and
`rest` is still to come. Only the last batch can be missed, and only with two such requests. -/
def Stage.Finds (n : Nat) (rest : List Row) (s : Stream) : Stage → Prop
  | .asking => s.Account n
  | .waiting => s.Account (n + 1)
  | .finished => (∃ m, s.Account m) ∧ (rest = [] ∨ 2 ≤ n ∧ s.pending.length = 1)

/-- A drain that has `rest` of all the rows still to come. -/
structure Along (batchSize n : Nat) (all rest : List Row) (d : Drain) : Prop where
  rows_eq : all = d.rows ++ rest
  pending_eq : d.stream.pending = Batch.plan batchSize rest
  finds : d.stage.Finds n rest d.stream

variable {batchSize n : Nat} {all rest : List Row} {d e : Drain}

theorem Stage.Finds.steps {stage : Stage} {s t : Stream} (h : stage.Finds n rest s)
    (hstage : stage ≠ .finished) (hsteps : Stream.Steps s t) :
    stage.Finds n rest t ∧ t.pending = s.pending := by
  cases stage with
  | asking =>
      exact ⟨Stream.Account.steps h hsteps, hsteps.pending_eq h.sound h.closed_eq⟩
  | waiting =>
      exact ⟨Stream.Account.steps h hsteps, hsteps.pending_eq h.sound h.closed_eq⟩
  | finished => contradiction

theorem Along.step (h : d.Along batchSize n all rest) (hstep : d.Step e) :
    ∃ rest, e.Along batchSize n all rest := by
  obtain ⟨hrows, hpending, hfinds⟩ := h
  cases hstep with
  | produce hstage hstep =>
      obtain ⟨hfinds', hsame⟩ := hfinds.steps hstage (Stream.steps_of_step hstep)
      exact ⟨rest, hrows, hsame.trans hpending, hfinds'⟩
  | ask hstage hrequest =>
      rw [hstage] at hfinds
      have haccount := Stream.Account.request hfinds hrequest
      obtain ⟨-, rfl⟩ := Stream.request_true hrequest
      exact ⟨rest, hrows, hpending, haccount⟩
  | refused hstage hrequest =>
      rw [hstage] at hfinds
      have hgone := Stream.Account.isGone_of_request_false hfinds hrequest
      have hlt := Stream.Account.lt hfinds hgone
      have hlength := Stream.length_pending_of_isGone hgone
      obtain rfl := Stream.request_false hrequest
      refine ⟨rest, hrows, hpending, ⟨n, hfinds⟩, ?_⟩
      cases hleft : rest with
      | nil => exact .inl rfl
      | cons row rows =>
          have hpos : 0 < d.stream.pending.length := by
            rw [hpending, hleft, Batch.plan]
            exact Nat.succ_pos _
          have hlast : 2 ≤ n ∧ d.stream.pending.length = 1 := by omega
          exact .inr hlast
  | @take t batch hstage hreceive =>
      rw [hstage] at hfinds
      obtain ⟨m, hm, haccount⟩ := Stream.Account.receive hfinds hreceive
      obtain rfl := Nat.succ.inj hm
      rw [Stream.pending_of_receive_batch hreceive] at hpending
      obtain ⟨later, rfl, hlater, -, hlast⟩ := Batch.plan_eq_cons hpending.symm
      refine ⟨later, by rw [hrows, List.append_assoc], hlater, ?_⟩
      cases hmore : batch.hasMore with
      | true => exact haccount
      | false =>
          rw [hmore] at hlast
          exact ⟨⟨n, haccount⟩, .inl hlast⟩
  | ended hstage hreceive =>
      rw [hstage] at hfinds
      have hnone := Stream.pending_of_receive_finished hreceive
      obtain ⟨rfl, -⟩ := Stream.receive_finished hreceive
      refine ⟨rest, hrows, hpending, ⟨_, hfinds⟩, .inl ?_⟩
      exact Batch.plan_eq_nil (hpending.symm.trans hnone)

theorem Along.leads (h : d.Along batchSize n all rest) (hleads : d.Leads e) :
    ∃ rest, e.Along batchSize n all rest := by
  induction hleads with
  | refl => exact ⟨rest, h⟩
  | tail _ hstep ih =>
      obtain ⟨rest, h⟩ := ih
      exact h.step hstep

theorem Along.exists_step (h : d.Along batchSize n all rest) (hstage : d.stage ≠ .finished) :
    ∃ e, d.Step e := by
  have hfinds := h.finds
  cases hat : d.stage with
  | finished => contradiction
  | asking =>
      cases hrequest : d.stream.request with
      | mk t sent =>
          cases sent with
          | true => exact ⟨_, .ask hat hrequest⟩
          | false => exact ⟨_, .refused hat hrequest⟩
  | waiting =>
      rw [hat] at hfinds
      cases hstep : d.stream.step with
      | some t => exact ⟨_, .produce hstage hstep⟩
      | none =>
          cases hreceive : d.stream.receive with
          | mk t poll =>
              cases poll with
              | batch b => exact ⟨_, .take hat hreceive⟩
              | finished => exact ⟨_, .ended hat hreceive⟩
              | pending => exact absurd hreceive (Stream.Account.receive_ne_pending hfinds hstep)

/-! ## Missing the last batch -/

theorem leads_of_runs {t : Stream} (hruns : d.stream.Runs t) (hstage : d.stage ≠ .finished) :
    d.Leads { d with stream := t } := by
  induction hruns with
  | refl => exact .refl
  | tail _ hstep ih => exact .tail ih (.produce hstage hstep)

theorem leads_settle (d : Drain) (hstage : d.stage ≠ .finished) :
    d.Leads { d with stream := d.stream.settle } :=
  leads_of_runs d.stream.runs_settle hstage

theorem leads_round {s t u : Stream} {batch : Batch} (hrequest : s.request = (t, true))
    (hreceive : t.settle.receive = (u, .batch batch)) (rows : List Row) :
    Leads ⟨.asking, s, rows⟩
      ⟨if batch.hasMore then .asking else .finished, u, rows ++ batch.rows⟩ :=
  .head (.ask rfl hrequest)
    (.tail (leads_settle ⟨.waiting, t, rows⟩ (by simp)) (.take rfl hreceive))

theorem exists_missed {s : Stream} (haccount : s.Account n) (hn : 2 ≤ n)
    (hpending : s.pending = Batch.plan batchSize rest) (hrest : rest ≠ []) (rows : List Row) :
    ∃ e, Leads ⟨.asking, s, rows⟩ e ∧ e.stage = .finished ∧ e.rows ≠ rows ++ rest := by
  -- The induction is on the batches: one is left over, and each one before it takes a round.
  generalize hbatches : s.pending = batches at hpending
  induction batches generalizing s rest rows with
  | nil => exact absurd (Batch.plan_eq_nil hpending.symm) hrest
  | cons batch later ih =>
      cases later with
      | nil =>
          refine ⟨⟨.finished, s.settle, rows⟩, ?_, rfl, by simpa using hrest⟩
          exact .tail (leads_settle ⟨.asking, s, rows⟩ (by simp))
            (.refused rfl (haccount.request_settle_of_last hn hbatches))
      | cons next later =>
          obtain ⟨t, u, hrequest, hreceive, hafter, hleft⟩ := haccount.exists_round hn hbatches
          obtain ⟨rest, rfl, hlater, -, hlast⟩ := Batch.plan_eq_cons hpending.symm
          have hmore : batch.hasMore = true := by
            by_contra hend
            rw [if_neg hend] at hlast
            rw [hlast, Batch.plan] at hlater
            contradiction
          rw [if_pos hmore] at hlast
          obtain ⟨e, hleads, hfinished, hmissed⟩ :=
            ih hafter hlast.2 (rows ++ batch.rows) hleft hlater
          have hround := leads_round hrequest hreceive rows
          rw [if_pos hmore] at hround
          exact ⟨e, hround.trans hleads, hfinished, by rwa [← List.append_assoc]⟩

end Drain

/-! ## Draining at the pace of the producer -/

namespace Stream

variable {s t : Stream} {n : Nat}

def deliveries (s : Stream) : Nat :=
  s.producer.work + s.slot.toList.length

theorem deliveries_le_of_step (h : s.step = some t) : t.deliveries ≤ s.deliveries := by
  have hwork := work_step_lt h
  have hslot := Option.length_toList_le (o := t.slot)
  simp only [deliveries]
  omega

theorem Runs.deliveries_le (h : s.Runs t) : t.deliveries ≤ s.deliveries := by
  induction h with
  | refl => exact Nat.le_refl _
  | tail _ hstep ih => exact Nat.le_trans (deliveries_le_of_step hstep) ih

theorem deliveries_of_receive_batch {b : Batch} (h : s.receive = (t, .batch b)) :
    s.deliveries = t.deliveries + 1 := by
  obtain ⟨hslot, rfl⟩ := receive_batch h
  simp [deliveries, hslot]

theorem deliveries_round_lt {u : Stream} {batch : Batch} (hrequest : s.request = (t, true))
    (hreceive : t.settle.receive = (u, .batch batch)) : u.deliveries < s.deliveries := by
  have hsettled := t.runs_settle.deliveries_le
  have htaken := deliveries_of_receive_batch hreceive
  have hsame : t.deliveries = s.deliveries := by
    obtain ⟨-, rfl⟩ := request_true hrequest
    rfl
  omega

theorem collect_round {u : Stream} {batch : Batch} (hrequest : s.request = (t, true))
    (hreceive : t.settle.receive = (u, .batch batch)) (fuel : Nat) :
    s.collect (fuel + 1) = batch.rows ++ if batch.hasMore then u.collect fuel else [] := by
  simp [collect, hrequest, receiveNext, hreceive]

theorem request_of_deliveries_eq_zero (h : s.deliveries = 0) : s.request = (s, false) := by
  have hwork : s.producer.work = 0 := (Nat.add_eq_zero_iff.mp h).1
  have hstopped : s.producer = .stopped := by
    cases hproducer : s.producer <;> simp [hproducer, Producer.work] at hwork ⊢
  simp [request, send, hstopped, Producer.hears]

end Stream

namespace Drain

variable {n : Nat}

theorem exists_leads_collect {s : Stream} (haccount : s.Account n) {fuel : Nat}
    (hfuel : s.deliveries ≤ fuel) (rows : List Row) :
    ∃ e, Leads ⟨.asking, s, rows⟩ e ∧ e.stage = .finished ∧ e.rows = rows ++ s.collect fuel := by
  induction fuel generalizing s rows with
  | zero =>
      have hrefused := Stream.request_of_deliveries_eq_zero (Nat.le_zero.mp hfuel)
      exact ⟨_, .single (.refused rfl hrefused), rfl, (List.append_nil rows).symm⟩
  | succ fuel ih =>
      cases hrequest : s.request with
      | mk t sent =>
          cases sent with
          | false =>
              refine ⟨_, .single (.refused rfl hrequest), rfl, ?_⟩
              simp [Stream.collect, hrequest]
          | true =>
              have hasked := (haccount.request hrequest).settle
              cases hreceive : t.settle.receive with
              | mk u poll =>
                  cases poll with
                  | pending =>
                      exact absurd hreceive (hasked.receive_ne_pending t.step_settle)
                  | finished =>
                      refine ⟨⟨.finished, u, rows⟩, ?_, rfl, ?_⟩
                      · exact .head (.ask rfl hrequest)
                          (.tail (leads_settle ⟨.waiting, t, rows⟩ (by simp))
                            (.ended rfl hreceive))
                      · simp [Stream.collect, hrequest, Stream.receiveNext, hreceive]
                  | batch b =>
                      have hround := leads_round hrequest hreceive rows
                      have hless := Stream.deliveries_round_lt hrequest hreceive
                      obtain ⟨m, hm, hafter⟩ := hasked.receive hreceive
                      obtain rfl := Nat.succ.inj hm
                      rw [Stream.collect_round hrequest hreceive]
                      cases hmore : b.hasMore with
                      | true =>
                          rw [if_pos hmore] at hround
                          obtain ⟨e, hleads, hfinished, hrows⟩ :=
                            ih hafter (Nat.le_of_lt_succ (hless.trans_le hfuel)) (rows ++ b.rows)
                          refine ⟨e, hround.trans hleads, hfinished, ?_⟩
                          rw [if_pos rfl, hrows, List.append_assoc]
                      | false =>
                          rw [if_neg (by simp [hmore])] at hround
                          refine ⟨_, hround, rfl, ?_⟩
                          rw [if_neg Bool.false_ne_true, List.append_nil]

theorem exists_leads_drain {s : Stream} (haccount : s.Account n) :
    ∃ e, (start s).Leads e ∧ e.stage = .finished ∧ e.rows = s.drain := by
  have hslot := Option.length_toList_le (o := s.slot)
  have hfuel : s.deliveries ≤ s.producer.work + 1 := by
    simp only [Stream.deliveries]
    omega
  obtain ⟨e, hleads, hfinished, hrows⟩ := exists_leads_collect haccount hfuel []
  exact ⟨e, hleads, hfinished, hrows⟩

theorem Along.of_finished {batchSize : Nat} {all rest : List Row} {d : Drain}
    (h : d.Along batchSize n all rest) (hfinished : d.stage = .finished) :
    d.stream.pending.length ≤ 1 ∧ d.stream.join.isSome ∧ (rest = [] ∨ 2 ≤ n) := by
  have hfinds := h.finds
  rw [hfinished] at hfinds
  obtain ⟨⟨m, haccount⟩, hleft⟩ := hfinds
  have hlength : d.stream.pending.length ≤ 1 := by
    rcases hleft with rfl | ⟨-, hlast⟩
    · simp [h.pending_eq, Batch.plan]
    · exact Nat.le_of_eq hlast
  exact ⟨hlength, haccount.isSome_join_iff.mpr (.inr hlength), hleft.imp_right And.left⟩

end Drain

/-- Every drain comes to its end, after which joining does too, and misses one batch at most, which
is left in the slot. It misses none, however it takes turns with the producer, if and only if at
most one request was unanswered before or no row was left. -/
theorem drain_keeps_rows_iff {source : Source} {rows : List Row}
    (hrows : parseLog source = .ok rows) (batchSize : Nat) {moves : List Stream.Move}
    (hmoves : .close ∉ moves) :
    let run := (Stream.start source batchSize).performAll moves
    let taken := Stream.received run.2
    let got := taken.flatMap Batch.rows
    let first := Drain.start run.1
    Acc (fun e d : Drain => d.Step e) first ∧
      (∀ d, first.Leads d → d.stage ≠ .finished → ∃ e, d.Step e) ∧
      (∀ d, first.Leads d → d.stage = .finished → d.stream.join.isSome ∧
        d.stream.pending.length ≤ 1 ∧
        got ++ d.rows ++ d.stream.pending.flatMap Batch.rows = rows) ∧
      ((∀ d, first.Leads d → d.stage = .finished → got ++ d.rows = rows) ↔
        Stream.requestsBeforeClose run.2 ≤ taken.length + 1 ∨ got = rows) ∧
      ∃ d, first.Leads d ∧ d.stage = .finished ∧ d.rows = run.1.drain := by
  intro run taken got first
  obtain rfl := rows_of_parseLog hrows
  obtain ⟨n, haccount, hasked, hplan⟩ := Stream.exists_account hmoves (rfl : run = _)
  replace hasked : n + taken.length = Stream.requestsBeforeClose run.2 := hasked
  obtain ⟨all, hall, hpending⟩ := Batch.plan_eq_append hplan
  have hfirst : first.Along batchSize n all all := ⟨rfl, hpending, haccount⟩
  refine ⟨Drain.wellFounded_step.apply first, ?_, ?_, ⟨?_, ?_⟩, Drain.exists_leads_drain haccount⟩
  · intro d hleads hstage
    obtain ⟨rest, hd⟩ := hfirst.leads hleads
    exact hd.exists_step hstage
  · intro d hleads hfinished
    obtain ⟨rest, hd⟩ := hfirst.leads hleads
    obtain ⟨hlength, hjoin, -⟩ := hd.of_finished hfinished
    refine ⟨hjoin, hlength, ?_⟩
    rw [hd.pending_eq, Batch.flatMap_rows_plan, List.append_assoc, ← hd.rows_eq, hall]
  · intro hkeeps
    by_contra hmany
    obtain ⟨hfew, hgot⟩ := not_or.mp hmany
    have hne : all ≠ [] := by
      rintro rfl
      exact hgot (by rw [hall, List.append_nil])
    obtain ⟨e, hleads, hfinished, hmissed⟩ := Drain.exists_missed haccount (by omega) hpending hne []
    have hkept := hkeeps e hleads hfinished
    rw [hall] at hkept
    exact hmissed (List.append_cancel_left hkept)
  · intro hfew d hleads hfinished
    obtain ⟨rest, hd⟩ := hfirst.leads hleads
    obtain ⟨-, -, hleft⟩ := hd.of_finished hfinished
    have hsplit := hd.rows_eq
    have hnone : rest = [] := by
      rcases hfew with hfew | hgot
      · exact hleft.resolve_right (by omega)
      · have hcancel : got ++ all = got ++ [] := by rw [← hall, hgot, List.append_nil]
        rw [List.append_cancel_left hcancel] at hsplit
        exact (List.append_eq_nil_iff.mp hsplit.symm).2
    rw [hnone, List.append_nil] at hsplit
    rw [hall, hsplit]

theorem drain_keeps_rows_iff_after_one_request :
    let log : Source := [.bytes (Text.Utf8.bytes "* \x1B[1mk\x1B[m x\n")]
    let moves : List Stream.Move := [.request]
    let s := ((Stream.start log 50).performAll moves).1
    ∃ rows, parseLog log = .ok rows ∧ rows.length = 1 ∧ .close ∉ moves ∧
      ∀ d, (Drain.start s).Leads d → d.stage = .finished → d.rows = rows := by
  intro log moves s
  have hrows : parseLog log = .ok (rowsOf log.transcript.lines) := parseLog_of_failure? rfl
  have hmoves : .close ∉ moves := by decide
  obtain ⟨-, -, -, hkeeps, -⟩ := drain_keeps_rows_iff hrows 50 hmoves
  refine ⟨_, hrows, ?_, hmoves, hkeeps.mpr (.inl (by decide))⟩
  rw [Source.transcript_eq_ofChunks, Source.chunks_eq]
  decide +kernel

/-- Two requests are unanswered, and the producer has handed over the only batch and is gone. -/
theorem drain_loses_batch_after_two_requests :
    let log : Source := [.bytes (Text.Utf8.bytes "* \x1B[1mk\x1B[m x\n")]
    let moves : List Stream.Move := [.request, .request] ++ List.replicate 6 .produce
    let run := (Stream.start log 50).performAll moves
    ∃ rows, parseLog log = .ok rows ∧ Stream.received run.2 = [] ∧ run.1.drain = [] ∧ rows ≠ [] := by
  intro log moves run
  refine ⟨_, parseLog_of_failure? rfl, ?_, ?_, ?_⟩
  · simp only [run, log, Stream.start]
    rw [Source.transcript_eq_ofChunks, Source.chunks_eq]
    decide +kernel
  · simp only [run, log, Stream.start]
    rw [Source.transcript_eq_ofChunks, Source.chunks_eq]
    decide +kernel
  · rw [Source.transcript_eq_ofChunks, Source.chunks_eq]
    decide +kernel

end RevisionGraph
