import RevisionGraph.Proofs.Answering
import RevisionGraph.Proofs.Exchange

/-!
# The account of requests

As long as its producer is there, an open stream has as many requests unanswered as were sent beyond
the batches received (`Stream.Account`). Only a request beyond the last batch makes the producer go,
and from then on fewer batches are left than are asked for.
-/

namespace RevisionGraph

namespace Batch

theorem plan_eq_append {n : Nat} {rows : List Row} {first later : List Batch}
    (h : plan n rows = first ++ later) :
    ∃ rest, rows = first.flatMap Batch.rows ++ rest ∧ later = plan n rest := by
  induction first generalizing rows with
  | nil => exact ⟨rows, rfl, h.symm⟩
  | cons batch first ih =>
      obtain ⟨tail, rfl, hlater, -⟩ := plan_eq_cons h
      obtain ⟨rest, rfl, hrest⟩ := ih hlater.symm
      exact ⟨rest, by rw [List.flatMap_cons, List.append_assoc], hrest⟩

theorem flatMap_rows_plan (n : Nat) (rows : List Row) : (plan n rows).flatMap Batch.rows = rows := by
  obtain ⟨rest, hrows, hrest⟩ := plan_eq_append (List.append_nil (plan n rows)).symm
  rw [plan_eq_nil hrest.symm, List.append_nil] at hrows
  exact hrows.symm

end Batch

namespace Stream

variable {s t : Stream} {n : Nat}

theorem pending_of_isGone (h : s.producer.isGone = true) : s.pending = s.slot.toList := by
  cases hproducer : s.producer with
  | reading | offering | sending | lingering => simp [hproducer, Producer.isGone] at h
  | leaving | deaf | stopped => simp [pending, hproducer, Producer.remaining]

theorem length_pending_of_isGone (h : s.producer.isGone = true) : s.pending.length ≤ 1 := by
  rw [pending_of_isGone h]
  exact Option.length_toList_le

theorem isGone_of_deaf (h : s.producer.hears = false) : s.producer.isGone = true := by
  cases hproducer : s.producer with
  | reading | offering | sending | lingering | leaving => simp [hproducer, Producer.hears] at h
  | deaf | stopped => rfl

/-! ## The account -/

/-- An open stream on which `n` more requests were sent than batches received. -/
structure Account (s : Stream) (n : Nat) : Prop where
  sound : s.Sound
  closed_eq : s.closed = false
  unanswered_eq : s.producer.isGone = false → s.unanswered = n
  lt : s.producer.isGone = true → s.pending.length < n

theorem account_start (source : Source) (batchSize : Nat) : (start source batchSize).Account 0 :=
  ⟨sound_start source batchSize, rfl, fun _ => rfl, fun hgone => nomatch hgone⟩

namespace Account

theorem steps (h : s.Account n) (hsteps : Steps s t) : t.Account n := by
  obtain ⟨hsound, hopen, hunanswered, hlt⟩ := h
  have hpending := hsteps.pending_eq hsound hopen
  have hproducer := hsound.producer
  refine ⟨hsteps.sound hsound, hsteps.closed_eq.trans hopen, ?_, ?_⟩
  · intro hthere
    rw [hsteps.unanswered_eq_of_isGone hsound hthere]
    refine hunanswered ?_
    cases hsteps with
    | readLine h | readEnd h | answer h | deliver h => rw [h]; rfl
    | giveUp | leave | deafen | stop => contradiction
  · intro hgone
    rw [hpending]
    cases hsteps with
    | readLine | readEnd => simp [Producer.isGone_of_resumes] at hgone
    | answer => contradiction
    | giveUp _ hsignal =>
        exact absurd (hsignal ▸ List.mem_cons_self) (hsound.control hopen)
    | deliver hsending =>
        rw [hsending] at hproducer
        simp [Producer.isGone_of_resumes hproducer.2] at hgone
    | @leave signal rest hlingering hsignal =>
        -- Nothing but the slot is pending, and a request besides.
        obtain rfl := hsound.eq_requestMore hopen (hsignal ▸ List.mem_cons_self)
        rw [← hunanswered (by rw [hlingering]; rfl)]
        simp only [unanswered, pending, hlingering, hsignal, Producer.underway,
          Producer.remaining, List.count_cons_self, List.append_nil]
        omega
    | deafen hleaving => exact hlt (by rw [hleaving]; rfl)
    | stop hdeaf => exact hlt (by rw [hdeaf]; rfl)

theorem settle (h : s.Account n) : s.settle.Account n :=
  (runs_settle s).keeps steps h

theorem produce (h : s.Account n) :
    (s.step.getD s).Account n ∧ (s.step.getD s).pending = s.pending := by
  cases hstep : s.step with
  | none => exact ⟨h, rfl⟩
  | some t =>
      have hsteps := steps_of_step hstep
      exact ⟨h.steps hsteps, hsteps.pending_eq h.sound h.closed_eq⟩

theorem request (h : s.Account n) (hrequest : s.request = (t, true)) : t.Account (n + 1) := by
  have hsound := h.sound.request
  rw [hrequest] at hsound
  obtain ⟨-, rfl⟩ := request_true hrequest
  refine ⟨hsound, h.closed_eq, fun hthere => ?_, fun hgone => Nat.lt_succ_of_lt (h.lt hgone)⟩
  have hunanswered := h.unanswered_eq hthere
  simp only [unanswered, List.count_append, List.count_singleton_self] at hunanswered ⊢
  omega

theorem isGone_of_request_false (h : s.Account n) (hrequest : s.request = (t, false)) :
    s.producer.isGone = true :=
  isGone_of_deaf (hears_of_request_false h.closed_eq hrequest)

theorem exists_request (h : s.Account 0) :
    ∃ t, s.request = (t, true) ∧ t.Account 1 ∧ t.pending = s.pending := by
  cases hrequest : s.request with
  | mk t sent =>
      cases sent with
      | true =>
          have ht := h.request hrequest
          obtain ⟨-, rfl⟩ := request_true hrequest
          exact ⟨_, rfl, ht, rfl⟩
      | false => exact absurd (h.lt (h.isGone_of_request_false hrequest)) (Nat.not_lt_zero _)

theorem receive {b : Batch} (h : s.Account n) (hreceive : s.receive = (t, .batch b)) :
    ∃ m, n = m + 1 ∧ t.Account m := by
  have hsound := h.sound.receive
  have hpending := pending_of_receive_batch hreceive
  have hunanswered := unanswered_of_receive_batch hreceive
  have hthere := h.unanswered_eq
  have hgone := h.lt
  rw [hreceive] at hsound
  rw [hpending, List.length_cons] at hgone
  rw [hunanswered] at hthere
  obtain ⟨-, rfl⟩ := receive_batch hreceive
  have hpos : 0 < n := by
    cases hproducer : s.producer.isGone with
    | false => exact hthere hproducer ▸ Nat.succ_pos _
    | true => exact Nat.zero_lt_of_lt (hgone hproducer)
  refine ⟨n - 1, (Nat.sub_add_cancel hpos).symm, hsound, h.closed_eq, fun h => ?_, fun h => ?_⟩
  · exact Nat.eq_sub_of_add_eq (hthere h)
  · exact Nat.lt_sub_of_add_lt (hgone h)

end Account

/-! ## Runs without a close -/

def Balances (s : Stream) (n : Nat) : Stream × Option Event → Prop
  | (t, none) => t.Account n ∧ s.pending = t.pending
  | (t, some .requested) => t.Account (n + 1) ∧ s.pending = t.pending
  | (t, some (.received batch)) => ∃ m, n = m + 1 ∧ t.Account m ∧ s.pending = batch :: t.pending
  | (_, some .closed) => False

namespace Account

theorem balances_receive (h : t.Account n) (hpending : s.pending = t.pending) :
    s.Balances n (t.receive.1, Event.ofPoll t.receive.2) := by
  cases hreceive : t.receive with
  | mk u poll =>
      cases poll with
      | batch b =>
          obtain ⟨m, hm, hu⟩ := h.receive hreceive
          exact ⟨m, hm, hu, hpending.trans (pending_of_receive_batch hreceive)⟩
      | pending =>
          obtain rfl := receive_pending hreceive
          exact ⟨h, hpending⟩
      | finished =>
          obtain ⟨rfl, -⟩ := receive_finished hreceive
          exact ⟨h, hpending⟩

theorem balances_perform (h : s.Account n) {move : Move} (hmove : move ≠ .close) :
    s.Balances n (s.perform move) := by
  cases move with
  | produce => exact ⟨h.produce.1, h.produce.2.symm⟩
  | request =>
      cases hrequest : s.request with
      | mk t sent =>
          cases sent with
          | true =>
              have ht := h.request hrequest
              obtain ⟨-, rfl⟩ := request_true hrequest
              simp only [perform, hrequest, if_true]
              exact ⟨ht, rfl⟩
          | false =>
              obtain rfl := request_false hrequest
              simp only [perform, hrequest]
              exact ⟨h, rfl⟩
  | poll => exact h.balances_receive rfl
  | wait =>
      exact h.settle.balances_receive ((later_settle h.sound).pending_eq h.closed_eq).symm
  | close => exact absurd rfl hmove

theorem performAll (h : s.Account n) {moves : List Move} (hmoves : .close ∉ moves) :
    ∃ m, (s.performAll moves).1.Account m ∧
      m + (received (s.performAll moves).2).length =
        n + requestsBeforeClose (s.performAll moves).2 ∧
      s.pending = received (s.performAll moves).2 ++ (s.performAll moves).1.pending := by
  induction moves generalizing s n with
  | nil => exact ⟨n, h, rfl, rfl⟩
  | cons move moves ih =>
      have hbalances := h.balances_perform (List.ne_of_not_mem_cons hmoves).symm
      replace hmoves := List.not_mem_of_not_mem_cons hmoves
      unfold Stream.performAll
      cases hperform : s.perform move with
      | mk t event =>
          rw [hperform] at hbalances
          cases event with
          | none =>
              obtain ⟨ht, hpending⟩ := hbalances
              obtain ⟨m, hm, hcount, hrest⟩ := ih ht hmoves
              exact ⟨m, hm, hcount, hpending.trans hrest⟩
          | some event =>
              cases event with
              | requested =>
                  obtain ⟨ht, hpending⟩ := hbalances
                  obtain ⟨m, hm, hcount, hrest⟩ := ih ht hmoves
                  refine ⟨m, hm, ?_, hpending.trans hrest⟩
                  simp only [Option.toList_some, List.singleton_append, received_requested,
                    requestsBeforeClose_requested]
                  omega
              | received batch =>
                  obtain ⟨k, rfl, ht, hpending⟩ := hbalances
                  obtain ⟨m, hm, hcount, hrest⟩ := ih ht hmoves
                  refine ⟨m, hm, ?_, ?_⟩
                  · simp only [Option.toList_some, List.singleton_append, received_received,
                      requestsBeforeClose_received, List.length_cons]
                    omega
                  · rw [hpending, hrest]
                    rfl
              | closed => exact hbalances.elim

end Account

theorem exists_account {source : Source} {batchSize : Nat} {moves : List Move}
    (hmoves : .close ∉ moves) {run : Stream × List Event}
    (hrun : run = (start source batchSize).performAll moves) :
    ∃ n, run.1.Account n ∧ n + (received run.2).length = requestsBeforeClose run.2 ∧
      Batch.plan batchSize (rowsOf source.transcript.lines) = received run.2 ++ run.1.pending := by
  obtain ⟨n, haccount, hcount, hpending⟩ := (account_start source batchSize).performAll hmoves
  rw [← hrun, Nat.zero_add] at hcount
  rw [← hrun, pending_start] at hpending
  exact ⟨n, hrun ▸ haccount, hcount, hpending⟩

end Stream

end RevisionGraph
