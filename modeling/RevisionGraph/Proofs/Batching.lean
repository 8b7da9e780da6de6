import RevisionGraph.Log.Stream

/-!
# Batches

Rows are cut into batches one more than the batch size, and the last batch holds what is left
(`Batch.plan`). A producer cuts at a line that starts a row, before it knows the rest, and once more
at the end of the input. `Producer.remaining` is what it has still to hand over. Reading does not
change it, because a line that starts a row leaves a row open, so the batch before it is not the
last.
-/

namespace RevisionGraph

/-! ## The plan -/

namespace Batch

/-- The batches of rows, each of `n + 1` rows but the last, which says that there are no more. -/
def plan (n : Nat) : List Row → List Batch
  | [] => []
  | row :: rows => ⟨row :: rows.take n, !(rows.drop n).isEmpty⟩ :: plan n (rows.drop n)
termination_by rows => rows.length
decreasing_by simp only [List.length_drop, List.length_cons]; omega

theorem plan_of_length_le {n : Nat} {rows : List Row} (hpos : rows ≠ [])
    (hlength : rows.length ≤ n + 1) : plan n rows = [⟨rows, false⟩] := by
  cases rows with
  | nil => exact absurd rfl hpos
  | cons row rows =>
      have hrows : rows.length ≤ n := by simpa using hlength
      rw [plan, List.take_of_length_le hrows, List.drop_of_length_le hrows, plan]
      rfl

theorem plan_append {n : Nat} {first rest : List Row} (hfirst : first.length = n + 1)
    (hrest : rest ≠ []) : plan n (first ++ rest) = ⟨first, true⟩ :: plan n rest := by
  cases first with
  | nil => simp at hfirst
  | cons row rows =>
      have hrows : rows.length = n := by simpa using hfirst
      rw [List.cons_append, plan, List.take_left' hrows, List.drop_left' hrows]
      simp [hrest]

theorem plan_eq_nil {n : Nat} {rows : List Row} (h : plan n rows = []) : rows = [] := by
  cases rows with
  | nil => rfl
  | cons row rows =>
      rw [plan] at h
      simp at h

theorem plan_eq_cons {n : Nat} {rows : List Row} {batch : Batch} {later : List Batch}
    (h : plan n rows = batch :: later) :
    ∃ rest, rows = batch.rows ++ rest ∧ later = plan n rest ∧ batch.rows ≠ [] ∧
      (if batch.hasMore then batch.rows.length = n + 1 ∧ rest ≠ [] else rest = []) := by
  cases rows with
  | nil =>
      rw [plan] at h
      simp at h
  | cons row rows =>
      rw [plan] at h
      obtain ⟨rfl, rfl⟩ := List.cons.inj h
      refine ⟨rows.drop n, ?_, rfl, by simp, ?_⟩
      · rw [List.cons_append, List.take_append_drop]
      · by_cases hrest : rows.drop n = []
        · simp [hrest]
        · have hlength := List.length_pos_iff.mpr hrest
          rw [List.length_drop] at hlength
          simp [hrest]
          omega

theorem length_rows_le {n : Nat} {rows : List Row} {batch : Batch} {later : List Batch}
    (h : plan n rows = batch :: later) : batch.rows.length ≤ n + 1 := by
  cases rows with
  | nil =>
      rw [plan] at h
      simp at h
  | cons row rows =>
      rw [plan] at h
      obtain ⟨rfl, -⟩ := List.cons.inj h
      simp only [List.length_cons, List.length_take]
      omega

end Batch

/-! ## Builders -/

namespace RowBuilder

theorem isSome_unsealed_push {b : RowBuilder} (line : Line) (h : b.unsealed.isSome) :
    (b.push line).1.unsealed.isSome := by
  unfold push
  split
  · simpa using h
  · split <;> rfl

theorem isSome_unsealed_push_of_startsRow (b : RowBuilder) {line : Line} (h : line.startsRow) :
    (b.push line).1.unsealed.isSome := by
  rw [← RevisionLine.isSome_ofLine?] at h
  obtain ⟨r, hr⟩ := Option.isSome_iff_exists.mp h
  simp only [push, hr]
  split <;> rfl

theorem startsRow_of_push {b : RowBuilder} {line : Line} (h : (b.push line).2.isSome) :
    line.startsRow := by
  rw [← RevisionLine.isSome_ofLine?]
  unfold push at h
  cases hline : RevisionLine.ofLine? line with
  | none => simp [hline] at h
  | some r => rfl

theorem rows_ne_nil {b : RowBuilder} (h : b.unsealed.isSome) (lines : List Line) :
    b.rows lines ≠ [] := by
  induction lines generalizing b with
  | nil =>
      obtain ⟨o, ho⟩ := Option.isSome_iff_exists.mp h
      simp [rows_nil, finish, ho]
  | cons line rest ih =>
      rw [rows_cons]
      exact List.append_ne_nil_of_right_ne_nil _ (ih (isSome_unsealed_push line h))

end RowBuilder

@[simp] theorem HeldRows.size_pushAll (held : HeldRows) (rows : List Row) :
    (held.pushAll rows).size = held.size + rows.length := by
  rw [← length_toList, toList_pushAll, List.length_append, length_toList]

@[simp] theorem HeldRows.size_ofList (rows : List Row) : (ofList rows).size = rows.length := by
  rw [← length_toList, toList_ofList]

/-! ## Producers -/

namespace Producer

def remaining (n : Nat) : Producer → List Batch
  | .reading b held rest => Batch.plan n (held.toList ++ b.rows rest)
  | .offering batch next | .sending batch next => batch :: next.remaining n
  | .lingering | .leaving | .deaf | .stopped => []

def underway : Producer → Nat
  | .sending _ _ => 1
  | .reading .. | .offering .. | .lingering | .leaving | .deaf | .stopped => 0

def resumes : Producer → Bool
  | .reading .. | .offering .. | .lingering => true
  | .sending .. | .leaving | .deaf | .stopped => false

theorem underway_of_resumes {p : Producer} (h : p.resumes = true) : p.underway = 0 := by
  cases p with
  | sending => contradiction
  | reading | offering | lingering | leaving | deaf | stopped => rfl

def isGone : Producer → Bool
  | .leaving | .deaf | .stopped => true
  | .reading .. | .offering .. | .sending .. | .lingering => false

theorem isGone_of_resumes {p : Producer} (h : p.resumes = true) : p.isGone = false := by
  cases p with
  | leaving | deaf | stopped => contradiction
  | reading | offering | sending | lingering => rfl

/-- A producer holds no more than a batch, and rows it holds were sealed by the row that is open. -/
def Sound (n : Nat) : Producer → Prop
  | .reading b held _ => held.size ≤ n + 1 ∧ (0 < held.size → b.unsealed.isSome)
  | .offering _ next | .sending _ next => next.Sound n ∧ next.resumes = true
  | .lingering | .leaving | .deaf | .stopped => True

variable {n : Nat} {b : RowBuilder} {held : HeldRows}

theorem sound_start (n : Nat) (lines : List Line) : (start lines).Sound n := by
  simp [start, Sound, HeldRows.empty]

theorem sound_readLine {rest : List Line} {line : Line}
    (h : (reading b held (line :: rest)).Sound n) : (readLine n b held line rest).Sound n := by
  obtain ⟨hsize, hopen⟩ := h
  simp only [readLine]
  split
  · next hcut =>
      refine ⟨?_, rfl⟩
      constructor
      · cases (b.push line).2 <;> simp
      · intro _
        exact RowBuilder.isSome_unsealed_push_of_startsRow b hcut.2
  · next hcut =>
      cases hrow : (b.push line).2 with
      | none =>
          constructor
          · simpa using hsize
          · intro hpos
            exact RowBuilder.isSome_unsealed_push line (hopen (by simpa using hpos))
      | some row =>
          have hstarts : line.startsRow := RowBuilder.startsRow_of_push (by rw [hrow]; rfl)
          constructor
          · simp only [HeldRows.size_pushAll, Option.toList_some, List.length_singleton]
            simp only [hstarts, and_true] at hcut
            omega
          · intro _
            exact RowBuilder.isSome_unsealed_push_of_startsRow b hstarts

theorem remaining_readLine {rest : List Line} {line : Line}
    (h : (reading b held (line :: rest)).Sound n) :
    (readLine n b held line rest).remaining n = (reading b held (line :: rest)).remaining n := by
  simp only [readLine]
  split
  · next hcut =>
      have hlength : held.toList.length = n + 1 := by
        have hsize := h.1
        rw [HeldRows.length_toList]
        omega
      have hrest : (b.push line).2.toList ++ (b.push line).1.rows rest ≠ [] :=
        List.append_ne_nil_of_right_ne_nil _ (RowBuilder.rows_ne_nil
          (RowBuilder.isSome_unsealed_push_of_startsRow b hcut.2) rest)
      simp only [remaining, HeldRows.toList_ofList, RowBuilder.rows_cons]
      rw [Batch.plan_append hlength hrest]
  · simp only [remaining, HeldRows.toList_pushAll, RowBuilder.rows_cons, List.append_assoc]

theorem sound_readEnd (n : Nat) (b : RowBuilder) (held : HeldRows) :
    (readEnd n b held).Sound n := by
  unfold readEnd
  split <;> split <;> simp [Sound, resumes]

theorem remaining_readEnd (h : (reading b held []).Sound n) :
    (readEnd n b held).remaining n = (reading b held []).remaining n := by
  obtain ⟨hsize, hopen⟩ := h
  cases hlast : b.finish.2 with
  | none =>
      -- Rows are held only while a row is open.
      have hempty : held.size = 0 := by
        cases hb : b.unsealed with
        | none =>
            rcases Nat.eq_zero_or_pos held.size with hempty | hpos
            · exact hempty
            · have hsome := hopen hpos
              simp [hb] at hsome
        | some o => simp [RowBuilder.finish, hb] at hlast
      have hnone : held.toList = [] := by
        rw [← List.length_eq_zero_iff, HeldRows.length_toList, hempty]
      simp only [readEnd, hlast, hempty, if_true, remaining, RowBuilder.rows_nil, hnone,
        Option.toList_none, List.append_nil, Batch.plan]
  | some last =>
      simp only [readEnd, hlast, remaining, RowBuilder.rows_nil, Option.toList_some]
      split
      · next hfull =>
          have hlength : held.toList.length = n + 1 := by
            rw [HeldRows.length_toList]
            omega
          rw [Batch.plan_append hlength (by simp), Batch.plan_of_length_le (by simp) (by simp)]
          rfl
      · next hfull =>
          have hlength : (held.toList ++ [last]).length ≤ n + 1 := by
            rw [List.length_append, HeldRows.length_toList, List.length_singleton]
            omega
          rw [Batch.plan_of_length_le (by simp) hlength]
          simp only [remaining, HeldRows.toList_push]

@[simp] theorem resumes_readLine (n : Nat) (b : RowBuilder) (held : HeldRows) (line : Line)
    (rest : List Line) : (readLine n b held line rest).resumes = true := by
  simp only [readLine]
  split <;> rfl

@[simp] theorem resumes_readEnd (n : Nat) (b : RowBuilder) (held : HeldRows) :
    (readEnd n b held).resumes = true := by
  unfold readEnd
  split <;> split <;> rfl

@[simp] theorem underway_readLine (n : Nat) (b : RowBuilder) (held : HeldRows) (line : Line)
    (rest : List Line) : (readLine n b held line rest).underway = 0 :=
  underway_of_resumes (resumes_readLine ..)

@[simp] theorem underway_readEnd (n : Nat) (b : RowBuilder) (held : HeldRows) :
    (readEnd n b held).underway = 0 :=
  underway_of_resumes (resumes_readEnd ..)

end Producer

end RevisionGraph
