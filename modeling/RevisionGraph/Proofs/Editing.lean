import RevisionGraph.Proofs.Naming

/-!
# Editing a name

A line with a cursor is what stands on the two sides of the cursor, and an edit touches only the ends
at which they meet. There no position can be out of range, while `insertIdx` and `eraseIdx` leave a
list as it is when one is. So the equations between a name and its two sides also say that its
positions are always inside of its text.
-/

namespace RevisionGraph

/-! ## Two sides -/

/-- A line by the text before its cursor, the nearest character first, and the text after it. -/
structure Sides where
  before : List Char
  after : List Char
  suggestions : List String
  deriving DecidableEq, Repr

namespace Sides

def empty : Sides :=
  ⟨[], [], []⟩

def text (s : Sides) : List Char :=
  s.before.reverse ++ s.after

def input (s : Sides) : NameInput :=
  ⟨s.text, s.before.length, s.suggestions⟩

def clear (s : Sides) : Sides :=
  { s with before := [], after := [] }

def toStart (s : Sides) : Sides :=
  { s with before := [], after := s.text }

def toEnd (s : Sides) : Sides :=
  { s with before := s.text.reverse, after := [] }

def toLeft (s : Sides) : Sides :=
  match s.before with
  | [] => s
  | c :: before => { s with before := before, after := c :: s.after }

def toRight (s : Sides) : Sides :=
  match s.after with
  | [] => s
  | c :: after => { s with before := c :: s.before, after := after }

def insert (s : Sides) (c : Char) : Sides × Bool :=
  if s.before.length + s.after.length < NameInput.limit then
    ({ s with before := c :: s.before }, true)
  else (s, false)

def deleteBefore (s : Sides) : Sides × Bool :=
  match s.before with
  | [] => (s, false)
  | _ :: before => ({ s with before := before }, true)

def deleteAfter (s : Sides) : Sides × Bool :=
  match s.after with
  | [] => (s, false)
  | _ :: after => ({ s with after := after }, true)

def accept (s : Sides) : Sides × Bool :=
  match s.input.ranked.head? with
  | none => (s, false)
  | some best =>
      ({ s with before := (best.toList.take NameInput.limit).reverse, after := [] }, true)

def shortcut? (s : Sides) : Char → Option Sides
  | 'u' => some s.clear
  | 'a' => some s.toStart
  | 'e' => some s.toEnd
  | _ => none

def handleChar (s : Sides) (key : Key) (c : Char) : Sides × Bool :=
  if key.ctrl then ((s.shortcut? c).getD s, (s.shortcut? c).isSome)
  else if key.alt ∨ Text.isControl c then (s, false)
  else s.insert c

def handleKey (s : Sides) (key : Key) : Sides × Bool :=
  match key.code with
  | .char c => s.handleChar key c
  | .backspace => s.deleteBefore
  | .delete => s.deleteAfter
  | .left => (s.toLeft, true)
  | .right => (s.toRight, true)
  | .home => (s.toStart, true)
  | .endKey => (s.toEnd, true)
  | .tab => s.accept
  | _ => (s, false)

/-! ## Each key on both sides -/

def answer (r : Sides × Bool) : NameInput × Bool :=
  (r.1.input, r.2)

variable (s : Sides)

theorem length_value_input : s.input.value.length = s.before.length + s.after.length := by
  simp [input, text]

theorem moveTo_zero_input : s.input.moveTo 0 = answer (s.toStart, true) := by
  simp [NameInput.moveTo, answer, input, toStart, text]

theorem moveTo_length_input : s.input.moveTo s.input.value.length = answer (s.toEnd, true) := by
  simp [NameInput.moveTo, answer, input, toEnd, text, Nat.add_comm]

theorem moveTo_pred_input : s.input.moveTo (s.input.cursor - 1) = answer (s.toLeft, true) := by
  obtain ⟨before, after, suggestions⟩ := s
  cases before with
  | nil => rfl
  | cons c before => simp [NameInput.moveTo, answer, input, toLeft, text]

theorem moveTo_succ_input :
    s.input.moveTo (min (s.input.cursor + 1) s.input.value.length) = answer (s.toRight, true) := by
  obtain ⟨before, after, suggestions⟩ := s
  cases after with
  | nil => simp [NameInput.moveTo, answer, input, toRight, text]
  | cons c after => simp [NameInput.moveTo, answer, input, toRight, text]

theorem insert_input (c : Char) : s.input.insert c = answer (s.insert c) := by
  have hinserted : (s.before.reverse ++ s.after).insertIdx s.before.length c =
      s.before.reverse ++ c :: s.after := by
    rw [← List.length_reverse]
    exact List.modifyTailIdx_add (List.cons c) 0 s.before.reverse s.after
  rw [NameInput.insert, insert, length_value_input]
  split
  · rw [if_neg (by omega)]
    rfl
  · rw [if_pos (by omega)]
    simp [answer, input, text, hinserted]

theorem deleteBefore_input : s.input.deleteBefore = answer s.deleteBefore := by
  obtain ⟨before, after, suggestions⟩ := s
  cases before with
  | nil => rfl
  | cons c before =>
      simp [NameInput.deleteBefore, answer, input, deleteBefore, text,
        List.eraseIdx_append_of_length_le]

theorem deleteAfter_input : s.input.deleteAfter = answer s.deleteAfter := by
  obtain ⟨before, after, suggestions⟩ := s
  cases after with
  | nil => simp [NameInput.deleteAfter, answer, input, deleteAfter, text]
  | cons c after =>
      simp [NameInput.deleteAfter, answer, input, deleteAfter, text,
        List.eraseIdx_append_of_length_le]

theorem accept_input : s.input.accept = answer s.accept := by
  rw [NameInput.accept, accept]
  cases s.input.ranked.head? with
  | none => rfl
  | some best => simp [answer, input, NameInput.setValue, text]

theorem handleChar_input (key : Key) (c : Char) :
    s.input.handleChar key c = answer (s.handleChar key c) := by
  rw [NameInput.handleChar, handleChar]
  split
  · by_cases hu : c = 'u'
    · subst hu
      rfl
    by_cases ha : c = 'a'
    · subst ha
      exact s.moveTo_zero_input
    by_cases he : c = 'e'
    · subst he
      exact s.moveTo_length_input
    · have hnone : s.shortcut? c = none := by
        unfold shortcut?
        split <;> first | contradiction | rfl
      rw [if_neg hu, if_neg ha, if_neg he, hnone]
      rfl
  · split
    · rfl
    · exact s.insert_input c

theorem handleKey_input (key : Key) : s.input.handleKey key = answer (s.handleKey key) := by
  obtain ⟨code, ctrl, alt, shift⟩ := key
  cases code with
  | char c => exact s.handleChar_input _ c
  | backspace => exact s.deleteBefore_input
  | delete => exact s.deleteAfter_input
  | left => exact s.moveTo_pred_input
  | right => exact s.moveTo_succ_input
  | home => exact s.moveTo_zero_input
  | endKey => exact s.moveTo_length_input
  | tab => exact s.accept_input
  | _ => rfl

end Sides

namespace NameInput

theorem answered_or_unchanged (n : NameInput) (key : Key) :
    (n.handleKey key).2 = true ∨ (n.handleKey key).1 = n := by
  obtain ⟨code, ctrl, alt, shift⟩ := key
  cases code with
  | char c =>
      change (n.handleChar _ c).2 = true ∨ (n.handleChar _ c).1 = n
      unfold handleChar insert
      split_ifs <;> first | exact .inl rfl | exact .inr rfl
  | backspace =>
      change n.deleteBefore.2 = true ∨ n.deleteBefore.1 = n
      unfold deleteBefore
      split <;> first | exact .inl rfl | exact .inr rfl
  | delete =>
      change n.deleteAfter.2 = true ∨ n.deleteAfter.1 = n
      unfold deleteAfter
      split <;> first | exact .inl rfl | exact .inr rfl
  | tab =>
      change n.accept.2 = true ∨ n.accept.1 = n
      unfold accept
      split <;> first | exact .inl rfl | exact .inr rfl
  | left => exact .inl rfl
  | right => exact .inl rfl
  | home => exact .inl rfl
  | endKey => exact .inl rfl
  | _ => exact .inr rfl

/-! ## Runs -/

inductive Event where
  | key (key : Key)
  | suggest (suggestions : List String)
  deriving DecidableEq, Repr

def perform (n : NameInput) : Event → NameInput
  | .key key => (n.handleKey key).1
  | .suggest suggestions => { n with suggestions := suggestions }

def performAll (n : NameInput) (events : List Event) : NameInput :=
  events.foldl perform n

end NameInput

namespace Sides

def perform (s : Sides) : NameInput.Event → Sides
  | .key key => (s.handleKey key).1
  | .suggest suggestions => { s with suggestions := suggestions }

def performAll (s : Sides) (events : List NameInput.Event) : Sides :=
  events.foldl perform s

theorem perform_input (s : Sides) (e : NameInput.Event) :
    s.input.perform e = (s.perform e).input := by
  cases e with
  | key key => exact congrArg Prod.fst (s.handleKey_input key)
  | suggest suggestions => rfl

theorem performAll_input (s : Sides) (events : List NameInput.Event) :
    s.input.performAll events = (s.performAll events).input := by
  induction events generalizing s with
  | nil => rfl
  | cons e events ih =>
      change (s.input.perform e).performAll events = _
      rw [perform_input]
      exact ih (s.perform e)

end Sides

namespace NameInput

theorem length_perform_le {n : NameInput} (h : n.value.length ≤ limit) (e : Event) :
    (n.perform e).value.length ≤ limit := by
  cases e with
  | key key => exact length_handleKey_le h key
  | suggest suggestions => exact h

theorem length_performAll_le {n : NameInput} (h : n.value.length ≤ limit) (events : List Event) :
    (n.performAll events).value.length ≤ limit := by
  induction events generalizing n with
  | nil => exact h
  | cons e events ih => exact ih (length_perform_le h e)

/-- A name that is entered is a line with two sides, whatever keys come and whatever is suggested. Its
cursor stays inside of the text, and the text within the limit. -/
theorem performAll_eq_sides (events : List Event) :
    let n := empty.performAll events
    let s := Sides.empty.performAll events
    n = s.input ∧ n.cursor ≤ n.value.length ∧ n.value.length ≤ 120 ∧
      (n.cursor = 0 ∨ n.cursor - 1 < n.value.length) ∧
      ∀ key, (n.handleKey key).2 = (s.handleKey key).2 ∧
        ((n.handleKey key).2 = true ∨ (n.handleKey key).1 = n) := by
  intro n s
  have hsides : n = s.input := Sides.performAll_input .empty events
  have hcursor : n.cursor ≤ n.value.length := by
    rw [hsides, Sides.length_value_input]
    exact Nat.le_add_right _ _
  have hanswer (key : Key) : (n.handleKey key).2 = (s.handleKey key).2 := by
    rw [hsides, Sides.handleKey_input]
    rfl
  exact ⟨hsides, hcursor, length_performAll_le (Nat.zero_le _) events, by omega,
    fun key => ⟨hanswer key, n.answered_or_unchanged key⟩⟩

end NameInput

end RevisionGraph
