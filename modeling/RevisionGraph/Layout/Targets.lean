import RevisionGraph.Layout.Rect

/-!
# Mouse targets

Rectangles that answer a kind of mouse event with a message. Later targets lie on top of earlier
ones.
-/

namespace RevisionGraph

inductive TargetKind where
  | click
  | drag
  | scroll
  deriving DecidableEq, Repr

structure Target (α : Type) where
  rect : Rect
  kind : TargetKind
  message : α
  deriving DecidableEq, Repr

abbrev Targets (α : Type) := List (Target α)

namespace Targets

variable {α : Type}

/-- An empty rectangle is no target. -/
def register (ts : Targets α) (rect : Rect) (kind : TargetKind) (message : α) : Targets α :=
  if rect.isEmpty then ts else ts ++ [⟨rect, kind, message⟩]

def hit (ts : Targets α) (x y : Nat) (kind : TargetKind) : Option α :=
  (ts.reverse.find? fun t => t.kind = kind ∧ t.rect.contains x y).map Target.message

theorem mem_or_message_eq_of_mem_register {ts : Targets α} {rect : Rect} {kind : TargetKind}
    {message : α} {t : Target α} (h : t ∈ ts.register rect kind message) :
    t ∈ ts ∨ t.message = message := by
  simp only [register] at h
  split at h
  · exact .inl h
  · rcases List.mem_append.mp h with h | h
    · exact .inl h
    · rw [List.mem_singleton.mp h]
      exact .inr rfl

theorem exists_mem_of_hit {ts : Targets α} {x y : Nat} {kind : TargetKind} {message : α}
    (h : ts.hit x y kind = some message) : ∃ t ∈ ts, t.message = message := by
  obtain ⟨t, hfind, hmessage⟩ := Option.map_eq_some_iff.mp h
  exact ⟨t, List.mem_reverse.mp (List.mem_of_find?_eq_some hfind), hmessage⟩

end Targets

end RevisionGraph
