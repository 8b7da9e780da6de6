/-!
# Rectangles of screen cells

Coordinates have a greatest value, at which sums stop.
-/

namespace RevisionGraph

def maxCoordinate : Nat :=
  65535

def toCoordinate (n : Nat) : Nat :=
  min n maxCoordinate

structure Rect where
  x : Nat
  y : Nat
  width : Nat
  height : Nat
  deriving DecidableEq, Repr

namespace Rect

def empty : Rect :=
  ⟨0, 0, 0, 0⟩

/-- The rectangle at a corner, as much of it as there are coordinates for. -/
def cut (x y width height : Nat) : Rect :=
  ⟨x, y, min width (maxCoordinate - x), min height (maxCoordinate - y)⟩

def right (r : Rect) : Nat :=
  toCoordinate (r.x + r.width)

def bottom (r : Rect) : Nat :=
  toCoordinate (r.y + r.height)

def isEmpty (r : Rect) : Bool :=
  r.width == 0 || r.height == 0

def contains (r : Rect) (x y : Nat) : Bool :=
  r.x ≤ x && x < r.right && r.y ≤ y && y < r.bottom

def OnScreen (r : Rect) : Prop :=
  r.x + r.width ≤ maxCoordinate ∧ r.y + r.height ≤ maxCoordinate

instance (r : Rect) : Decidable r.OnScreen :=
  inferInstanceAs (Decidable (_ ∧ _))

variable {r : Rect}

theorem cut_eq (h : r.OnScreen) : cut r.x r.y r.width r.height = r := by
  obtain ⟨hx, hy⟩ := h
  have hwidth : r.width ≤ maxCoordinate - r.x := by omega
  have hheight : r.height ≤ maxCoordinate - r.y := by omega
  rw [cut, Nat.min_eq_left hwidth, Nat.min_eq_left hheight]

theorem right_eq (h : r.OnScreen) : r.right = r.x + r.width :=
  Nat.min_eq_left h.1

theorem bottom_eq (h : r.OnScreen) : r.bottom = r.y + r.height :=
  Nat.min_eq_left h.2

theorem contains_iff (h : r.OnScreen) {x y : Nat} :
    r.contains x y = true ↔ (r.x ≤ x ∧ x < r.x + r.width) ∧ r.y ≤ y ∧ y < r.y + r.height := by
  simp only [contains, Bool.and_eq_true, decide_eq_true_eq, and_assoc, right_eq h, bottom_eq h]

end Rect

end RevisionGraph
