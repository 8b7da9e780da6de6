import RevisionGraph.Layout.Strip
import RevisionGraph.Layout.Targets
import RevisionGraph.Text.Numeral

/-!
# Viewports

A viewport keeps the scroll offset of a list and its last layout, so that screen cells can be traced
back to items.
-/

namespace RevisionGraph

/-- `n` moved by `delta`, kept inside the range of sizes. -/
def moveBy (n : Nat) (delta : Int) : Nat :=
  min ((n : Int) + delta).toNat Text.maxSize

structure Viewport where
  offset : Nat
  layout : StripLayout
  view : Rect
  deriving DecidableEq, Repr

namespace Viewport

def initial : Viewport :=
  ⟨0, .empty, .empty⟩

/-- Lays the items out anew. Without a cursor the offset stays where the user put it. -/
def arrange (v : Viewport) (view : Rect) (heights : List Nat) (cursor : Option Nat) : Viewport :=
  let layout := layoutStrip v.offset heights view cursor
  ⟨layout.offset, layout, view⟩

def scrollBy (v : Viewport) (delta : Int) : Viewport :=
  { v with offset := moveBy v.offset delta }

def reset (v : Viewport) : Viewport :=
  { v with offset := 0, layout := .empty }

def spans (v : Viewport) : List ItemSpan :=
  v.layout.spans

def itemAt (v : Viewport) (x y : Nat) : Option Nat :=
  (v.spans.find? fun s => s.rect.contains x y).map ItemSpan.index

variable {α : Type}

def registerItems (v : Viewport) (kind : TargetKind) (message : Nat → α) (ts : Targets α) :
    Targets α :=
  v.spans.foldl (fun ts s => ts.register s.rect kind (message s.index)) ts

theorem mem_or_message_eq_of_mem_registerItems {v : Viewport} {kind : TargetKind}
    {message : Nat → α} {ts : Targets α} {t : Target α}
    (h : t ∈ v.registerItems kind message ts) : t ∈ ts ∨ ∃ i, t.message = message i := by
  simp only [registerItems] at h
  generalize v.spans = spans at h
  induction spans generalizing ts with
  | nil => exact .inl h
  | cons s rest ih =>
      rcases ih h with h | h
      · rcases Targets.mem_or_message_eq_of_mem_register h with h | h
        · exact .inl h
        · exact .inr ⟨s.index, h⟩
      · exact .inr h

def registerScroll (v : Viewport) (message : α) (ts : Targets α) : Targets α :=
  ts.register v.view .scroll message

end Viewport

end RevisionGraph
