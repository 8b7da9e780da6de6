import RevisionGraph.Log.Row

/-!
# Held rows

The rows that wait to be handed over. They are kept with the last one first and are counted, so that
neither adding one nor asking for their number depends on how many there are.
-/

namespace RevisionGraph

structure HeldRows where
  reversed : List Row
  size : Nat
  size_eq : size = reversed.length
  deriving DecidableEq, Repr

namespace HeldRows

def empty : HeldRows :=
  ⟨[], 0, rfl⟩

def push (held : HeldRows) (row : Row) : HeldRows :=
  ⟨row :: held.reversed, held.size + 1, by simp [held.size_eq]⟩

def pushAll (held : HeldRows) (rows : List Row) : HeldRows :=
  rows.foldl push held

def ofList (rows : List Row) : HeldRows :=
  empty.pushAll rows

def toList (held : HeldRows) : List Row :=
  held.reversed.reverse

@[simp] theorem length_toList (held : HeldRows) : held.toList.length = held.size := by
  simp [toList, held.size_eq]

@[simp] theorem toList_empty : empty.toList = [] :=
  rfl

@[simp] theorem toList_push (held : HeldRows) (row : Row) :
    (held.push row).toList = held.toList ++ [row] := by
  simp [push, toList]

@[simp] theorem toList_pushAll (held : HeldRows) (rows : List Row) :
    (held.pushAll rows).toList = held.toList ++ rows := by
  induction rows generalizing held with
  | nil => simp [pushAll]
  | cons row rows ih =>
      have h := ih (held.push row)
      simp only [pushAll] at h
      simp [pushAll, h]

@[simp] theorem toList_ofList (rows : List Row) : (ofList rows).toList = rows := by
  simp [ofList]

end HeldRows

end RevisionGraph
