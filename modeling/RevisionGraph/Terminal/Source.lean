/-!
# Sources

A source is a list of reads. Each delivers bytes, is interrupted, or fails. The bytes of one read may
be more than a reader takes at once; what it leaves is there for the next one.
-/

namespace RevisionGraph

inductive Read where
  | bytes (b : List UInt8)
  | interrupted
  | failed (message : String)
  deriving DecidableEq, Repr

abbrev Source := List Read

namespace Source

/-- The bytes before the end or the first failure. -/
def content : Source → List UInt8
  | [] => []
  | .bytes b :: rest => b ++ content rest
  | .interrupted :: rest => content rest
  | .failed _ :: _ => []

def bufferSize : Nat :=
  8192

/-- What one read brings, and the source after it. No bytes mean the end; a piece without bytes is
passed over. -/
def read : Source → Read × Source
  | [] => (.bytes [], [])
  | .interrupted :: rest => (.interrupted, rest)
  | .failed message :: rest => (.failed message, rest)
  | .bytes [] :: rest => read rest
  | .bytes (b :: bs) :: rest =>
      (.bytes ((b :: bs).take bufferSize), .bytes ((b :: bs).drop bufferSize) :: rest)

def unread : Source → Nat
  | [] => 0
  | .bytes b :: rest => b.length + 1 + unread rest
  | .interrupted :: rest | .failed _ :: rest => 1 + unread rest

theorem unread_read_le (source : Source) : source.read.2.unread ≤ source.unread := by
  fun_induction read source with
  | case1 => exact Nat.le_refl _
  | case2 rest | case3 message rest => simp only [unread]; omega
  | case4 rest ih => simp only [unread]; omega
  | case5 b bs rest => simp only [unread, List.length_drop]; omega

theorem unread_read_lt {source rest : Source} {r : Read} (h : source.read = (r, rest))
    (hr : r ≠ .bytes []) : rest.unread < source.unread := by
  fun_induction read source with
  | case1 =>
      simp only [Prod.mk.injEq] at h
      exact absurd h.1.symm hr
  | case2 tail | case3 message tail =>
      obtain ⟨rfl, rfl⟩ := Prod.mk.inj h
      simp only [unread]
      omega
  | case4 tail ih =>
      have := ih h
      simp only [unread]
      omega
  | case5 b bs tail =>
      obtain ⟨rfl, rfl⟩ := Prod.mk.inj h
      simp only [unread, List.length_drop, List.length_cons, bufferSize]
      omega

end Source

end RevisionGraph
