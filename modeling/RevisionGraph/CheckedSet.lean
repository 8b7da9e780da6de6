import RevisionGraph.Log.Commit

/-!
# Checked revisions

The change ids that the user has checked, in ascending order, with a stamp that changes whenever the
set may have.
-/

namespace RevisionGraph

structure CheckedSet where
  stamp : UInt64
  ids : List String
  deriving DecidableEq, Repr

namespace CheckedSet

def empty : CheckedSet :=
  ⟨0, []⟩

def contains (s : CheckedSet) (c : Commit) : Bool :=
  s.ids.contains c.changeId

/-- Puts an id into its place in an ascending list, or takes it out. -/
def toggleId (id : String) : List String → List String
  | [] => [id]
  | other :: rest =>
      if id = other then rest
      else if id < other then id :: other :: rest
      else other :: toggleId id rest

def toggle (s : CheckedSet) (c : Commit) : CheckedSet :=
  ⟨s.stamp + 1, toggleId c.changeId s.ids⟩

def toggleAll (s : CheckedSet) (cs : List Commit) : CheckedSet :=
  ⟨s.stamp + 1, cs.foldl (fun ids c => toggleId c.changeId ids) s.ids⟩

def clear (s : CheckedSet) : CheckedSet :=
  if s.ids.isEmpty then s else ⟨s.stamp + 1, []⟩

end CheckedSet

end RevisionGraph
