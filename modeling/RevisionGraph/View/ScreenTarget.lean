/-!
# Targets on the screen
-/

namespace RevisionGraph

inductive ScreenTarget where
  | revisionRow (index : Nat)
  | revisions
  | bookmarkRow (index : Nat)
  | bookmarks
  deriving DecidableEq, Repr

end RevisionGraph
