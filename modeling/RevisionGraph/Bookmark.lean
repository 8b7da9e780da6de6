/-!
# Bookmarks

A bookmark points to commits: locally and on any number of remotes.
-/

namespace RevisionGraph

structure Pointer where
  remote : String
  commitId : String
  tracked : Bool
  deriving DecidableEq, Repr

structure Bookmark where
  name : String
  pointer : Option Pointer
  remotes : List Pointer
  conflict : Bool
  /-- Moving it to the revision at hand would move it backwards. -/
  backwards : Bool
  commitId : String
  deriving DecidableEq, Repr

namespace Bookmark

def isDeletable (b : Bookmark) : Bool :=
  b.pointer.isSome

def isTrackable (b : Bookmark) : Bool :=
  b.pointer.isSome && b.remotes.isEmpty

end Bookmark

end RevisionGraph
