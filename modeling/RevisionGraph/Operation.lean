import RevisionGraph.Operation.Batch
import RevisionGraph.Operation.CreateBookmark
import RevisionGraph.Operation.MoveBookmark

/-!
# Operations

An operation lies over the log. It sees keys before the log does, follows the selected revision and
decorates rows. Everything that it wants done comes back as an effect, and the last message of that
effect closes it.
-/

namespace RevisionGraph

inductive Operation where
  | batch (b : BatchSelection)
  | move (m : BookmarkMove)
  | create (c : BookmarkCreation)
  deriving DecidableEq, Repr

inductive Panel where
  | revisions
  | bookmarks
  deriving DecidableEq, Repr

namespace Operation

structure KeyResult where
  operation : Operation
  checked : CheckedSet
  calls : Calls
  outcome : Outcome

def handleKey (runner : Runner) (o : Operation) (checked : CheckedSet) (calls : Calls) (key : Key) :
    KeyResult :=
  match o with
  | .batch b =>
      let (checked', outcome) := b.handleKey checked key
      ⟨o, checked', calls, outcome⟩
  | .move m => ⟨o, checked, calls, m.handleKey key⟩
  | .create c =>
      let (c', calls', outcome) := c.handleKey runner calls key
      ⟨.create c', checked, calls', outcome⟩

def setSelected (o : Operation) (selected : Option Commit) : Operation :=
  match o with
  | .batch b => .batch { b with current := selected }
  | .move m => .move { m with target := selected }
  | .create c => .create (c.setSelected selected)

def decorations (o : Operation) (c : Commit) (place : Place) : List Decoration :=
  match o with
  | .batch b => b.decorations c place
  | .move m => m.decorations c place
  | .create k => k.decorations c place

/-- Owns every key, because text is being entered. -/
def isEditing : Operation → Bool
  | .create c => c.stage == .entering
  | _ => false

/-- Sees keys before the log, which the cursor still moves through. -/
def isFocused (o : Operation) : Bool :=
  !o.isEditing

def name : Operation → String
  | .batch _ => "batch"
  | .move m => m.name
  | .create c => c.name

def hints : Operation → List KeyHint
  | .batch _ => BatchSelection.hints
  | .move _ => BookmarkMove.hints
  | .create c => c.hints

def status : Operation → Option String
  | .batch b => some b.status
  | _ => none

def owner : Operation → Panel
  | .batch _ => .revisions
  | _ => .bookmarks

end Operation

end RevisionGraph
