import RevisionGraph.Operation.Batch

/-!
# Moving a bookmark

The cursor chooses the revision that the bookmark moves to.
-/

namespace RevisionGraph

structure BookmarkMove where
  bookmark : String
  target : Option Commit
  deriving DecidableEq, Repr

namespace BookmarkMove

/-- The panel leaves its mode before the operation is closed. -/
def exit : List Effect :=
  [.emit .endMoveMode, .emit .closeOperation]

def confirm (m : BookmarkMove) : Effect :=
  match m.target with
  | none => .sequence exit
  | some target =>
      .sequence (.run (.moveBookmark m.bookmark target.revision) [.refresh] :: exit)

def handleKey (m : BookmarkMove) (key : Key) : Outcome :=
  match key.code with
  | .esc => .effect (.sequence exit)
  | .enter => .effect m.confirm
  | _ => .pass

def decorations (m : BookmarkMove) (c : Commit) (place : Place) : List Decoration :=
  match m.target with
  | none => []
  | some target =>
      if target.changeId ≠ c.changeId then []
      else
        match place with
        | .beforeChangeId => [.marker "<< onto >>", .plain " "]
        | .afterRow =>
            [.marker "<< onto >>",
              .plain (" move bookmark '" ++ m.bookmark ++ "' to " ++ target.revision)]

def name (m : BookmarkMove) : String :=
  "move bookmark '" ++ m.bookmark ++ "'"

def hints : List KeyHint :=
  [⟨"enter", "move bookmark"⟩, ⟨"esc", "cancel move"⟩]

end BookmarkMove

end RevisionGraph
