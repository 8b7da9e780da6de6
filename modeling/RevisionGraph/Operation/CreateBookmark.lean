import RevisionGraph.Bookmark.Listing
import RevisionGraph.Operation.Batch
import RevisionGraph.Operation.NameInput
import RevisionGraph.Runner
import RevisionGraph.Text.Utf8

/-!
# Creating a bookmark

First the cursor chooses a revision, then a name is entered. The revision stays as it was chosen
while the name is being entered.
-/

namespace RevisionGraph

inductive CreateStage where
  | selecting
  | entering
  deriving DecidableEq, Repr

structure BookmarkCreation where
  stage : CreateStage
  target : Option Commit
  input : NameInput
  deriving DecidableEq, Repr

namespace BookmarkCreation

def initial : BookmarkCreation :=
  ⟨.selecting, none, .empty⟩

def exit : List Effect :=
  [.emit .endCreateMode, .emit .closeOperation]

def suggestions (answer : Except RunError (List UInt8)) : List String :=
  match answer with
  | .error _ => []
  | .ok output =>
      ((readRecordListing (Text.Utf8.text output)).filter
        fun b => !b.name.isEmpty && !b.backwards).map Bookmark.name

def enterName (runner : Runner) (c : BookmarkCreation) (target : Commit) (calls : Calls) :
    BookmarkCreation × Calls :=
  let command := Command.listMovable target.revision
  let found := suggestions (runner.run calls command)
  (⟨.entering, c.target, { c.input.clear with suggestions := found }⟩, calls ++ [.run command])

def confirm (c : BookmarkCreation) : Outcome :=
  match c.target with
  | none => .consumed
  | some target =>
      if c.input.name.isEmpty then .consumed
      else
        .effect (.sequence
          (.run (.createBookmark c.input.name target.revision) [.refresh] :: exit))

def handleKey (runner : Runner) (c : BookmarkCreation) (calls : Calls) (key : Key) :
    BookmarkCreation × Calls × Outcome :=
  match c.stage, key.code with
  | .selecting, .esc => (c, calls, .effect (.sequence exit))
  | .selecting, .enter =>
      match c.target with
      | none => (c, calls, .consumed)
      | some target =>
          let (c', calls') := c.enterName runner target calls
          (c', calls', .consumed)
  | .selecting, _ => (c, calls, .pass)
  | .entering, .esc => ({ c with stage := .selecting, input := c.input.clear }, calls, .consumed)
  | .entering, .enter => (c, calls, c.confirm)
  | .entering, _ => ({ c with input := (c.input.handleKey key).1 }, calls, .consumed)

def setSelected (c : BookmarkCreation) (selected : Option Commit) : BookmarkCreation :=
  match c.stage with
  | .selecting => { c with target := selected }
  | .entering => c

def decorations (c : BookmarkCreation) (commit : Commit) (place : Place) : List Decoration :=
  if c.target.any fun target => target.changeId = commit.changeId then
    match place, c.stage with
    | .beforeChangeId, .entering => c.input.view ++ [.plain " "]
    | .beforeChangeId, .selecting => [.marker "<< on >>", .plain " "]
    | .afterRow, .entering => [.marker "<< on >>", .plain " enter bookmark name"]
    | .afterRow, .selecting => [.marker "<< on >>", .plain " create bookmark here"]
  else []

def name (c : BookmarkCreation) : String :=
  match c.stage with
  | .selecting => "create bookmark"
  | .entering => "create bookmark (enter name)"

def hints (c : BookmarkCreation) : List KeyHint :=
  match c.stage with
  | .selecting => [⟨"enter", "select revision"⟩, ⟨"esc", "cancel"⟩]
  | .entering => [⟨"enter", "create"⟩, ⟨"tab", "complete"⟩, ⟨"esc", "back"⟩]

end BookmarkCreation

end RevisionGraph
