import RevisionGraph.Effect
import RevisionGraph.Key
import RevisionGraph.CheckedSet
import RevisionGraph.View.Decoration

/-!
# Batch selection

Selects a range of rows: one end stays where the operation began, the other follows the cursor.
-/

namespace RevisionGraph

structure BatchSelection where
  start : Commit
  current : Option Commit
  deriving DecidableEq, Repr

namespace BatchSelection

def ofStart (start : Commit) : BatchSelection :=
  ⟨start, some start⟩

def confirm (b : BatchSelection) : Effect :=
  match b.current with
  | none => .emit .closeOperation
  | some current =>
      .batch [.emit (.toggleRange b.start.changeId current.changeId), .emit .closeOperation]

def handleKey (b : BatchSelection) (checked : CheckedSet) (key : Key) : CheckedSet × Outcome :=
  match key.code with
  | .enter => (checked, .effect b.confirm)
  | .esc => (checked, .effect (.emit .closeOperation))
  | .char ' ' => (b.current.elim checked checked.toggle, .consumed)
  | _ => (checked, .pass)

def decorations (b : BatchSelection) (c : Commit) : Place → List Decoration
  | .afterRow => []
  | .beforeChangeId =>
      if c.changeId = b.start.changeId then [.marker "<< start >>", .plain " "]
      else if b.current.any fun current => current.changeId = c.changeId then
        [.marker "<< end >>", .plain " "]
      else []

def status (b : BatchSelection) : String :=
  let last :=
    match b.current with
    | none => ""
    | some c => if c.changeId = b.start.changeId then "" else " to: " ++ c.revision
  "Batch select from: " ++ b.start.revision ++ last

def hints : List KeyHint :=
  [⟨"enter", "toggle range"⟩, ⟨"space", "toggle"⟩, ⟨"esc", "cancel"⟩]

end BatchSelection

end RevisionGraph
