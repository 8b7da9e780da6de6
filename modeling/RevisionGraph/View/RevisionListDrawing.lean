import RevisionGraph.Operation
import RevisionGraph.Screen.Paint
import RevisionGraph.View.RevisionList
import RevisionGraph.View.RowLines
import RevisionGraph.View.ScreenTarget
import RevisionGraph.View.Theme

/-!
# Drawing the revision list

Rows are drawn with a mark when they are checked and with the decorations of the operation at hand.
-/

namespace RevisionGraph

def checkedMark : Decoration :=
  ⟨"✓ ", .checked⟩

def overlayFor (operation : Option Operation) (checked : CheckedSet) (c : Commit) : Overlay :=
  let mark := if checked.contains c then [checkedMark] else []
  match operation with
  | none => ⟨mark, []⟩
  | some o => ⟨mark ++ o.decorations c .beforeChangeId, o.decorations c .afterRow⟩

namespace RevisionList

def items (v : RevisionList) (operation : Option Operation) : List (Row × Overlay) :=
  v.rows.map fun row => (row, overlayFor operation v.checked row.commit)

def heights (items : List (Row × Overlay)) : List Nat :=
  items.map fun (row, overlay) => row.heightWith overlay

def linesOf (items : List (Row × Overlay)) (theme : Theme) (cursor index : Nat) : List Line :=
  match items[index]? with
  | none => []
  | some (row, overlay) =>
      let highlight := if index = cursor then some (theme.style .selected) else none
      row.drawnLines overlay highlight theme.style

def paintSpan (items : List (Row × Overlay)) (theme : Theme) (cursor : Nat) (s : ItemSpan) :
    Paint :=
  .lines s.rect (((linesOf items theme cursor s.index).drop s.clipTop).take s.rect.height)

def emptyText (v : RevisionList) : String :=
  if v.isLoading then "Loading…" else "No revisions"

/-- Lays the rows out in the area and paints them. The window follows the cursor only if
`follow`. -/
def draw (v : RevisionList) (area : Rect) (theme : Theme) (operation : Option Operation)
    (follow : Bool) (targets : Targets ScreenTarget) :
    RevisionList × List Paint × Targets ScreenTarget :=
  if v.rows.isEmpty then
    ({ v with viewport := v.viewport.reset },
      [.lines area [[⟨v.emptyText, theme.style .empty⟩]]], targets)
  else
    let items := v.items operation
    let cursor := if follow then some v.cursor else none
    let viewport := v.viewport.arrange area (heights items) cursor
    let targets := viewport.registerItems .click .revisionRow targets
    let targets := viewport.registerItems .drag .revisionRow targets
    let targets := viewport.registerScroll .revisions targets
    ({ v with viewport := viewport },
      viewport.spans.map (paintSpan items theme v.cursor), targets)

end RevisionList

end RevisionGraph
