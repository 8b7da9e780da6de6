import RevisionGraph.Log.Row
import RevisionGraph.View.Decoration

/-!
# Lines of a row

A row is drawn as its own lines, with decorations before the change id, and a line below them when
there are decorations for that. The highlight of the selected row is patched over the lines that
take part in it.
-/

namespace RevisionGraph

structure Overlay where
  beforeChangeId : List Decoration
  afterRow : List Decoration
  deriving DecidableEq, Repr

namespace Overlay

def empty : Overlay :=
  ⟨[], []⟩

def isEmpty (o : Overlay) : Bool :=
  o.beforeChangeId.isEmpty && o.afterRow.isEmpty

end Overlay

def Segment.patch (s : Segment) (top : Option Style) : Segment :=
  { s with style := top.elim s.style s.style.patch }

namespace Row

def heightWith (row : Row) (overlay : Overlay) : Nat :=
  row.height + if overlay.afterRow.isEmpty then 0 else 1

def highlightOf (line : GraphLine) (highlight : Option Style) : Option Style :=
  if line.flags.highlightable then highlight else none

def insertAt (index : Option Nat) (inserted line : Line) : Line :=
  match index with
  | none => line
  | some i => line.take i ++ inserted ++ line.drop i

def firstLine (line : GraphLine) (overlay : Overlay) (highlight : Option Style)
    (styles : StyleKey → Style) : Line :=
  let decorations := overlay.beforeChangeId.map (Decoration.segment styles)
  (insertAt line.segments.changeIdIndex? decorations line.segments).map
    (·.patch (highlightOf line highlight))

def laterLine (line : GraphLine) (highlight : Option Style) : Line :=
  line.segments.map (·.patch (highlightOf line highlight))

def lineAfter (row : Row) (overlay : Overlay) (styles : StyleKey → Style) : List Line :=
  if overlay.afterRow.isEmpty then []
  else [row.extension ++ overlay.afterRow.map (Decoration.segment styles)]

def ownLines (overlay : Overlay) (highlight : Option Style) (styles : StyleKey → Style) :
    List GraphLine → List Line
  | [] => []
  | first :: rest => firstLine first overlay highlight styles :: rest.map (laterLine · highlight)

def drawnLines (row : Row) (overlay : Overlay) (highlight : Option Style)
    (styles : StyleKey → Style) : List Line :=
  ownLines overlay highlight styles row.lines ++ row.lineAfter overlay styles

@[simp] theorem length_ownLines (overlay : Overlay) (highlight : Option Style)
    (styles : StyleKey → Style) (lines : List GraphLine) :
    (ownLines overlay highlight styles lines).length = lines.length := by
  cases lines <;> simp [ownLines]

@[simp] theorem length_drawnLines (row : Row) (overlay : Overlay) (highlight : Option Style)
    (styles : StyleKey → Style) :
    (row.drawnLines overlay highlight styles).length = row.heightWith overlay := by
  simp only [drawnLines, heightWith, height, lineAfter, List.length_append, length_ownLines]
  split <;> rfl

end Row

end RevisionGraph
