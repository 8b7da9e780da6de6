import RevisionGraph.Layout.Rect
import RevisionGraph.Terminal.Segment

/-!
# Paint

What a frame is made of, as data: the parts of the dashboard say what goes where, and the screen
carries it out in order.
-/

namespace RevisionGraph

inductive Paint where
  | lines (area : Rect) (lines : List Line)
  | wrapped (area : Rect) (lines : List Line)
  | title (area : Rect) (title : Segment)
  | leftBorder (area : Rect) (style : Style)
  | box (area : Rect) (style : Style)
  | clear (area : Rect)
  | tint (area : Rect) (style : Style)
  deriving DecidableEq, Repr

end RevisionGraph
