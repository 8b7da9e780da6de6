import RevisionGraph.Terminal.Style
import RevisionGraph.Text.Blank

/-!
# Segments

A segment is a run of text with one style. A line of output is a list of segments.
-/

namespace RevisionGraph

structure Segment where
  text : String
  style : Style
  deriving DecidableEq, Repr

abbrev Line := List Segment

namespace Segment

def plain (text : String) : Segment :=
  ⟨text, .plain⟩

def width (s : Segment) : Nat :=
  s.text.length

def isBlank (s : Segment) : Bool :=
  Text.isBlankText s.text

end Segment

namespace Line

def text (line : Line) : String :=
  String.join (line.map Segment.text)

def width : Line → Nat
  | [] => 0
  | s :: rest => s.width + width rest

theorem text_nil : text [] = "" :=
  String.join_nil

theorem text_cons (s : Segment) (line : Line) : text (s :: line) = s.text ++ line.text :=
  String.join_cons

theorem text_append (xs ys : Line) : text (xs ++ ys) = xs.text ++ ys.text := by
  rw [text, List.map_append, String.join_append]
  rfl

theorem length_text (line : Line) : line.text.length = line.width := by
  induction line with
  | nil => rfl
  | cons s rest ih => rw [text_cons, String.length_append, ih, width, Segment.width]

end Line

end RevisionGraph
