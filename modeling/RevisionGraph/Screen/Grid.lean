import RevisionGraph.Layout.Rect
import RevisionGraph.Terminal.Style
import RevisionGraph.Text.Blank

/-!
# Grids of cells

A screen is a grid of cells, each with a symbol and a pen. What lies outside the grid is dropped.
-/

namespace RevisionGraph

structure Cell where
  symbol : String
  pen : Pen
  deriving DecidableEq, Repr

namespace Cell

def empty : Cell :=
  ⟨" ", .default⟩

def draw (c : Cell) (symbol : String) (style : Style) : Cell :=
  ⟨symbol, c.pen.apply style⟩

def tint (c : Cell) (style : Style) : Cell :=
  { c with pen := c.pen.apply style }

end Cell

structure Grid where
  width : Nat
  height : Nat
  cells : Array Cell
  deriving DecidableEq, Repr

/-- The columns that a width moves on by: they are counted in words of 16 bits. -/
def columnsOf (width : Nat) : Nat :=
  width % 65536

namespace Grid

def empty (width height : Nat) : Grid :=
  ⟨width, height, Array.replicate (width * height) .empty⟩

def area (g : Grid) : Rect :=
  ⟨0, 0, g.width, g.height⟩

def modify (g : Grid) (x y : Nat) (f : Cell → Cell) : Grid :=
  if x < g.width then { g with cells := g.cells.modify (y * g.width + x) f } else g

def modifyArea (g : Grid) (area : Rect) (f : Cell → Cell) : Grid :=
  (List.range area.height).foldl (fun g dy =>
    (List.range area.width).foldl (fun g dx => g.modify (area.x + dx) (area.y + dy) f) g) g

def row (g : Grid) (y : Nat) : List Cell :=
  (g.cells.extract (y * g.width) ((y + 1) * g.width)).toList

def rows (g : Grid) : List (List Cell) :=
  (List.range g.height).map g.row

end Grid

/-! ## Reading a screen -/

def rowText (cells : List Cell) : String :=
  String.ofList (Text.trimEnd (cells.flatMap fun c => c.symbol.toList))

structure StyleRun where
  x : Nat
  length : Nat
  style : Style
  deriving DecidableEq, Repr

def shownColor : Option Color → Option Color
  | some .reset => none
  | c => c

def shownStyle (p : Pen) : Style :=
  ⟨shownColor p.fg, shownColor p.bg, p.modifiers, .empty⟩

/-- Puts a cell at `x` before the runs that begin at `x + 1` or later. -/
def addToRuns (x : Nat) (style : Style) : List StyleRun → List StyleRun
  | r :: rest =>
      if r.x = x + 1 ∧ r.style = style then ⟨x, r.length + 1, style⟩ :: rest
      else ⟨x, 1, style⟩ :: r :: rest
  | [] => [⟨x, 1, style⟩]

def runsFrom (x : Nat) : List Cell → List StyleRun
  | [] => []
  | c :: rest => addToRuns x (shownStyle c.pen) (runsFrom (x + 1) rest)

def styleRuns (cells : List Cell) : List StyleRun :=
  (runsFrom 0 cells).filter fun r => r.style ≠ .plain

end RevisionGraph
