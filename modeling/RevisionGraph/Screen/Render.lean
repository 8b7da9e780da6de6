import RevisionGraph.Screen.Paint
import RevisionGraph.Screen.Wrap

/-!
# Carrying out paint

Draws paint on a grid of cells.
-/

namespace RevisionGraph

namespace Grid

/-- Clusters without width are not drawn; the cell after a wide one stays as it was. -/
def drawClusters (g : Grid) (x y : Nat) : List Cluster → Grid
  | [] => g
  | c :: rest =>
      if c.width = 0 then g.drawClusters x y rest
      else
        (g.modify x y (·.draw (String.ofList c.symbol) c.style)).drawClusters (x + c.columns) y rest

def drawRows (g : Grid) (area : Rect) (rows : List (List Cluster)) : Grid :=
  (rows.take area.height).zipIdx.foldl
    (fun g (row, dy) => g.drawClusters area.x (area.y + dy) row) g

/-- Stops at the first cluster that does not fit. A cluster without width goes into the cell before
it. -/
def drawTitleClusters (g : Grid) (y left right x : Nat) : List Cluster → Grid
  | [] => g
  | c :: rest =>
      if right < x + c.columns then g
      else if c.width = 0 ∧ left < x then
        (g.modify (x - 1) y fun cell =>
          (⟨cell.symbol ++ String.ofList c.symbol, cell.pen⟩ : Cell).tint c.style).drawTitleClusters
          y left right x rest
      else
        let g := g.modify x y (·.draw (String.ofList c.symbol) c.style)
        let g := (List.range (c.columns - 1)).foldl
          (fun g i => g.modify (x + 1 + i) y fun _ => .empty) g
        g.drawTitleClusters y left right (x + c.columns) rest

/-- A title has as many columns as its text takes, even if its clusters take more one by one. -/
def drawTitle (g : Grid) (area : Rect) (title : Segment) : Grid :=
  let width := min area.width (columnsOf (Text.textWidth title.text.toList))
  if width = 0 then g
  else g.drawTitleClusters area.y area.x (area.x + width) area.x (Cluster.ofSegment title)

def drawColumn (g : Grid) (x y height : Nat) (symbol : String) (style : Style) : Grid :=
  g.modifyArea ⟨x, y, 1, height⟩ (·.draw symbol style)

def drawEdge (g : Grid) (x y width : Nat) (symbol : String) (style : Style) : Grid :=
  g.modifyArea ⟨x, y, width, 1⟩ (·.draw symbol style)

def drawBox (g : Grid) (area : Rect) (style : Style) : Grid :=
  if area.isEmpty then g
  else
    let right := area.right - 1
    let bottom := area.bottom - 1
    let g := g.drawColumn area.x area.y area.height "│" style
    let g := g.drawEdge area.x area.y area.width "─" style
    let g := g.drawColumn right area.y area.height "│" style
    let g := g.drawEdge area.x bottom area.width "─" style
    let g := g.modify right bottom (·.draw "┘" style)
    let g := g.modify right area.y (·.draw "┐" style)
    let g := g.modify area.x bottom (·.draw "└" style)
    g.modify area.x area.y (·.draw "┌" style)

def paint (g : Grid) : Paint → Grid
  | .lines area lines => g.drawRows area (lines.map fun l => clip area.width 0 (Cluster.ofLine l))
  | .wrapped area lines =>
      if area.width = 0 then g
      else g.drawRows area (lines.flatMap fun l => wrap area.width (Cluster.ofLine l))
  | .title area title =>
      if area.isEmpty then g
      else g.drawTitle area title
  | .leftBorder area style =>
      if area.isEmpty then g else g.drawColumn area.x area.y area.height "│" style
  | .box area style => g.drawBox area style
  | .clear area => g.modifyArea area fun _ => .empty
  | .tint area style => g.modifyArea area (·.tint style)

def paintAll (g : Grid) (ps : List Paint) : Grid :=
  ps.foldl paint g

end Grid

end RevisionGraph
