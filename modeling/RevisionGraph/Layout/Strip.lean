import RevisionGraph.Layout.Rect

/-!
# Lists as strips of lines

Items have heights in lines and together form a tall strip. A window of the strip is visible,
beginning at the scroll offset. A layout gives the offset back, kept inside the strip and moved as
little as needed to show the cursor's item, with the visible part of each item.
-/

namespace RevisionGraph

/-- The visible part of an item. `clipTop` lines of the item are hidden above it. -/
structure ItemSpan where
  index : Nat
  rect : Rect
  clipTop : Nat
  deriving DecidableEq, Repr

structure StripLayout where
  offset : Nat
  spans : List ItemSpan
  deriving DecidableEq, Repr

namespace StripLayout

def empty : StripLayout :=
  ⟨0, []⟩

def firstIndex? (l : StripLayout) : Option Nat :=
  l.spans.head?.map ItemSpan.index

def lastIndex? (l : StripLayout) : Option Nat :=
  l.spans.getLast?.map ItemSpan.index

end StripLayout

def totalHeight : List Nat → Nat
  | [] => 0
  | h :: rest => h + totalHeight rest

def maxOffset (heights : List Nat) (window : Nat) : Nat :=
  totalHeight heights - window

/-- The offset that shows lines `first` to `last` (not included): up to the first line if it lies
above the window, else down to the last one if it lies below. -/
def reveal (offset window first last : Nat) : Nat :=
  if first < offset then first
  else if offset + window < last then last - window
  else offset

def scrollFor (offset : Nat) (heights : List Nat) (window : Nat) (cursor : Option Nat) : Nat :=
  let limit := maxOffset heights window
  let start := min offset limit
  match cursor.bind fun i => heights[i]?.map fun h => (i, h) with
  | none => start
  | some (i, h) =>
      let first := totalHeight (heights.take i)
      min (reveal start window first (first + h)) limit

def ItemSpan.ofItem (view : Rect) (offset index top bottom : Nat) : ItemSpan :=
  let first := max top offset
  let last := min bottom (offset + view.height)
  ⟨index,
    .cut view.x (toCoordinate (view.y + toCoordinate (first - offset))) view.width
      (toCoordinate (last - first)),
    first - top⟩

/-- The spans of the items from `index` on, the first of which begins at line `top` of the strip. -/
def spansFrom (view : Rect) (offset index top : Nat) : List Nat → List ItemSpan
  | [] => []
  | h :: rest =>
      let others := spansFrom view offset (index + 1) (top + h) rest
      if h = 0 ∨ top + h ≤ offset ∨ offset + view.height ≤ top then others
      else .ofItem view offset index top (top + h) :: others

/-- Lays the items out in `view`. A list without items and a view without lines show nothing; the
former also forgets the offset. -/
def layoutStrip (offset : Nat) (heights : List Nat) (view : Rect) (cursor : Option Nat) :
    StripLayout :=
  if heights.isEmpty then .empty
  else if view.height = 0 then ⟨min offset (maxOffset heights 0), []⟩
  else
    let start := scrollFor offset heights view.height cursor
    ⟨start, spansFrom view start 0 0 heights⟩

end RevisionGraph
