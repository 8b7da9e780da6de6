import RevisionGraph.Text.Alphanumeric
import RevisionGraph.Text.Blank

/-!
# Graph glyphs

The characters that draw the graph, and the words that can be identifiers.
-/

namespace RevisionGraph

def isIdentifier (text : String) : Bool :=
  !text.isEmpty && text.toList.all Text.isAlphanumeric

namespace Glyph

def workingCopy : Char := '@'
def conflict : Char := '×'
def elided : Char := '~'

def isConnector (c : Char) : Bool :=
  c ∈ ['│', '|', '├', '┤', '┼', '┆', '┊']

def isNode (c : Char) : Bool :=
  c ∈ ['@', '○', '◆', '×', '◉', '●', '*']

def isEdge (c : Char) : Bool :=
  c ∈ ['~', '─', '╭', '╮', '╯', '╰', '┬', '┴', '/', '\\']

def isGraph (c : Char) : Bool :=
  isConnector c || isNode c || isEdge c

def continuation (c : Char) : Char :=
  if c = '|' then '|'
  else if isConnector c || isNode c then '│'
  else ' '

end Glyph

end RevisionGraph
