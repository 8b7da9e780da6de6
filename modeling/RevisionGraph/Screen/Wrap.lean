import RevisionGraph.Screen.Grid
import RevisionGraph.Terminal.Segment
import RevisionGraph.Text.Cluster
import RevisionGraph.Text.DisplayWidth

/-!
# Fitting lines into a width

A line is a list of grapheme clusters with their widths. Clipping keeps what fits; wrapping goes on
below it, at blanks where possible. Blanks at the beginning of a line stay, and those that would
stand at a wrap are dropped as far as the line before has room for them.
-/

namespace RevisionGraph

structure Cluster where
  symbol : List Char
  width : Nat
  style : Style
  deriving DecidableEq, Repr

namespace Cluster

def columns (c : Cluster) : Nat :=
  columnsOf c.width

def isBlank (c : Cluster) : Bool :=
  c.symbol = ['\u200B'] || (c.symbol.all Text.isBlank && c.symbol != ['\u00A0'])

def ofSegment (s : Segment) : List Cluster :=
  ((Text.clusters s.text.toList).filter (· ≠ ['\n'])).map fun cs =>
    ⟨cs, Text.textWidth cs, s.style⟩

def ofLine (line : Line) : List Cluster :=
  line.flatMap ofSegment

def totalColumns : List Cluster → Nat
  | [] => 0
  | c :: rest => c.columns + totalColumns rest

end Cluster

/-- The clusters that fit into `limit` columns of which `used` are taken. A cluster wider than all
of them is left out. -/
def clip (limit used : Nat) : List Cluster → List Cluster
  | [] => []
  | c :: rest =>
      if limit < c.columns then clip limit used rest
      else if limit < used + c.columns then []
      else c :: clip limit (used + c.columns) rest

namespace Wrap

/-- Lines that are finished, the line at hand, and the blanks and the word that come after it. -/
structure State where
  finished : List (List Cluster)
  line : List Cluster
  blanks : List Cluster
  word : List Cluster
  inWord : Bool
  deriving DecidableEq, Repr

def State.initial : State :=
  ⟨[], [], [], [], false⟩

def State.takeWord (s : State) : State :=
  { s with line := s.line ++ s.blanks ++ s.word, blanks := [], word := [] }

def dropBlanks (room : Nat) : List Cluster → List Cluster
  | [] => []
  | c :: rest => if room < c.columns then c :: rest else dropBlanks (room - c.columns) rest

def State.add (s : State) (c : Cluster) : State :=
  if c.isBlank then { s with blanks := s.blanks ++ [c], inWord := false }
  else { s with word := s.word ++ [c], inWord := true }

def State.endLine (limit : Nat) (s : State) : State :=
  let room := limit - Cluster.totalColumns s.line
  { s with
    finished := s.finished ++ [s.line]
    line := []
    blanks := dropBlanks room s.blanks }

def State.push (limit : Nat) (s : State) (c : Cluster) : State :=
  if limit < c.columns then s
  else
    let wordEnds := s.inWord && c.isBlank
    let overflows := s.line.isEmpty &&
      limit < Cluster.totalColumns s.word + Cluster.totalColumns s.blanks + c.columns
    let s := if wordEnds || overflows then s.takeWord else s
    let taken := Cluster.totalColumns s.line
    let full := limit ≤ taken
    let wordOverflows := 0 < c.columns &&
      limit ≤ taken + Cluster.totalColumns s.blanks + Cluster.totalColumns s.word
    if full || wordOverflows then
      let s := s.endLine limit
      if c.isBlank && s.blanks.isEmpty then s else s.add c
    else s.add c

def State.lines (s : State) : List (List Cluster) :=
  let before :=
    if s.line.isEmpty && s.word.isEmpty && !s.blanks.isEmpty then s.finished ++ [[]]
    else s.finished
  let last := s.line ++ s.blanks ++ s.word
  let all := if last.isEmpty then before else before ++ [last]
  if all.isEmpty then [[]] else all

end Wrap

def wrap (limit : Nat) (line : List Cluster) : List (List Cluster) :=
  (line.foldl (Wrap.State.push limit) .initial).lines

end RevisionGraph
