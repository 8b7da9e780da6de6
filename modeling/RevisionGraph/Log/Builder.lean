import RevisionGraph.Log.Row
import RevisionGraph.Terminal.Reader

/-!
# Building rows from lines

The builder takes one line at a time. A line that starts a row seals the row before it; any other
line belongs to the open row, and lines before the first row are dropped.
-/

namespace RevisionGraph

structure OpenRow where
  revision : RevisionLine
  previous : Option Nat
  /-- The lines below, the last one first. -/
  below : List Line
  deriving DecidableEq, Repr

namespace OpenRow

def addLine (o : OpenRow) (line : Line) : OpenRow :=
  { o with below := line :: o.below }

def row (o : OpenRow) : Row :=
  .ofLines o.revision o.below.reverse o.previous

@[simp] theorem lines_row_addLine (o : OpenRow) (line : Line) :
    (o.addLine line).row.lines =
      o.row.lines ++ [⟨line, Row.flagsBelow o.revision.gutter.width line⟩] := by
  simp [row, addLine, Row.ofLines]

end OpenRow

structure RowBuilder where
  unsealed : Option OpenRow
  sealed : Nat
  deriving DecidableEq, Repr

namespace RowBuilder

def empty : RowBuilder :=
  ⟨none, 0⟩

def push (b : RowBuilder) (line : Line) : RowBuilder × Option Row :=
  match RevisionLine.ofLine? line with
  | none => ({ b with unsealed := b.unsealed.map (·.addLine line) }, none)
  | some r =>
      match b.unsealed with
      | none => ({ b with unsealed := some ⟨r, none, []⟩ }, none)
      | some o => (⟨some ⟨r, some b.sealed, []⟩, b.sealed + 1⟩, some o.row)

def finish (b : RowBuilder) : RowBuilder × Option Row :=
  match b.unsealed with
  | none => (b, none)
  | some o => (⟨none, b.sealed + 1⟩, some o.row)

def pushAll (b : RowBuilder) : List Line → RowBuilder × List Row
  | [] => (b, [])
  | line :: rest =>
      let (b, row) := b.push line
      let (b, rows) := b.pushAll rest
      (b, row.toList ++ rows)

def build (b : RowBuilder) (lines : List Line) : RowBuilder × List Row :=
  let (b, rows) := b.pushAll lines
  let (b, last) := b.finish
  (b, rows ++ last.toList)

def rows (b : RowBuilder) (lines : List Line) : List Row :=
  (b.build lines).2

theorem rows_nil (b : RowBuilder) : b.rows [] = b.finish.2.toList :=
  rfl

theorem rows_cons (b : RowBuilder) (line : Line) (rest : List Line) :
    b.rows (line :: rest) = (b.push line).2.toList ++ (b.push line).1.rows rest := by
  simp only [rows, build, pushAll, List.append_assoc]

end RowBuilder

def rowsOf (lines : List Line) : List Row :=
  RowBuilder.empty.rows lines

/-- The rows of a log, or the failure that kept it from being read to its end. -/
def parseLog (source : Source) : Except String (List Row) :=
  match source.transcript with
  | ⟨lines, none⟩ => .ok (rowsOf lines)
  | ⟨_, some message⟩ => .error message

end RevisionGraph
