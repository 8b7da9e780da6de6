import RevisionGraph.Log.Row

/-!
# Row summaries

What is left of a row without its styles.
-/

namespace RevisionGraph

structure RowSummary where
  changeId : String
  commitId : Option String
  isWorkingCopy : Bool
  isConflicted : Bool
  indent : Nat
  previous : Option Nat
  lines : List String
  deriving DecidableEq, Repr

def Row.summary (row : Row) : RowSummary where
  changeId := row.commit.changeId
  commitId := row.commit.commitId
  isWorkingCopy := row.commit.isWorkingCopy
  isConflicted := row.commit.isConflicted
  indent := row.indent
  previous := row.previous
  lines := row.lines.map GraphLine.text

end RevisionGraph
