/-!
# Commits

The identity of a revision as it stands on a line of the log. A change id that several commits share
ends in two question marks; such an id names no revision, so the commit id does.
-/

namespace RevisionGraph

structure Commit where
  changeId : String
  commitId : Option String
  isWorkingCopy : Bool
  isConflicted : Bool
  deriving DecidableEq, Repr

def isAmbiguous (id : String) : Bool :=
  ['?', '?'].isSuffixOf id.toList

def withoutQuestionMarks (id : String) : String :=
  String.ofList (id.toList.reverse.dropWhile (· == '?')).reverse

namespace Commit

def ofChangeId (id : String) : Commit :=
  ⟨id, none, false, false⟩

def isDivergent (c : Commit) : Bool :=
  isAmbiguous c.changeId

def revision (c : Commit) : String :=
  if c.isDivergent then
    c.commitId.getD (withoutQuestionMarks c.changeId)
  else
    c.changeId

end Commit

end RevisionGraph
