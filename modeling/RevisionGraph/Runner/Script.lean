import RevisionGraph.Runner

/-!
# Scripted runners

A runner that answers from a script. The n-th source that it gives is the n-th log, and the last one
from then on. A command that is run to its end gets the first reply for its kind that is not used
up, and no output if there is none. Neither of the two uses up anything of the other.
-/

namespace RevisionGraph

inductive CommandKind where
  | log
  | listBookmarks
  | listMovable
  | moveBookmark
  | createBookmark
  | deleteBookmark
  | forgetBookmark
  | trackBookmark
  | untrackBookmark
  | new
  deriving DecidableEq, Repr

def Command.kind : Command → CommandKind
  | .log .. => .log
  | .listBookmarks => .listBookmarks
  | .listMovable .. => .listMovable
  | .moveBookmark .. => .moveBookmark
  | .createBookmark .. => .createBookmark
  | .deleteBookmark .. => .deleteBookmark
  | .forgetBookmark .. => .forgetBookmark
  | .trackBookmark .. => .trackBookmark
  | .untrackBookmark .. => .untrackBookmark
  | .new .. => .new

/-- A failure as the script gives it; the command's own text is added when it is used. -/
inductive ScriptedFailure where
  | notStarted (cause : String)
  | failed (code : Option Int) (stderr : String)
  deriving DecidableEq, Repr

def ScriptedFailure.error (c : Command) : ScriptedFailure → RunError
  | .notStarted cause => .notStarted c.display cause
  | .failed code stderr => .failed c.display code stderr

structure ScriptedReply where
  kind : CommandKind
  times : Option Nat
  answer : Except ScriptedFailure (List UInt8)

structure Script where
  logs : List (Except ScriptedFailure Source)
  replies : List ScriptedReply

namespace Script

def answerTo {α : Type} (c : Command) (answer : Except ScriptedFailure α) : Except RunError α :=
  answer.mapError (·.error c)

/-- The reply for the command that is run after `uses` others of its kind. -/
def reply? (kind : CommandKind) : Nat → List ScriptedReply → Option ScriptedReply
  | _, [] => none
  | uses, r :: rest =>
      if r.kind ≠ kind then reply? kind uses rest
      else
        match r.times with
        | none => some r
        | some n => if uses < n then some r else reply? kind (uses - n) rest

def countRuns (kind : CommandKind) (calls : Calls) : Nat :=
  calls.countP fun
    | .run c => c.kind = kind
    | .stream _ => false

def countStreams (calls : Calls) : Nat :=
  calls.countP fun
    | .run _ => false
    | .stream _ => true

def runner (s : Script) : Runner where
  run before c :=
    match reply? c.kind (countRuns c.kind before) s.replies with
    | none => .ok []
    | some r => answerTo c r.answer
  stream before c :=
    match s.logs[countStreams before]? <|> s.logs.getLast? with
    | none => .ok []
    | some log => answerTo c log

end Script

end RevisionGraph
