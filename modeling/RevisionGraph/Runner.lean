import RevisionGraph.Command
import RevisionGraph.Terminal.Source
import RevisionGraph.Text.Blank

/-!
# Running commands

A runner answers commands, either with their whole output or with a source to read it from. Its
answer may depend on the calls that came before.
-/

namespace RevisionGraph

inductive RunError where
  | notStarted (command cause : String)
  /-- The program ended without success; there is no code when a signal ended it. -/
  | failed (command : String) (code : Option Int) (stderr : String)
  deriving DecidableEq, Repr

namespace RunError

def reason (stderr : String) : String :=
  Text.trim (String.ofList ((Text.lines stderr.toList).headD []))

def message : RunError → String
  | .notStarted command cause => "failed to start `" ++ command ++ "`: " ++ cause
  | .failed command (some code) stderr =>
      "`" ++ command ++ "` exited with " ++ toString code ++ ": " ++ reason stderr
  | .failed command none stderr => "`" ++ command ++ "` was terminated: " ++ reason stderr

def cause? : RunError → Option String
  | .notStarted _ cause => some cause
  | .failed .. => none

end RunError

/-- A command whose output was taken whole or from a source. -/
inductive Call where
  | run (command : Command)
  | stream (command : Command)
  deriving DecidableEq, Repr

def Call.command : Call → Command
  | .run command | .stream command => command

abbrev Calls := List Call

structure Runner where
  run (before : Calls) (command : Command) : Except RunError (List UInt8)
  stream (before : Calls) (command : Command) : Except RunError Source

end RevisionGraph
