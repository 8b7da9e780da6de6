import RevisionGraph.Command

/-!
# Messages and effects

Panels and operations do not act themselves. They give an effect back, which the application carries
out: it runs the commands and takes in the messages.
-/

namespace RevisionGraph

inductive Message where
  | refresh
  | refreshAndSelect (revision : String)
  | reloadBookmarks
  | toggleRange (first last : String)
  | startMoveMode (bookmark : String)
  | startCreateMode
  | endMoveMode
  | endCreateMode
  | closeOperation
  | updateRevset (revset : String)
  | toast (text : String)
  deriving DecidableEq, Repr

inductive Effect where
  /-- Run a command and, if it succeeds, take in the messages in order. -/
  | run (command : Command) (next : List Message)
  | emit (message : Message)
  | sequence (effects : List Effect)
  /-- In any order. -/
  | batch (effects : List Effect)

namespace Effect

mutual

def commands : Effect → List Command
  | .run command _ => [command]
  | .emit _ => []
  | .sequence effects => commandsOfAll effects
  | .batch effects => commandsOfAll effects

def commandsOfAll : List Effect → List Command
  | [] => []
  | e :: rest => e.commands ++ commandsOfAll rest

end

mutual

/-- The messages that an effect emits itself, in order, without those that follow a command. -/
def emitted : Effect → List Message
  | .run .. => []
  | .emit message => [message]
  | .sequence effects => emittedByAll effects
  | .batch effects => emittedByAll effects

def emittedByAll : List Effect → List Message
  | [] => []
  | e :: rest => e.emitted ++ emittedByAll rest

end

end Effect

inductive Outcome where
  | pass
  | consumed
  | effect (e : Effect)

end RevisionGraph
