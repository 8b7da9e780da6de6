import RevisionGraph.Command
import RevisionGraph.Text.Blank
import RevisionGraph.Text.Numeral

/-!
# Configuration

Environment variables provide defaults. Variables that are unset or blank leave the built-in ones.
-/

namespace RevisionGraph

def defaultBatchSize : Nat :=
  50

structure Config where
  program : String
  repository : String
  revset : Option String
  limit : Option Nat
  batchSize : Nat
  remote : String
  deriving DecidableEq, Repr

inductive Variable where
  | unset
  | text (value : String)
  | notUnicode
  deriving DecidableEq, Repr

structure InvalidVariable where
  name : String
  value : String
  deriving DecidableEq, Repr

namespace InvalidVariable

def message (e : InvalidVariable) : String :=
  "invalid env " ++ e.name ++ "=" ++ e.value

def notUnicode (name : String) : InvalidVariable :=
  ⟨name, "<non-unicode>"⟩

end InvalidVariable

namespace Config

def initial : Config :=
  ⟨"jj", ".", none, none, defaultBatchSize, "origin"⟩

def programVariable : String := "JJGRAPH_JJ"
def revsetVariable : String := "JJGRAPH_REVSET"
def batchSizeVariable : String := "JJGRAPH_BATCH_SIZE"
def remoteVariable : String := "JJGRAPH_DEFAULT_REMOTE"

/-- A positive size, with blanks allowed around it. -/
def batchSize? (raw : String) : Option Nat :=
  (Text.size? (Text.trim raw)).filter (0 < ·)

def read (lookup : String → Variable) (name : String) : Except InvalidVariable (Option String) :=
  match lookup name with
  | .unset => .ok none
  | .notUnicode => .error (.notUnicode name)
  | .text value => .ok (if Text.isBlankText value then none else some (Text.trim value))

def readBatchSize (raw : Option String) : Except InvalidVariable Nat :=
  match raw with
  | none => .ok defaultBatchSize
  | some raw =>
      match batchSize? raw with
      | some n => .ok n
      | none => .error ⟨batchSizeVariable, raw⟩

/-- Of several variables that cannot be used the first counts, in the order of reading. -/
def ofEnvironment (lookup : String → Variable) : Except InvalidVariable Config := do
  let program ← read lookup programVariable
  let revset ← read lookup revsetVariable
  let batchSize ← readBatchSize (← read lookup batchSizeVariable)
  let remote ← read lookup remoteVariable
  pure { initial with
    program := program.getD initial.program
    revset := revset
    batchSize := batchSize
    remote := remote.getD initial.remote }

def logCommand (c : Config) : Command :=
  .log c.revset c.limit

end Config

end RevisionGraph
