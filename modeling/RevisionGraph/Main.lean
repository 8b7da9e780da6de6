import RevisionGraph.Cli.Program

/-!
# The program

Reads the arguments, the environment and, for a dump, the input. Without a terminal the dashboard
does not come up.
-/

namespace RevisionGraph.Cli

def programName : String :=
  "jjgraph"

def variableNames : List String :=
  [Config.programVariable, Config.revsetVariable, Config.batchSizeVariable, Config.remoteVariable,
    Theme.variableName]

def readVariable (name : String) : IO (String × Variable) := do
  match ← IO.getEnv name with
  | none => pure (name, .unset)
  | some value => pure (name, .text value)

def readFile (path : String) : IO (Except String Source) := do
  try
    let contents ← IO.FS.readBinFile path
    pure (.ok [.bytes contents.toList])
  catch e =>
    pure (.error (toString e))

def appendFailure? (path : String) : IO (Option String) := do
  try
    let _ ← IO.FS.Handle.mk path .append
    pure none
  catch e =>
    pure (some (toString e))

def readInput : IO Source := do
  let contents ← (← IO.getStdin).readBinToEnd
  pure [.bytes contents.toList]

/-- What the program asks its files for: the log that it dumps, or else the file that it logs to. -/
def lookAtFiles (o : Options) : IO Files := do
  if let some source := o.dump then
    let contents ← if source = Options.standardInput then pure (.ok []) else readFile source
    pure ⟨fun _ => contents, fun _ => none⟩
  else if let some path := o.logFile then
    let failure ← appendFailure? path
    pure ⟨fun _ => .ok [], fun _ => failure⟩
  else pure ⟨fun _ => .ok [], fun _ => none⟩

def finish (f : Finished) : IO UInt32 := do
  (← IO.getStdout).putStr f.stdout
  (← IO.getStderr).putStr f.stderr
  pure (UInt32.ofNat f.code)

end RevisionGraph.Cli

open RevisionGraph RevisionGraph.Cli in
def main (arguments : List String) : IO UInt32 := do
  let environment ← variableNames.mapM readVariable
  -- Nothing is read or opened for a command line that only shows how the program is used.
  let options := ((Options.parse? arguments).filter (!·.help)).getD .empty
  let input ← if options.dump = some Options.standardInput then readInput else pure []
  let files ← lookAtFiles options
  let system : System :=
    { arguments := arguments
      environment := fun name => (environment.lookup name).getD .unset
      input := input
      files := files }
  match start programName system with
  | .finished f => finish f
  | .dashboard .. => finish (fail "the dashboard needs a terminal")
