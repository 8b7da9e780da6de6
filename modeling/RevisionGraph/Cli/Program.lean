import RevisionGraph.Cli.Json
import RevisionGraph.Cli.Options
import RevisionGraph.Log.Builder
import RevisionGraph.View.Theme

/-!
# The command line

What the program does before the dashboard comes up: it shows how it is used, dumps a log, or finds
that something it was given cannot be used.
-/

namespace RevisionGraph.Cli

def usage (program : String) : String :=
  "Usage:\n  " ++ program ++ " [--repo <dir>] [--revset <revset>] [--limit <n>]" ++
    " [--batch-size <n>] [--log-file <path>]\n  " ++ program ++ " --dump [<file>|-]\n\n" ++
    "The TUI runs `jj log` in --repo (default: current directory) and streams rows in batches of\n" ++
    "--batch-size (default 50, env JJGRAPH_BATCH_SIZE).\n\n" ++
    "--dump parses a colored `jj log` capture from <file> or stdin and prints the rows as JSON.\n\n" ++
    "Logs are filtered by JJGRAPH_LOG (default info). The TUI only logs with --log-file.\n"

structure Files where
  read (path : String) : Except String Source
  /-- Why a file cannot be appended to, if so. -/
  appendFailure? (path : String) : Option String

structure System where
  arguments : List String
  environment : String → Variable
  input : Source
  files : Files

structure Finished where
  code : Nat
  stdout : String
  stderr : String
  deriving DecidableEq, Repr

inductive Start where
  | finished (f : Finished)
  | dashboard (config : Config) (theme : Theme)
  deriving DecidableEq, Repr

def fail (message : String) : Finished :=
  ⟨1, "", "jjgraph: " ++ message ++ "\n"⟩

def dumped : Except String (List Row) → Finished
  | .ok rows => ⟨0, dumpText rows, ""⟩
  | .error message => fail message

def dump (s : System) (source : String) : Finished :=
  if source = Options.standardInput then dumped (parseLog s.input)
  else dumped (s.files.read source >>= parseLog)

/-- The log file is opened before the environment is looked at. -/
def prepare (s : System) (o : Options) : Start :=
  match o.logFile.bind s.files.appendFailure? with
  | some message => .finished (fail message)
  | none =>
      match Config.ofEnvironment s.environment with
      | .error e => .finished (fail e.message)
      | .ok config =>
          match Theme.ofEnvironment s.environment with
          | .error e => .finished (fail e.message)
          | .ok theme => .dashboard (o.apply config) theme

def start (program : String) (s : System) : Start :=
  match Options.parse? s.arguments with
  | none => .finished ⟨2, "", usage program⟩
  | some o =>
      if o.help then .finished ⟨0, "", usage program⟩
      else
        match o.dump with
        | some source => .finished (dump s source)
        | none => prepare s o

end RevisionGraph.Cli
