import RevisionGraph.Runner
import RevisionGraph.Text.Utf8

/-!
# Running commands as processes

Every command is run as a process of one program in one directory. What becomes of a process is up
to the system, which is handed in. The output of a process is always piped, so that it is there to
be read once the process has been started.
-/

namespace RevisionGraph

structure ProcessResult where
  stdout : List UInt8
  stderr : List UInt8
  code : Option Int
  deriving DecidableEq, Repr

structure ProcessStart where
  program : String
  directory : String
  arguments : List String
  deriving DecidableEq, Repr

/-- The system: what comes of a process that is waited for, and the output of one that is not, or
why there is none. -/
structure Host where
  output (start : ProcessStart) : Except String ProcessResult
  spawn (start : ProcessStart) : Except String Source

structure ProcessRunner where
  program : String
  directory : String
  deriving DecidableEq, Repr

namespace ProcessRunner

/-- Output is never paged. -/
def start (p : ProcessRunner) (c : Command) : ProcessStart :=
  ⟨p.program, p.directory, "--no-pager" :: c.args⟩

def run (p : ProcessRunner) (host : Host) (c : Command) : Except RunError (List UInt8) := do
  let r ← (host.output (p.start c)).mapError (.notStarted c.display)
  if r.code = some 0 then pure r.stdout
  else .error (.failed c.display r.code (Text.Utf8.text r.stderr))

/-- Starts a command and reads its output; how it ends does not matter. -/
def stream (p : ProcessRunner) (host : Host) (c : Command) : Except RunError Source :=
  (host.spawn (p.start c)).mapError (.notStarted c.display)

def runner (p : ProcessRunner) (host : Calls → Host) : Runner where
  run before c := p.run (host before) c
  stream before c := p.stream (host before) c

end ProcessRunner

end RevisionGraph
