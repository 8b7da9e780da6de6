import RevisionGraph.Config

/-!
# Command-line options

Every option but the help flag may be given once. The values of most options may not begin with two
hyphens; the source of a dump may be left out, and is when the next argument begins with a hyphen and
is more than that.
-/

namespace RevisionGraph

structure Options where
  repository : Option String
  revset : Option String
  limit : Option Nat
  batchSize : Option Nat
  logFile : Option String
  dump : Option String
  help : Bool
  deriving DecidableEq, Repr

namespace Options

def empty : Options :=
  ⟨none, none, none, none, none, none, false⟩

inductive Flag where
  | repository
  | revset
  | limit
  | batchSize
  | logFile
  deriving DecidableEq, Repr

inductive Argument where
  | valued (flag : Flag)
  | dump
  | help
  deriving DecidableEq, Repr

def argument? (s : String) : Option Argument :=
  match s with
  | "--repo" => some (.valued .repository)
  | "--revset" => some (.valued .revset)
  | "--limit" => some (.valued .limit)
  | "--batch-size" => some (.valued .batchSize)
  | "--log-file" => some (.valued .logFile)
  | "--dump" => some .dump
  | "-h" => some .help
  | "--help" => some .help
  | _ => none

def set? (o : Options) (flag : Flag) (value : String) : Option Options :=
  match flag with
  | .repository =>
      if o.repository.isSome then none else some { o with repository := some value }
  | .revset => if o.revset.isSome then none else some { o with revset := some value }
  | .limit =>
      if o.limit.isSome then none
      else ((Text.size? value).filter (0 < ·)).map fun n => { o with limit := some n }
  | .batchSize =>
      if o.batchSize.isSome then none
      else (Config.batchSize? value).map fun n => { o with batchSize := some n }
  | .logFile => if o.logFile.isSome then none else some { o with logFile := some value }

def isValue (s : String) : Bool :=
  !(['-', '-'].isPrefixOf s.toList)

def standardInput : String :=
  "-"

def isDumpSource (s : String) : Bool :=
  s == standardInput || s.toList.head? != some '-'

def setDump? (o : Options) (source : String) : Option Options :=
  if o.dump.isSome then none else some { o with dump := some source }

inductive Expecting where
  | argument
  | value (flag : Flag)
  | dumpSource
  deriving DecidableEq, Repr

structure State where
  options : Options
  expecting : Expecting
  deriving DecidableEq, Repr

def readArgument? (o : Options) (s : String) : Option State :=
  match argument? s with
  | some (.valued flag) => some ⟨o, .value flag⟩
  | some .dump => some ⟨o, .dumpSource⟩
  | some .help => some ⟨{ o with help := true }, .argument⟩
  | none => none

def State.step? (s : State) (arg : String) : Option State :=
  match s.expecting with
  | .argument => readArgument? s.options arg
  | .value flag => if isValue arg then (s.options.set? flag arg).map (⟨·, .argument⟩) else none
  | .dumpSource =>
      if isDumpSource arg then (s.options.setDump? arg).map (⟨·, .argument⟩)
      else (s.options.setDump? standardInput).bind (readArgument? · arg)

def State.finish? (s : State) : Option Options :=
  match s.expecting with
  | .argument => some s.options
  | .value _ => none
  | .dumpSource => s.options.setDump? standardInput

def parse? (args : List String) : Option Options := do
  let s ← args.foldlM State.step? ⟨.empty, .argument⟩
  s.finish?

def apply (o : Options) (c : Config) : Config :=
  { c with
    repository := o.repository.getD c.repository
    revset := o.revset <|> c.revset
    limit := o.limit <|> c.limit
    batchSize := o.batchSize.getD c.batchSize }

end Options

end RevisionGraph
