import TaintTrace.Tool.Fault
import TaintTrace.Tool.Flag
import TaintTrace.Trace.Cache

/-!
# What tools share

Every tool takes a trace file, may take a configuration file and may be verbose.
Before it begins, the settings are loaded and the trace is opened.
-/

namespace TaintTrace

def toolVersion : Text :=
  "v0.3.1"

structure SharedOptions where
  configPath : Text := []
  verbose : Bool := false
  deriving DecidableEq, Repr

namespace SharedOptions

def flags {σ : Type} (change : (SharedOptions -> SharedOptions) -> σ -> σ) : List (Flag σ) :=
  [⟨"config", "config file path for analysis", [],
      .text fun path => change fun o => { o with configPath := path }⟩,
    ⟨"verbose", "verbose printing on standard output", "false",
      .truth fun b => change fun o => { o with verbose := b }⟩]

end SharedOptions

structure Workspace where
  tracePath : Text
  settings : Settings
  reader : TraceReader

abbrev Action := ExceptT ToolFault Script

namespace Workspace

def trace (w : Workspace) : Trace :=
  w.reader.trace

def verboseLevel : Int :=
  Level.debug.number

def loadSettings (path : Text) : Action Settings := do
  let content : Except FileFault Text ← ExceptT.lift (.readFile path .done)
  match content with
  | .error e => throw (.configUnreadable path e)
  | .ok text =>
      match ← ExceptT.lift (Settings.load path text) with
      | .error e => throw (.configInvalid path e)
      | .ok s => pure s

/-- A verbose log shows at least the messages of debugging. -/
def raiseLevel (verbose : Bool) (s : Settings) : Settings :=
  if verbose && s.logLevel < verboseLevel then
    { s with options := { s.options with logLevel := verboseLevel } }
  else s

def settingsFor (o : SharedOptions) : Action Settings := do
  let s ← if o.configPath.isEmpty then pure Settings.default else loadSettings o.configPath
  return raiseLevel o.verbose s

def openImage (path : Text) (content : Except FileFault (Except FileCause Text)) :
    Except OpenFault Trace :=
  match content with
  | .error e => .error (.missing e)
  | .ok (.error cause) => .error (.unmapped path cause)
  | .ok (.ok bytes) =>
      match Image.read bytes with
      | .error e => .error (.rejected path e)
      | .ok r => .ok r.trace

def log (s : Settings) (level : Level) (text : Text) : Action Unit :=
  ExceptT.lift (Script.logAt s.logLevel level text)

def logAll (s : Settings) (log : Log) : Action Unit :=
  ExceptT.lift (Script.notes s.logLevel log)

def say (text : Text) : Action Unit :=
  ExceptT.lift (Script.say text)

def openedText (path : Text) (t : Trace) : Text :=
  "Opened " ++ path ++ ": " ++ Text.ofNat t.labelCount ++ " labels, "
    ++ Text.ofNat t.headers.length ++ " files, " ++ Text.ofNat t.sinks.length ++ " sinks, "
    ++ Text.ofNat t.taints.length ++ " output taints"

def openTrace (path : Text) (s : Settings) : Action TraceReader := do
  let content : Except FileFault (Except FileCause Text) ← ExceptT.lift (.mapFile path .done)
  match openImage path content with
  | .error e => throw (.traceUnusable e)
  | .ok t =>
      log s .debug (openedText path t)
      return ⟨t, Cache.create? s.options.decodeCacheSize⟩

def prepare (tool : Text) (o : SharedOptions) (args : List Text) : Action Workspace := do
  match args with
  | [path] =>
      let s ← settingsFor o
      let reader ← openTrace path s
      log s .info ("polyprocess " ++ tool ++ " - " ++ toolVersion)
      return ⟨path, s, reader⟩
  | _ => throw (.oneTraceExpected args)

def writeReport (s : Settings) (path content : Text) : Action Unit := do
  if path.isEmpty then pure ()
  else
    let result : Except FileFault Unit ← ExceptT.lift (.writeFile path content .done)
    match result with
    | .error e => throw (.reportNotOpened e)
    | .ok () => log s .info ("Report written in " ++ path)

def secondsText (ticks : Nat) : Text :=
  let fraction := Text.ofNat (ticks % 10000)
  Text.ofNat (ticks / 10000) ++ "." ++ List.replicate (4 - fraction.length) (Text.byte '0')
    ++ fraction

def measured {α : Type} (w : Workspace) (p : Lookup α) : Action (α × Workspace × Text) := do
  let start : Nat ← ExceptT.lift Script.now
  let (a, reader) := w.reader.run p
  let stop : Nat ← ExceptT.lift Script.now
  return (a, { w with reader := reader }, secondsText (stop - start))

end Workspace
end TaintTrace
