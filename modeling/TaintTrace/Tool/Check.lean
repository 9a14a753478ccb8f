import TaintTrace.Graph.Component
import TaintTrace.Tool.Setup
import TaintTrace.Trace.Validity

/-!
# The tool that checks traces

It prints what is wrong with a trace: its problems and the cycles of its labels.
-/

namespace TaintTrace
namespace CheckTool

def purpose : Text :=
  Text.ofLines
    ["Check that a trace file is consistent.",
      "Usage:",
      "  polyprocess check [options] <trace file>",
      "Examples:",
      "  % polyprocess check -max-errors 100 polytracker.tdag"]

/-- The options of the tool.  A number that is not positive is no limit. -/
structure Options where
  shared : SharedOptions := {}
  maxErrors : Int := 20
  maxCycles : Int := 10
  deriving DecidableEq, Repr

def flags : List (Flag Options) :=
  SharedOptions.flags (fun change o => { o with shared := change o.shared }) ++
  [⟨"max-errors", "stop after this many errors (0 for no limit)", "20",
      .integer fun i o => { o with maxErrors := i }⟩,
    ⟨"max-cycles", "maximum number of label cycles printed", "10",
      .integer fun i o => { o with maxCycles := i }⟩]

def problemLine (p : Problem) : Text :=
  "error: " ++ p.message ++ "\n"

def cycleLine (c : LabelGraph.Cycle) : Text :=
  "cycle: " ++ Text.join " -> " (c.map Label.text) ++ "\n"

structure Findings where
  problems : List Problem
  cycles : List LabelGraph.Cycle
  edges : Nat
  loops : Nat

namespace Findings

def isConsistent (f : Findings) : Bool :=
  f.problems.isEmpty && f.cycles.isEmpty

def text (f : Findings) : Text :=
  f.problems.flatMap problemLine ++ f.cycles.flatMap cycleLine

def summary (f : Findings) (t : Trace) : Text :=
  Text.ofInt (t.labelCount - 1 : Int) ++ " labels, " ++ Text.ofNat f.edges ++ " edges, "
    ++ Text.ofNat f.loops ++ " self references"

end Findings

def check (t : Trace) (o : Options) : Lookup Findings :=
  (t.problems o.maxErrors).bind fun problems =>
    (t.cycles o.maxCycles).bind fun cycles =>
      t.graph.bind fun g => .done ⟨problems, cycles, g.edgeCount, g.loopCount⟩

def run (o : Options) (args : List Text) : Action Unit := do
  let w ← Workspace.prepare "check" o.shared args
  let (found, _) := w.reader.run (check w.trace o)
  Workspace.say found.text
  Workspace.log w.settings .debug (found.summary w.trace)
  if found.isConsistent then Workspace.say "trace is consistent\n"
  else throw (.inconsistent found.problems.length found.cycles.length)

end CheckTool
end TaintTrace
