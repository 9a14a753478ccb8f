import TaintTrace.Tool.Setup
import TaintTrace.Trace.Statistics

/-!
# The tool for statistics

It prints how many labels of each kind a trace has, and what its files have to do
with it.
-/

namespace TaintTrace
namespace InfoTool

def purpose : Text :=
  Text.ofLines
    ["Print statistics about a trace: labels by kind, files, sinks and output taints.",
      "Usage:",
      "  polyprocess info [options] <trace file>",
      "Examples:",
      "  % polyprocess info polytracker.tdag"]

def flags : List (Flag SharedOptions) :=
  SharedOptions.flags id

def run (o : SharedOptions) (args : List Text) : Action Unit := do
  let w ← Workspace.prepare "info" o args
  let (statistics, _, seconds) ← w.measured w.trace.statistics
  Workspace.log w.settings .debug ("Statistics computed in " ++ seconds ++ " s")
  Workspace.say (Text.ofLines statistics.lines)

end InfoTool
end TaintTrace
