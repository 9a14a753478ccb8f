import TaintTrace.Graph.Dot
import TaintTrace.Tool.Setup
import TaintTrace.Trace.Ancestry

/-!
# The tool that renders labels

It draws the graph of a label, or lists the labels it depends on.
-/

namespace TaintTrace
namespace RenderTool

def purpose : Text :=
  Text.ofLines
    ["Render the taint graph of a label.",
      "Usage:",
      "  polyprocess render [options] <trace file>",
      "Examples:",
      "Write the graph of label 1234 in a dot file",
      "  % polyprocess render -label 1234 -out label.dot polytracker.tdag",
      "Print the labels label 1234 depends on, parents first",
      "  % polyprocess render -label 1234 -list polytracker.tdag"]

/-- The options of the tool.  The graph goes to a file if there is a path for it. -/
structure Options where
  shared : SharedOptions := {}
  label : Nat := 0
  out : Text := []
  list : Bool := false
  maxNodes : Int := 1000
  deriving DecidableEq, Repr

def flags : List (Flag Options) :=
  SharedOptions.flags (fun change o => { o with shared := change o.shared }) ++
  [⟨"label", "label whose taint graph is rendered", "0",
      .natural fun n o => { o with label := n }⟩,
    ⟨"out", "output file for the dot graph (standard output if not specified)", [],
      .text fun path o => { o with out := path }⟩,
    ⟨"list", "print the labels in topological order instead of a dot graph", "false",
      .truth fun b o => { o with list := b }⟩,
    ⟨"max-nodes", "maximum number of nodes rendered (0 for no limit)", "1000",
      .integer fun i o => { o with maxNodes := i }⟩]

/-- The label that is drawn: the lower 32 bits of the number. -/
def labelOf (o : Options) : Label :=
  UInt32.ofNat o.label

def warnings (l : Label) (a : Ancestry) : Log :=
  if a.complete then []
  else
    [⟨.warn, "graph of label " ++ l.text ++ " truncated to " ++ Text.ofNat a.nodes.length
      ++ " nodes"⟩]

def listing (a : Ancestry) (labels : List Label) : Text :=
  labels.flatMap fun l =>
    let node : Text := ((a.nodes.lookup l).map Node.text).getD []
    (l.text ++ "\t" ++ node ++ "\n" : Text)

def graphOf (t : Trace) (a : Ancestry) : TaintGraph :=
  TaintGraph.ofNodes a.sorted t.inputs

def rendered (t : Trace) (o : Options) (l : Label) (a : Ancestry) : Except ToolFault Text :=
  if o.list then
    match (graphOf t a).topological with
    | .ok labels => .ok (listing a labels)
    | .error e => .error (.notOrdered l e)
  else .ok (Dot.draw (graphOf t a) ("label" ++ l.text))

def render (t : Trace) (o : Options) : Lookup (Log × Except ToolFault Text) :=
  (Lookup.ancestry (labelOf o) o.maxNodes).bind fun
    | .error e => .done ([], .error (.notRendered (labelOf o) e))
    | .ok a => .done (warnings (labelOf o) a, rendered t o (labelOf o) a)

def run (o : Options) (args : List Text) : Action Unit := do
  if o.label = 0 then throw .labelExpected
  let w ← Workspace.prepare "render" o.shared args
  let ((log, result), _) := w.reader.run (render w.trace o)
  Workspace.logAll w.settings log
  match result with
  | .error e => throw e
  | .ok text =>
      if o.list || o.out.isEmpty then Workspace.say text
      else Workspace.writeReport w.settings o.out text

end RenderTool
end TaintTrace
