import TaintTrace.Graph.Component
import TaintTrace.Trace.Ancestry

/-!
# Taint graphs

The graph of some labels with their nodes.  Edges lead to the children that are in
the graph; an edge from a label to itself is left out.
-/

namespace TaintTrace

/-- A label of a taint graph.  A source has the path of its file, if that is known. -/
structure TaintNode where
  label : Label
  node : Node
  path : Text
  deriving DecidableEq, Repr

inductive Side where
  | left
  | right
  | inRange
  deriving DecidableEq, Repr

/-- A taint graph, its nodes by increasing label. -/
structure TaintGraph where
  nodes : List TaintNode

namespace TaintGraph

def pathOf (inputs : List Input) (n : Node) : Text :=
  match n.origin with
  | .source file _ => ((inputs[file.toNat]?).map Input.path).getD []
  | _ => []

def ofNodes (nodes : List (Label × Node)) (inputs : List Input) : TaintGraph :=
  ⟨(nodes.mergeSort fun a b => a.1 ≤ b.1).map fun (l, n) => ⟨l, n, pathOf inputs n⟩⟩

def labels (g : TaintGraph) : List Label :=
  g.nodes.map TaintNode.label

def edgesOf (included : LabelSet) (n : TaintNode) : List (Label × Side) :=
  let keep (c : Label) : Bool := included.has c && c ≠ n.label
  match n.node.origin with
  | .source _ _ => []
  | .union left right =>
      let edges := [(left, Side.left), (right, Side.right)].filter fun e => keep e.1
      let edges := if left = right then edges.drop 1 else edges
      edges.mergeSort fun a b => a.1 ≤ b.1
  | .range _ _ => (n.node.children.filter keep).map fun c => (c, .inRange)

def adjacency (g : TaintGraph) : List (TaintNode × List (Label × Side)) :=
  let included := LabelSet.ofList g.labels
  g.nodes.map fun n => (n, edgesOf included n)

end TaintGraph
end TaintTrace
