import Std.Data.HashMap
import TaintTrace.Graph.Taint

/-!
# Topological order

The labels of a taint graph, each before the labels it has edges to.  Larger labels
come first as far as a depth-first search from the smallest label on allows.  There
is no such order when some labels form a component of more than one label.
-/

namespace TaintTrace

/-- The components that keep a graph from being ordered. -/
structure Unorderable where
  components : List (List TaintNode)

namespace Unorderable

def maxListed : Nat := 10

def nodeText (n : TaintNode) : Text :=
  "\x7b" ++ n.label.text ++ " " ++ n.node.text ++ " " ++ n.path ++ "\x7d"

def componentText (c : List TaintNode) : Text :=
  "[" ++ Text.join " " (c.map nodeText) ++ "]"

def message (u : Unorderable) : Text :=
  let count := u.components.flatten.length
  if maxListed < count then
    "topo: no topological ordering: " ++ Text.ofNat count ++ " nodes in "
      ++ Text.ofNat u.components.length ++ " cyclic components"
  else
    "topo: no topological ordering: cyclic components: ["
      ++ Text.join " " (u.components.map componentText) ++ "]"

end Unorderable

namespace TaintGraph

/-- Visit a label and then, last, list it in front of all labels listed before.  The
fuel bounds the length of a path. -/
def visit (next : Label -> List Label) : (fuel : Nat) -> LabelSet × List Label -> Label ->
    LabelSet × List Label
  | 0, s, _ => s
  | fuel + 1, (seen, listed), l =>
      if seen.has l then (seen, listed)
      else
        let (seen, listed) := (next l).foldl (visit next fuel) (seen.insert l, listed)
        (seen, l :: listed)

def finishOrder (next : Label -> List Label) (ls : List Label) : List Label :=
  (ls.foldl (visit next (ls.length + 1)) (LabelSet.empty, [])).2

def targetTable (g : TaintGraph) : Std.HashMap Label (List Label) :=
  Std.HashMap.ofList (g.adjacency.map fun (n, edges) => (n.label, edges.map Prod.fst))

/-- The labels of a graph in topological order.  Labels are grounded from the end of the
order on, where those without edges are. -/
def topological (g : TaintGraph) : Except Unorderable (List Label) :=
  let table := g.targetTable
  let next (l : Label) : List Label := table.getD l []
  let order := finishOrder next g.labels
  let core := (Graph.core next order.reverse).reverse
  let components :=
    (Graph.componentsOf next core.length core).filter fun c => 1 < c.length
  if components.isEmpty then .ok order
  else
    .error ⟨components.map fun c =>
      (g.nodes.filter fun n => n.label ∈ c).reverse⟩

end TaintGraph
end TaintTrace
