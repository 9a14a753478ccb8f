import TaintTrace.Graph.Reach
import TaintTrace.Sorting
import TaintTrace.Trace.Lookup

/-!
# Label graphs

The graph of a trace has an edge from each label to the labels its node refers to,
as far as these are labels of the trace.  A label graph keeps some labels and the
edges between them.
-/

namespace TaintTrace

namespace Node

/-- The labels a node refers to that are labels of a trace with `count` labels, in
order. -/
def validChildren (count : Nat) (n : Node) : List Label :=
  match n.origin with
  | .source _ _ => []
  | .union left right => [left, right].filter fun c => c ≠ 0 ∧ c.toNat < count
  | .range first last =>
      let start := max 1 first.toNat
      (List.range' start (min (last.toNat + 1) count - start)).map UInt32.ofNat

end Node

/-- A graph on some labels of a trace. -/
structure LabelGraph where
  /-- The number of labels of the trace. -/
  order : Nat
  keys : List Label
  /-- The targets of each label below the order, sorted. -/
  edges : Array (List Label)

namespace Trace

/-- The labels that a label of a trace has edges to.  A label without node has
none. -/
def successors (t : Trace) (l : Label) : Lookup (List Label) :=
  if l = 0 ∨ t.labelCount ≤ l.toNat then .done []
  else
    .decode l fun
      | .error _ => .done []
      | .ok n => .done (n.validChildren t.labelCount)

def fillEdges (t : Trace) : List Label -> Array (List Label) -> Lookup (Array (List Label))
  | [], edges => .done edges
  | l :: ls, edges =>
      (t.successors l).bind fun targets => t.fillEdges ls (edges.setIfInBounds l.toNat targets)

/-- The edges of some labels of a trace; all other labels have none. -/
def edgesOf (t : Trace) (ls : List Label) : Lookup (Array (List Label)) :=
  t.fillEdges ls (Array.replicate t.labelCount [])

end Trace

namespace LabelGraph

def targets (g : LabelGraph) (l : Label) : List Label :=
  g.edges.getD l.toNat []

def distinctLabels (ls : List Label) : List Label :=
  Sorting.distinct (fun a b => a ≤ b) ls

/-- Keep only the edges to labels of a set, in order and each once. -/
def restrict (edges : Array (List Label)) (included : LabelSet) : Array (List Label) :=
  edges.map fun ls => distinctLabels (ls.filter included.has)

def ofTrace (t : Trace) (included : List Label) : Lookup LabelGraph :=
  let keys := distinctLabels included
  (t.edgesOf keys).bind fun edges =>
    .done ⟨t.labelCount, keys, restrict edges (LabelSet.ofList keys)⟩

def sub (g : LabelGraph) (keys : List Label) : LabelGraph :=
  let included := LabelSet.ofList keys
  { g with
    keys := keys
    edges := g.edges.mapIdx fun i ls =>
      if included.has (UInt32.ofNat i) then ls.filter included.has else [] }

end LabelGraph
end TaintTrace
