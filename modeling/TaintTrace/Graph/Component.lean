import TaintTrace.Graph.Cycle

/-!
# Components of the graph of a trace

A label is grounded when all labels it has edges to are grounded; the labels that
are not make up the core, where all cycles are.  Two labels are in one component
when each can be reached from the other.
-/

namespace TaintTrace
namespace Graph

/-- Pass over labels once and ground those whose targets are all grounded; the
answer has the others. -/
def groundPass (next : Label -> List Label) : List Label -> LabelSet -> List Label × LabelSet
  | [], grounded => ([], grounded)
  | l :: ls, grounded =>
      if (next l).all grounded.has then groundPass next ls (grounded.insert l)
      else
        let (rest, grounded) := groundPass next ls grounded
        (l :: rest, grounded)

/-- Ground labels until a pass grounds none.  The fuel bounds the number of passes. -/
def groundAll (next : Label -> List Label) : (fuel : Nat) -> List Label -> LabelSet -> List Label
  | 0, ls, _ => ls
  | fuel + 1, ls, grounded =>
      let (rest, grounded) := groundPass next ls grounded
      if rest.length = ls.length then rest else groundAll next fuel rest grounded

def core (next : Label -> List Label) (ls : List Label) : List Label :=
  groundAll next ls.length ls LabelSet.empty

def componentOf (next : Label -> List Label) (ls : List Label) (l : Label) : List Label :=
  let forward := reach next l
  ls.filter fun w => forward.has w && (reach next w).has l

def componentsOf (next : Label -> List Label) : (fuel : Nat) -> List Label -> List (List Label)
  | 0, _ => []
  | _, [] => []
  | fuel + 1, l :: ls =>
      let component := l :: componentOf next ls l
      component :: componentsOf next fuel (ls.filter fun w => w ∉ component)

end Graph

/-- The graph of all labels of a trace, label zero included. -/
structure TraceGraph where
  order : Nat
  edges : Array (List Label)

namespace TraceGraph

def next (g : TraceGraph) (l : Label) : List Label :=
  g.edges.getD l.toNat []

def vertices (g : TraceGraph) : List Label :=
  (List.range g.order).map UInt32.ofNat

def core (g : TraceGraph) : List Label :=
  Graph.core g.next g.vertices

def isAcyclic (g : TraceGraph) : Bool :=
  g.core.isEmpty

def components (g : TraceGraph) : List (List Label) :=
  (Graph.componentsOf g.next g.core.length g.core).filter fun c => 1 < c.length

def cyclicLabels (g : TraceGraph) : List Label :=
  (Graph.componentsOf g.next g.core.length g.core).flatMap fun c =>
    match c with
    | [l] => if l ∈ g.next l then [l] else []
    | ls => ls

def edgeCount (g : TraceGraph) : Nat :=
  g.vertices.foldl (fun n l => n + (LabelGraph.distinctLabels (g.next l)).length) 0

def loopCount (g : TraceGraph) : Nat :=
  g.vertices.countP fun l => l ∈ g.next l

/-- The number of labels without edges to others. -/
def isolatedCount (g : TraceGraph) : Nat :=
  g.vertices.countP fun l => (g.next l).isEmpty

end TraceGraph

namespace Trace

def graph (t : Trace) : Lookup TraceGraph :=
  (t.edgesOf t.labels).bind fun edges => .done ⟨t.labelCount, edges⟩

/-- The elementary cycles of a trace, at most `limit` of them if the limit is
positive.  Only the labels that are on cycles are searched. -/
def cycles (t : Trace) (limit : Int) : Lookup (List LabelGraph.Cycle) :=
  t.graph.bind fun g =>
    if g.isAcyclic then .done []
    else
      (LabelGraph.ofTrace t g.cyclicLabels).bind fun sub => .done (sub.elementaryCycles limit)

end Trace
end TaintTrace
