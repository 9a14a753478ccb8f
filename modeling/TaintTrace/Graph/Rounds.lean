import TaintTrace.Graph.Cycle

/-!
# Cycles in rounds

A round takes the smallest label that is on a cycle among the labels that remain.  It finds the
cycles through that label in its component, and removes the labels up to it.  How a graph falls
into strongly connected components is a parameter.
-/

namespace TaintTrace
namespace LabelGraph

/-- A single label has a cycle only if it has an edge to itself. -/
def isCyclic (g : LabelGraph) : (component : List Label) -> Bool
  | [v] => (g.targets v).contains v
  | _ => true

def lesser (component : List Label) (best? : Option (Label × List Label)) (v : Label) :
    Option (Label × List Label) :=
  match best? with
  | none => some (v, component)
  | some best => if v < best.1 then some (v, component) else some best

/-- The smallest label that is on a cycle, with its component. -/
def leastCyclic? (g : LabelGraph) (components : List (List Label)) : Option (Label × List Label) :=
  components.foldl
    (fun best? component =>
      if g.isCyclic component then component.foldl (lesser component) best? else best?)
    none

/-- How many cycles a round may add; zero is no limit. -/
def budget (limit : Int) (found : Nat) : Int :=
  if 0 < limit then limit - found else 0

def cyclesThrough (g : LabelGraph) (budget : Int) (start : Label) : List Cycle :=
  (circuit g.targets start g.keys.length [] start
    ⟨CycleSearch.start budget, Blocks.empty⟩).2.search.found.reverse

def rounds (components : LabelGraph -> List (List Label)) (g : LabelGraph) (limit : Int)
    (remaining : List Label) (cycles : List Cycle) : List Cycle :=
  match remaining with
  | [] => cycles
  | first :: rest =>
      if 0 < limit ∧ limit ≤ cycles.length then cycles
      else
        let sub := g.sub (first :: rest)
        match sub.leastCyclic? (components sub) with
        | none => cycles
        | some (start, component) =>
            rounds components g limit
              ((first :: rest).drop ((first :: rest).findIdx (start ≤ ·) + 1))
              (cycles ++ (sub.sub component).cyclesThrough (budget limit cycles.length) start)
  termination_by remaining.length
  decreasing_by
    rw [List.length_drop, List.length_cons]
    omega

def cyclesInRounds (components : LabelGraph -> List (List Label)) (g : LabelGraph) (limit : Int) :
    List Cycle :=
  rounds components g limit (g.keys.mergeSort fun a b => a ≤ b) []

end LabelGraph
end TaintTrace
