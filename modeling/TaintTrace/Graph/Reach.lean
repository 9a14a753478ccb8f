import TaintTrace.Label.Set

/-!
# Reachability

The labels that can be reached from a label by following edges.
-/

namespace TaintTrace
namespace Graph

/-- The search for reachable labels.  The fuel is the number of labels that may
still be looked at. -/
def reachFrom (next : Label -> List Label) : (fuel : Nat) -> (stack : List Label) ->
    (seen : LabelSet) -> LabelSet
  | 0, _, seen => seen
  | fuel + 1, stack, seen =>
      match seen.nextUnseen stack with
      | none => seen
      | some (l, stack) =>
          reachFrom next fuel (LabelSet.pushAll (next l) stack) (seen.insert l)

/-- The labels reachable from a label, itself included. -/
def reach (next : Label -> List Label) (l : Label) : LabelSet :=
  reachFrom next Label.total [l] LabelSet.empty

end Graph
end TaintTrace
