import TaintTrace.Trace.Sources

/-!
# The ancestry of a label

The nodes of all labels a label is made of, itself included.  A positive limit
stops the search when it has that many nodes and there are more.
-/

namespace TaintTrace

/-- Labels with their nodes, and whether these are all there are. -/
structure Ancestry where
  nodes : List (Label × Node)
  complete : Bool

namespace Ancestry

def sorted (a : Ancestry) : List (Label × Node) :=
  a.nodes.mergeSort fun x y => x.1 ≤ y.1

end Ancestry

namespace Lookup

def ancestryFrom (limit : Int) : (fuel : Nat) -> (stack : List Label) -> (seen : LabelSet) ->
    (nodes : List (Label × Node)) -> (size : Nat) -> Lookup (Except InvalidLabel Ancestry)
  | 0, _, _, nodes, _ => .done (.ok ⟨nodes.reverse, true⟩)
  | fuel + 1, stack, seen, nodes, size =>
      match seen.nextUnseen stack with
      | none => .done (.ok ⟨nodes.reverse, true⟩)
      | some (l, stack) =>
          if 0 < limit ∧ limit ≤ size then .done (.ok ⟨nodes.reverse, false⟩)
          else
            .decode l fun
              | .error e => .done (.error e)
              | .ok n =>
                  let seen := seen.insert l
                  let unseen := n.children.filter fun c => !seen.has c
                  ancestryFrom limit fuel (LabelSet.pushAll unseen stack) seen ((l, n) :: nodes) (size + 1)

/-- The ancestry of a label, with at most `limit` nodes if the limit is positive. -/
def ancestry (l : Label) (limit : Int) : Lookup (Except InvalidLabel Ancestry) :=
  ancestryFrom limit (Label.total + 1) [l] LabelSet.empty [] 0

end Lookup
end TaintTrace
