import TaintTrace.Flow.Fault
import TaintTrace.Label.Set
import TaintTrace.Trace.Lookup

/-!
# The sources of a label

All source nodes that a label is made of, through unions and ranges, in the order
of a depth-first search that looks at the last child first.  Every label is looked
at once, so the search ends on any trace.
-/

namespace TaintTrace

structure FoundSource where
  label : Label
  file : UInt8
  offset : UInt64
  deriving DecidableEq, Repr

namespace Lookup

/-- The search for the sources of `root`.  The fuel is the number of labels that
may still be looked at. -/
def sourcesFrom (root : Label) : (fuel : Nat) -> (stack : List Label) -> (seen : LabelSet) ->
    (found : List FoundSource) -> Lookup (List FoundSource × Option Fault)
  | 0, _, _, found => .done (found.reverse, none)
  | fuel + 1, stack, seen, found =>
      match seen.nextUnseen stack with
      | none => .done (found.reverse, none)
      | some (l, stack) =>
          let seen := seen.insert l
          .decode l fun
            | .error e =>
                let fault := Fault.invalidLabel e
                .done (found.reverse,
                  some (if l = root then fault else .within (.resolving root) fault))
            | .ok n =>
                match n.origin with
                | .source file offset =>
                    sourcesFrom root fuel stack seen (⟨l, file, offset⟩ :: found)
                | _ =>
                    let unseen := n.children.filter fun c => !seen.has c
                    sourcesFrom root fuel (LabelSet.pushAll unseen stack) seen found

/-- The sources of a label, in the order they are found, up to the first label
that has no node. -/
def sources (l : Label) : Lookup (List FoundSource × Option Fault) :=
  sourcesFrom l Label.total [l] LabelSet.empty []

end Lookup
end TaintTrace
