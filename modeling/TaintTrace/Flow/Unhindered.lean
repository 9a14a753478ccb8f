import TaintTrace.Trace.Sources

/-!
# Unhindered sources

The sources that reach a label without passing a node that affects control flow.
The search keeps the labels it has dealt with in a set that the next search can
start from, so that several searches together look at each label once.
-/

namespace TaintTrace

/-- The state of a search: labels still to look at, labels dealt with, and the
sources found, the last one first. -/
structure Unhindered where
  stack : List Label
  seen : LabelSet
  yielded : List Label

namespace Unhindered

def visitNode (s : Unhindered) (c : Label) (n : Node) : Unhindered :=
  if n.controlFlow then { s with seen := s.seen.insert c }
  else if n.isSource then { s with seen := s.seen.insert c, yielded := c :: s.yielded }
  else { s with stack := c :: s.stack }

/-- Visit the children of a node from an index on, up to one without node. -/
def visitChildren (n : Node) : (remaining i : Nat) -> Unhindered ->
    Lookup (Unhindered × Option InvalidLabel)
  | 0, _, s => .done (s, none)
  | remaining + 1, i, s =>
      let c := n.child i
      if s.seen.has c then visitChildren n remaining (i + 1) s
      else
        .decode c fun
          | .error e => .done (s, some e)
          | .ok child => visitChildren n remaining (i + 1) (s.visitNode c child)

/-- Search until the stack is empty.  The fuel is the number of labels that may
still be taken off the stack for the first time. -/
def search : (fuel : Nat) -> Unhindered -> Lookup (Unhindered × Option InvalidLabel)
  | 0, s => .done (s, none)
  | fuel + 1, s =>
      match s.seen.nextUnseen s.stack with
      | none => .done ({ s with stack := [] }, none)
      | some (l, stack) =>
          let s := { s with stack := stack, seen := s.seen.insert l }
          .decode l fun
            | .error e => .done (s, some e)
            | .ok n =>
                if n.controlFlow then search fuel s
                else if n.isSource then search fuel { s with yielded := l :: s.yielded }
                else
                  (visitChildren n n.childCount 0 s).bind fun
                    | (s, some e) => .done (s, some e)
                    | (s, none) => search fuel s

end Unhindered

/-- What a search for unhindered sources found, and how it ended. -/
structure UnhinderedSources where
  yielded : List Label
  seen : LabelSet
  fault : Option Fault

namespace Lookup

/-- The unhindered sources of a label that are not in `seen`, up to the first
label without node. -/
def unhinderedSources (l : Label) (seen : LabelSet) : Lookup UnhinderedSources :=
  (Unhindered.search Label.total ⟨[l], seen, []⟩).bind fun (s, e) =>
    .done ⟨s.yielded.reverse, s.seen,
      e.map fun e => .within (.searching l) (.invalidLabel e)⟩

end Lookup
end TaintTrace
