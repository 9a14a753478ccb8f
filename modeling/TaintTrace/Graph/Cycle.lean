import Std.Data.HashMap
import Std.Data.HashSet
import TaintTrace.Graph.Basic

/-!
# Elementary cycles

An elementary cycle passes no label twice.  It is written from its smallest label
on, which is repeated at the end.  Cycles are found in lexicographic order, up to a
number of them: for each label, the paths over larger labels of its component that
lead back to it.

The labels of a path are blocked.  A label stays blocked behind the path when no cycle
was closed through it, and it then waits for the labels it has edges to: as long as all
of these are blocked, no path through it can be closed.
-/

namespace TaintTrace
namespace LabelGraph

abbrev Cycle := List Label

/-- The cycles found so far, the last one first, and how many more are wanted if
there is a limit. -/
structure CycleSearch where
  room : Option Nat
  found : List Cycle

namespace CycleSearch

/-- Nothing found yet; a limit that is not positive is no limit. -/
def start (limit : Int) : CycleSearch :=
  ⟨if 0 < limit then some limit.toNat else none, []⟩

def full (s : CycleSearch) : Bool :=
  s.room == some 0

def add (s : CycleSearch) (c : Cycle) : CycleSearch :=
  ⟨s.room.map (· - 1), c :: s.found⟩

end CycleSearch

/-!
## Blocked labels

A label that is released is unblocked, and along with it all blocked labels that wait for
it.
-/

/-- The labels that a path may not take, and for each label those that are unblocked
along with it. -/
structure Blocks where
  blocked : Std.HashSet Label
  waiting : Std.HashMap Label (Std.HashSet Label)

namespace Blocks

def empty : Blocks :=
  ⟨∅, ∅⟩

def block (b : Blocks) (l : Label) : Blocks :=
  { b with blocked := b.blocked.insert l }

def waitingFor (b : Blocks) (l : Label) : List Label :=
  (b.waiting.getD l ∅).toList

def wait (b : Blocks) (l : Label) (others : List Label) : Blocks :=
  { b with
    waiting := others.foldl
      (fun waiting w => waiting.alter w fun set? => some ((set?.getD ∅).insert l)) b.waiting }

/-- Take a label out of the blocked ones; nothing waits for it any more. -/
def release (b : Blocks) (l : Label) : Blocks :=
  ⟨b.blocked.erase l, b.waiting.erase l⟩

theorem size_release_lt {b : Blocks} {l : Label} (h : l ∈ b.waiting) :
    (b.release l).waiting.size < b.waiting.size := by
  have hnonempty : b.waiting.isEmpty = false :=
    Std.HashMap.isEmpty_eq_false_iff_exists_mem.mpr ⟨l, h⟩
  rw [Std.HashMap.isEmpty_eq_size_eq_zero, beq_eq_false_iff_ne] at hnonempty
  rw [release, Std.HashMap.size_erase, if_pos h]
  omega

theorem size_release_eq {b : Blocks} {l : Label} (h : ¬ l ∈ b.waiting) :
    (b.release l).waiting.size = b.waiting.size := by
  rw [release, Std.HashMap.size_erase, if_neg h]

theorem waitingFor_eq_nil {b : Blocks} {l : Label} (h : ¬ l ∈ b.waiting) :
    b.waitingFor l = [] := by
  rw [waitingFor, Std.HashMap.getD_eq_fallback h, Std.HashSet.toList_empty]

/-- The labels to unblock after a label has been taken out: those that were to be
unblocked anyway, and the blocked ones that waited for it. -/
def pendingAfter (b : Blocks) (l : Label) (pending : List Label) : List Label :=
  LabelSet.pushAll ((b.waitingFor l).filter (b.release l).blocked.contains) pending

theorem pendingAfter_eq {b : Blocks} {l : Label} {pending : List Label} (h : ¬ l ∈ b.waiting) :
    b.pendingAfter l pending = pending := by
  rw [pendingAfter, waitingFor_eq_nil h]
  rfl

/-- Unblock labels, and with each of them the blocked labels that wait for it. -/
def unblock (b : Blocks) (pending : List Label) : Blocks :=
  match pending with
  | [] => b
  | l :: pending => (b.release l).unblock (b.pendingAfter l pending)
  termination_by (b.waiting.size, pending.length)
  decreasing_by
    by_cases h : l ∈ b.waiting
    · exact Prod.Lex.left _ _ (size_release_lt h)
    · rw [pendingAfter_eq h, size_release_eq h]
      exact Prod.Lex.right _ (Nat.lt_succ_self pending.length)

end Blocks

/-!
## Paths

The labels of a path come last one first.  A search tells whether it closed a cycle, since
its last label stays blocked if it did not.
-/

/-- The state of the search for the cycles through one label. -/
structure Circuit where
  search : CycleSearch
  blocks : Blocks

/-- Go on from a path, whose labels come last one first, along an edge of its last
label.  The answer says whether a cycle has been closed. -/
def follow (first : Label) (path : List Label) (deeper : Label -> Circuit -> Bool × Circuit)
    (s : Bool × Circuit) (w : Label) : Bool × Circuit :=
  if s.2.search.full then s
  else if w = first then (true, { s.2 with search := s.2.search.add (w :: path).reverse })
  else if s.2.blocks.blocked.contains w then s
  else
    let answer := deeper w s.2
    (s.1 || answer.1, answer.2)

/-- Add the cycles that begin with a path and a label after it, and say whether there
are any.  The fuel bounds the number of labels that the path can still take. -/
def circuit (next : Label -> List Label) (first : Label) :
    (fuel : Nat) -> (path : List Label) -> Label -> Circuit -> Bool × Circuit
  | 0, _, _, c => (false, c)
  | fuel + 1, path, v, c =>
      let (closed, c) :=
        (next v).foldl (follow first (v :: path) (circuit next first fuel (v :: path)))
          (false, { c with blocks := c.blocks.block v })
      if closed then (true, { c with blocks := c.blocks.unblock [v] })
      else (false, { c with blocks := c.blocks.wait v (next v) })

/-!
## Components

The search from a label stays among the labels of its component that are not smaller.
-/

/-- The targets of a label that are not below a first label. -/
def targetsFrom (g : LabelGraph) (first l : Label) : List Label :=
  (g.targets l).filter fun w => first ≤ w

def reversed (g : LabelGraph) : LabelGraph :=
  { g with
    edges := g.keys.foldl
      (fun edges v => (g.targets v).foldl (fun edges w => edges.modify w.toNat (v :: ·)) edges)
      (Array.replicate g.order []) }

/-- The labels that a label reaches, and those that reach it. -/
structure Component where
  forward : LabelSet
  backward : LabelSet

namespace Component

def has (c : Component) (l : Label) : Bool :=
  c.forward.has l && c.backward.has l

end Component

/-- The component of a label when all labels below it are left out.  Edges are turned
around in the second graph. -/
def componentFrom (g back : LabelGraph) (first : Label) : Component :=
  ⟨Graph.reach (g.targetsFrom first) first, Graph.reach (back.targetsFrom first) first⟩

def targetsIn (g : LabelGraph) (component : Component) (l : Label) : List Label :=
  (g.targets l).filter component.has

/-- Add the cycles whose smallest label is given, as far as they have at most `bound`
labels. -/
def cyclesFrom (g back : LabelGraph) (bound : Nat) (s : CycleSearch) (first : Label) :
    CycleSearch :=
  if s.full then s
  else
    (circuit (g.targetsIn (g.componentFrom back first)) first bound [] first
      ⟨s, Blocks.empty⟩).2.search

/-- The elementary cycles of a graph that have at most `bound` labels, and at most `limit`
of them if the limit is positive. -/
def cyclesWithin (g : LabelGraph) (bound : Nat) (limit : Int) : List Cycle :=
  (g.keys.foldl (g.cyclesFrom g.reversed bound) (CycleSearch.start limit)).found.reverse

/-- The elementary cycles of a graph, at most `limit` of them if the limit is
positive. -/
def elementaryCycles (g : LabelGraph) (limit : Int) : List Cycle :=
  g.cyclesWithin g.keys.length limit

end LabelGraph
end TaintTrace
