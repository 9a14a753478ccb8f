import TaintTrace.Trace.Lookup

/-!
# Label trees

The tree of a label unfolds what it is made of, down to a depth: a label that is
referred to twice stands twice in the tree.  A positive bound on the number of
nodes cuts the tree in breadth-first order.
-/

namespace TaintTrace

/-- A tree of labels; every node knows its depth. -/
inductive LabelTree where
  | node (label : Label) (depth : Nat) (children : List LabelTree)

namespace LabelTree

def label : LabelTree -> Label
  | node l _ _ => l

def depth : LabelTree -> Nat
  | node _ d _ => d

def children : LabelTree -> List LabelTree
  | node _ _ cs => cs

/-- A node met on a walk, with its depth below the start of the walk. -/
structure Visit where
  label : Label
  walkDepth : Nat
  depth : Nat

mutual

def visits (base : Nat) : LabelTree -> List Visit
  | node l d cs => ⟨l, d - base, d⟩ :: visitsAll base cs

def visitsAll (base : Nat) : List LabelTree -> List Visit
  | [] => []
  | t :: ts => visits base t ++ visitsAll base ts

end

/-- The nodes of a tree, each before those below it, starting at depth zero. -/
def walk (t : LabelTree) : List Visit :=
  t.visits t.depth

/-!
## Growing level by level
-/

/-- The children that the labels of a level have in the tree, and how many more
nodes there may be.  The level is cut when there are more. -/
structure Level where
  children : List (List Label)
  room : Option Nat
  cut : Bool

def growLevel : List Label -> (room : Option Nat) -> (grown : List (List Label)) ->
    Lookup (Except InvalidLabel Level)
  | [], room, grown => .done (.ok ⟨grown.reverse, room, false⟩)
  | l :: ls, room, grown =>
      .decode l fun
        | .error e => .done (.error e)
        | .ok n =>
            match room with
            | none => growLevel ls none (n.children :: grown)
            | some k =>
                let kept := n.childrenUpTo k
                if k < n.childCount then
                  .done (.ok ⟨(kept :: grown).reverse, some 0, true⟩)
                else growLevel ls (some (k - kept.length)) (kept :: grown)

/-- Grow a tree below the labels of a level, for at most `depth` levels.  The answer
has the children of each level, and whether nothing was cut. -/
def growLevels : (depth : Nat) -> List Label -> (room : Option Nat) ->
    (grown : List (List (List Label))) -> Lookup (Except InvalidLabel (List (List (List Label)) × Bool))
  | 0, _, _, grown => .done (.ok (grown.reverse, true))
  | _, [], _, grown => .done (.ok (grown.reverse, true))
  | depth + 1, labels, room, grown =>
      (growLevel labels room []).bind fun
        | .error e => .done (.error e)
        | .ok level =>
            if level.cut then .done (.ok ((level.children :: grown).reverse, false))
            else growLevels depth level.children.flatten level.room (level.children :: grown)

/-- Hand out trees to labels, as many as each has children. -/
def distribute (depth : Nat) : List Label -> List (List Label) -> List LabelTree -> List LabelTree
  | [], _, _ => []
  | l :: ls, [], trees => .node l depth [] :: distribute depth ls [] trees
  | l :: ls, cs :: rest, trees =>
      .node l depth (trees.take cs.length) :: distribute depth ls rest (trees.drop cs.length)

/-- The trees of the labels of a level, given the children of each level from there
on. -/
def assemble : (depth : Nat) -> List Label -> List (List (List Label)) -> List LabelTree
  | depth, labels, [] => labels.map fun l => .node l depth []
  | depth, labels, level :: levels =>
      distribute depth labels level (assemble (depth + 1) level.flatten levels)

end LabelTree

namespace Lookup

/-- The tree of a label down to a depth, with at most `maxNodes` nodes if that is
positive, and whether it was not cut. -/
def labelTree (l : Label) (depth maxNodes : Int) :
    Lookup (Except InvalidLabel (LabelTree × Bool)) :=
  .decode l fun
    | .error e => .done (.error e)
    | .ok _ =>
        let room := if 0 < maxNodes then some (maxNodes.toNat - 1) else none
        (LabelTree.growLevels depth.toNat [l] room []).bind fun
          | .error e => .done (.error e)
          | .ok (levels, complete) =>
              match LabelTree.assemble 0 [l] levels with
              | t :: _ => .done (.ok (t, complete))
              | [] => .done (.ok (.node l 0 [], complete))

end Lookup
end TaintTrace
