import Mathlib
import TaintTrace.Graph.Tree

/-!
# Addresses in label trees

The address of a node says which child to take at each step from the root.  A tree is known
when it is known what stands at each address.  A walk comes to the addresses of a tree in
lexicographic order: to a node before those below it, and to what is below a child before the
next child.
-/

namespace TaintTrace
namespace LabelTree

abbrev Address := List Nat

def subtree? : LabelTree -> Address -> Option LabelTree
  | t, [] => some t
  | t, i :: a => t.children[i]?.bind fun c => c.subtree? a

def nodeAt? (t : LabelTree) (a : Address) : Option (Label × Nat) :=
  (t.subtree? a).map fun s => (s.label, s.depth)

variable {t s c : LabelTree} {cs : List LabelTree} {a b : Address} {l : Label} {d i : Nat}

@[simp] theorem nodeAt?_nil (l : Label) (d : Nat) (cs : List LabelTree) :
    (node l d cs).nodeAt? [] = some (l, d) := rfl

theorem nodeAt?_cons : (node l d cs).nodeAt? (i :: a) = cs[i]?.bind fun c => c.nodeAt? a := by
  show Option.map _ (cs[i]?.bind fun c => c.subtree? a) = _
  rw [Option.map_bind]
  rfl

theorem nodeAt?_zero : (node l d (c :: cs)).nodeAt? (0 :: a) = c.nodeAt? a := rfl

theorem nodeAt?_succ :
    (node l d (c :: cs)).nodeAt? ((i + 1) :: a) = (node l d cs).nodeAt? (i :: a) := rfl

theorem nodeAt?_append (h : t.subtree? a = some s) : t.nodeAt? (a ++ b) = s.nodeAt? b := by
  induction a generalizing t with
  | nil =>
      cases h
      rfl
  | cons i a ih =>
      rcases t with ⟨l, d, cs⟩
      rcases Option.bind_eq_some_iff.mp h with ⟨c, hc, hs⟩
      have hc : cs[i]? = some c := hc
      rw [List.cons_append, nodeAt?_cons, hc]
      exact ih hs

theorem nodeAt?_eq_of_subtree? (h : t.subtree? a = some s) :
    t.nodeAt? a = some (s.label, s.depth) := by
  rw [nodeAt?, h]
  rfl

/-!
## Trees with the same nodes
-/

mutual

theorem eq_of_nodeAt? : (t t' : LabelTree) -> (forall a, t.nodeAt? a = t'.nodeAt? a) -> t = t'
  | node l d cs, node l' d' cs', h => by
      have hroot := h []
      rw [nodeAt?_nil, nodeAt?_nil, Option.some.injEq, Prod.mk.injEq] at hroot
      have hchildren : cs = cs' := by
        apply children_eq_of_nodeAt? l d cs cs'
        intro i a
        rw [h (i :: a), hroot.1, hroot.2]
      rw [hroot.1, hroot.2, hchildren]

theorem children_eq_of_nodeAt? (l : Label) (d : Nat) : (cs cs' : List LabelTree) ->
    (forall i a, (node l d cs).nodeAt? (i :: a) = (node l d cs').nodeAt? (i :: a)) -> cs = cs'
  | [], [], _ => rfl
  | [], node l' d' _ :: _, h => by
      have hfirst := h 0 []
      cases hfirst
  | node l' d' _ :: _, [], h => by
      have hfirst := h 0 []
      cases hfirst
  | c :: cs, c' :: cs', h => by
      rw [eq_of_nodeAt? c c' (h 0), children_eq_of_nodeAt? l d cs cs' fun i => h (i + 1)]

end

/-!
## Walks
-/

mutual

def addresses : LabelTree -> List Address
  | node _ _ cs => [] :: addressesFrom 0 cs

/-- The addresses below children that are counted from a number on. -/
def addressesFrom : Nat -> List LabelTree -> List Address
  | _, [] => []
  | i, c :: cs => c.addresses.map (i :: ·) ++ addressesFrom (i + 1) cs

end

theorem head_of_mem_addressesFrom {k : Nat} (h : a ∈ addressesFrom k cs) :
    exists i b, a = i :: b ∧ k ≤ i := by
  induction cs generalizing k with
  | nil => cases h
  | cons c cs ih =>
      rw [addressesFrom, List.mem_append, List.mem_map] at h
      rcases h with ⟨b, _, rfl⟩ | h
      · exact ⟨k, b, rfl, Nat.le_refl k⟩
      · rcases ih h with ⟨i, b, ha, hle⟩
        exact ⟨i, b, ha, Nat.le_of_succ_le hle⟩

mutual

theorem mem_addresses : (t : LabelTree) -> (a : Address) ->
    (a ∈ t.addresses <-> (t.nodeAt? a).isSome = true)
  | node l d cs, [] => by simp [addresses]
  | node l d cs, i :: a => by
      have hbelow := mem_addressesFrom l d cs 0 i a
      rw [Nat.zero_add] at hbelow
      rw [addresses, List.mem_cons, or_iff_right (List.cons_ne_nil i a), hbelow]

theorem mem_addressesFrom (l : Label) (d : Nat) : (cs : List LabelTree) -> (k i : Nat) ->
    (a : Address) -> ((k + i) :: a ∈ addressesFrom k cs <->
      ((node l d cs).nodeAt? (i :: a)).isSome = true)
  | [], k, i, a => by simp [addressesFrom, nodeAt?_cons]
  | c :: cs, k, 0, a => by
      have hlater : (k + 0) :: a ∉ addressesFrom (k + 1) cs := by
        intro hmem
        rcases head_of_mem_addressesFrom hmem with ⟨i, b, ha, hle⟩
        cases ha
        exact Nat.not_succ_le_self k hle
      rw [addressesFrom, List.mem_append, or_iff_left hlater, nodeAt?_zero, ← mem_addresses c a,
        Nat.add_zero, List.mem_map_of_injective (List.cons_injective)]
  | c :: cs, k, i + 1, a => by
      have hfirst : (k + (i + 1)) :: a ∉ c.addresses.map (k :: ·) := by
        intro hmem
        rcases List.mem_map.mp hmem with ⟨b, _, hb⟩
        cases hb
      have hrest := mem_addressesFrom l d cs (k + 1) i a
      rw [Nat.add_assoc, Nat.add_comm 1 i] at hrest
      rw [addressesFrom, List.mem_append, or_iff_right hfirst, hrest, nodeAt?_succ]

end

mutual

theorem addresses_pairwise : (t : LabelTree) -> t.addresses.Pairwise (· < ·)
  | node l d cs => by
      rw [addresses, List.pairwise_cons]
      refine ⟨?_, addressesFrom_pairwise cs 0⟩
      intro a ha
      rcases head_of_mem_addressesFrom ha with ⟨i, b, rfl, _⟩
      exact List.nil_lt_cons i b

theorem addressesFrom_pairwise : (cs : List LabelTree) -> (k : Nat) ->
    (addressesFrom k cs).Pairwise (· < ·)
  | [], _ => List.Pairwise.nil
  | c :: cs, k => by
      rw [addressesFrom, List.pairwise_append, List.pairwise_map]
      refine ⟨?_, addressesFrom_pairwise cs (k + 1), ?_⟩
      · refine (addresses_pairwise c).imp ?_
        intro a b hab
        exact List.cons_lt_cons_iff.mpr (Or.inr ⟨rfl, hab⟩)
      · intro a ha b hb
        rcases List.mem_map.mp ha with ⟨a', _, rfl⟩
        rcases head_of_mem_addressesFrom hb with ⟨i, b', rfl, hle⟩
        exact List.cons_lt_cons_iff.mpr (Or.inl hle)

end

/-- Whether a visit of a walk that starts at some depth is that of a node. -/
structure Visit.Meets (base : Nat) (found : Option (Label × Nat)) (v : Visit) : Prop where
  found : found = some (v.label, v.depth)
  walkDepth : v.walkDepth = v.depth - base

mutual

theorem visits_meet (base : Nat) : (t : LabelTree) ->
    List.Forall₂ (fun a v => v.Meets base (t.nodeAt? a)) t.addresses (t.visits base)
  | node l d cs => by
      rw [addresses, visits]
      refine .cons ⟨rfl, rfl⟩ ((visitsAll_meet base l d cs 0).imp ?_)
      intro a v hmeets
      rcases hmeets with ⟨i, b, rfl, hmeets⟩
      rw [Nat.zero_add]
      exact hmeets

theorem visitsAll_meet (base : Nat) (l : Label) (d : Nat) : (cs : List LabelTree) -> (k : Nat) ->
    List.Forall₂
      (fun a v => exists i b, a = (k + i) :: b ∧ v.Meets base ((node l d cs).nodeAt? (i :: b)))
      (addressesFrom k cs) (visitsAll base cs)
  | [], _ => .nil
  | c :: cs, k => by
      rw [addressesFrom, visitsAll]
      refine List.rel_append ?_ ?_
      · rw [List.forall₂_map_left_iff]
        refine (visits_meet base c).imp ?_
        intro a v hmeets
        exact ⟨0, a, rfl, hmeets⟩
      · refine (visitsAll_meet base l d cs (k + 1)).imp ?_
        intro a v hmeets
        rcases hmeets with ⟨i, b, rfl, hmeets⟩
        exact ⟨i + 1, b, by rw [Nat.add_assoc, Nat.add_comm 1 i], hmeets⟩

end

def Measured (t : LabelTree) : Prop :=
  forall a x, t.nodeAt? a = some x -> x.2 = a.length

namespace Measured

theorem depth_eq (h : t.Measured) (hs : t.subtree? a = some s) : s.depth = a.length :=
  h a (s.label, s.depth) (nodeAt?_eq_of_subtree? hs)

theorem walk_meets (h : t.Measured) (hs : t.subtree? a = some s) :
    List.Forall₂ (fun b v => s.nodeAt? b = some (v.label, v.depth) ∧
      v.walkDepth = b.length ∧ v.depth = a.length + b.length) s.addresses s.walk := by
  refine (visits_meet s.depth s).imp ?_
  intro b v hmeets
  have hfound := hmeets.found
  have hdepth : v.depth = (a ++ b).length :=
    h (a ++ b) (v.label, v.depth) (by rw [nodeAt?_append hs, hfound])
  rw [List.length_append] at hdepth
  refine ⟨hfound, ?_, hdepth⟩
  rw [hmeets.walkDepth, h.depth_eq hs, hdepth, Nat.add_sub_cancel_left]

end Measured

end LabelTree
end TaintTrace
