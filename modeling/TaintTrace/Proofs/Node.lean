import Mathlib
import TaintTrace.Node.Basic

/-!
# The children of nodes
-/

namespace TaintTrace
namespace Node

theorem children_eq (n : Node) : n.children = (List.range' 0 n.childCount).map n.child := by
  rw [children, childrenUpTo, Nat.min_self, List.range_eq_range']

theorem length_children (n : Node) : n.children.length = n.childCount := by
  rw [children_eq, List.length_map, List.length_range']

theorem childrenUpTo_eq_take (n : Node) (k : Nat) : n.childrenUpTo k = n.children.take k := by
  rw [children, childrenUpTo, childrenUpTo, Nat.min_self, ← List.map_take, List.take_range]

theorem children_congr {n m : Node} (h : n.origin = m.origin) : n.children = m.children := by
  rcases n with ⟨origin, affects⟩
  rcases m with ⟨origin', affects'⟩
  cases h
  rfl

theorem children_eq_nil {n : Node} (h : n.isSource = true) : n.children = [] := by
  rcases n with ⟨origin, controlFlow⟩
  cases origin with
  | source file offset => rfl
  | union left right => cases h
  | range first last => cases h

theorem children_union (left right : Label) (controlFlow : Bool) :
    children ⟨.union left right, controlFlow⟩ = [left, right] := rfl

theorem mem_children_range {first last m : Label} {controlFlow : Bool} :
    m ∈ children ⟨.range first last, controlFlow⟩ <->
      first.toNat ≤ m.toNat ∧ m.toNat ≤ last.toNat := by
  have hlast := last.toNat_lt
  rw [children_eq, List.mem_map]
  simp only [childCount, child, List.mem_range'_1]
  constructor
  · rintro ⟨i, hi, rfl⟩
    rw [UInt32.toNat_ofNat_of_lt' (by change _ < 4294967296; omega)]
    omega
  · intro hm
    refine ⟨m.toNat - first.toNat, by omega, ?_⟩
    rw [Nat.add_sub_cancel' hm.1, UInt32.ofNat_toNat]

end Node
end TaintTrace
