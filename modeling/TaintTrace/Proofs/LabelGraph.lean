import Mathlib
import TaintTrace.Graph.Basic
import TaintTrace.Proofs.LabelSet
import TaintTrace.Proofs.Node
import TaintTrace.Proofs.Sorting

/-!
# The graph on some labels of a trace

The graph has the given labels as keys, in order and each once, and between them
exactly the edges of the trace.
-/

namespace TaintTrace

namespace Node

theorem mem_validChildren {n : Node} {count : Nat} {m : Label} :
    m ∈ n.validChildren count <-> m ∈ n.children ∧ m ≠ 0 ∧ m.toNat < count := by
  rcases n with ⟨origin, controlFlow⟩
  cases origin with
  | source file offset =>
      simp [validChildren, children_eq_nil (n := ⟨.source file offset, controlFlow⟩) rfl]
  | union left right => simp [validChildren, children_union]
  | range first last =>
      have hzero : m ≠ 0 <-> m.toNat ≠ 0 := by
        rw [ne_eq, ← UInt32.toNat_inj]
        rfl
      have hlast := last.toNat_lt
      rw [mem_children_range, hzero]
      simp only [validChildren, List.mem_map, List.mem_range'_1]
      constructor
      · rintro ⟨i, hi, rfl⟩
        rw [UInt32.toNat_ofNat_of_lt' (by change _ < 4294967296; omega)]
        omega
      · intro hm
        exact ⟨m.toNat, by omega, UInt32.ofNat_toNat⟩

end Node

namespace Trace

/-- An edge of a trace: the node of a label refers to another label, and both are
labels of the trace. -/
def Refers (t : Trace) (l m : Label) : Prop :=
  (l ≠ 0 ∧ l.toNat < t.labelCount) ∧ (exists n, t.decode l = .ok n ∧ m ∈ n.children) ∧
    m ≠ 0 ∧ m.toNat < t.labelCount

theorem mem_successors {t : Trace} {l m : Label} :
    m ∈ (t.successors l).run t <-> t.Refers l m := by
  unfold successors Refers
  split
  · rename_i hl
    constructor
    · intro hm
      cases hm
    · rintro ⟨⟨hzero, hlt⟩, _⟩
      rcases hl with hl | hl
      · exact absurd hl hzero
      · omega
  · rename_i hl
    rw [not_or, Nat.not_le] at hl
    rw [Lookup.run, Lookup.answer_decode]
    cases hn : t.decode l with
    | error e => simp
    | ok n =>
        simp only [Lookup.answer_done, Node.mem_validChildren]
        constructor
        · rintro ⟨hm, hvalid⟩
          exact ⟨hl, ⟨n, rfl, hm⟩, hvalid⟩
        · rintro ⟨_, ⟨n', hn', hm⟩, hvalid⟩
          cases hn'
          exact ⟨hm, hvalid⟩

theorem size_fillEdges (t : Trace) (ls : List Label) (edges : Array (List Label)) :
    ((t.fillEdges ls edges).run t).size = edges.size := by
  induction ls generalizing edges with
  | nil => rfl
  | cons l ls ih =>
      rw [fillEdges, Lookup.run, Lookup.answer_bind]
      exact (ih _).trans (Array.size_setIfInBounds ..)

theorem mem_fillEdges (t : Trace) (ls : List Label) (edges : Array (List Label)) (l m : Label)
    (hsize : edges.size = t.labelCount) :
    m ∈ ((t.fillEdges ls edges).run t).getD l.toNat [] <->
      (l ∈ ls ∧ t.Refers l m) ∨ (l ∉ ls ∧ m ∈ edges.getD l.toNat []) := by
  induction ls generalizing edges with
  | nil => simp [fillEdges, Lookup.run]
  | cons k ls ih =>
      rw [fillEdges, Lookup.run, Lookup.answer_bind]
      refine (ih _ (by rw [Array.size_setIfInBounds, hsize])).trans ?_
      rw [List.mem_cons, not_or]
      by_cases hl : l ∈ ls
      · simp [hl]
      · by_cases hlk : l = k
        · subst hlk
          simp only [hl, not_true_eq_false, false_and, true_and, or_false, false_or,
            not_false_eq_true, Array.getD_eq_getD_getElem?, Array.getElem?_setIfInBounds,
            if_true]
          rw [← mem_successors]
          split
          · rfl
          · rename_i hout
            rw [mem_successors]
            constructor
            · intro hm
              cases hm
            · intro hm
              exact absurd hm.1.2 (by omega)
        · have hne : k.toNat ≠ l.toNat := fun h => hlk (UInt32.toNat_inj.mp h).symm
          simp [hl, hlk, Array.getD_eq_getD_getElem?, Array.getElem?_setIfInBounds_ne hne]

theorem size_edgesOf (t : Trace) (ls : List Label) :
    ((t.edgesOf ls).run t).size = t.labelCount :=
  (size_fillEdges t ls _).trans Array.size_replicate

theorem mem_edgesOf (t : Trace) (ls : List Label) (l m : Label) :
    m ∈ ((t.edgesOf ls).run t).getD l.toNat [] <-> l ∈ ls ∧ t.Refers l m := by
  refine (mem_fillEdges t ls _ l m Array.size_replicate).trans ?_
  have hnone : (Array.replicate t.labelCount ([] : List Label)).getD l.toNat [] = [] := by
    rw [Array.getD_eq_getD_getElem?, Array.getElem?_replicate]
    split <;> rfl
  simp [hnone]

end Trace

namespace LabelGraph

theorem mem_distinctLabels {ls : List Label} {l : Label} : l ∈ distinctLabels ls <-> l ∈ ls :=
  Sorting.mem_distinct

theorem distinctLabels_pairwise (ls : List Label) : (distinctLabels ls).Pairwise (· < ·) := by
  refine (Sorting.distinct_pairwise ?_ ?_ ?_ ls).imp ?_
  · intro a b c hab hbc
    rw [decide_eq_true_eq] at hab hbc ⊢
    exact UInt32.le_trans hab hbc
  · intro a b
    rw [Bool.or_eq_true, decide_eq_true_eq, decide_eq_true_eq]
    exact UInt32.le_total a b
  · intro a b hab hba
    rw [decide_eq_true_eq] at hab hba
    exact UInt32.le_antisymm hab hba
  · rintro a b ⟨hab, hne⟩
    rw [decide_eq_true_eq] at hab
    exact UInt32.lt_of_le_of_ne hab hne

theorem targets_restrict (g : LabelGraph) (edges : Array (List Label)) (included : LabelSet)
    (l : Label) (hedges : g.edges = restrict edges included) :
    g.targets l = distinctLabels ((edges.getD l.toNat []).filter included.has) := by
  rw [targets, hedges, restrict, Array.getD_eq_getD_getElem?, Array.getElem?_map,
    Array.getD_eq_getD_getElem?]
  cases edges[l.toNat]? with
  | none => simp [distinctLabels, Sorting.distinct, Sorting.dropRepeats]
  | some ls => rfl

/-!
## Graphs of traces
-/

/-- What is known of the graph on some labels of a trace. -/
structure InducedBy (g : LabelGraph) (t : Trace) (included : List Label) : Prop where
  order : g.order = t.labelCount
  size : g.edges.size = g.order
  mem_keys : forall l, l ∈ g.keys <-> l ∈ included
  keys_sorted : g.keys.Pairwise (· < ·)
  edge_iff : forall l m, m ∈ g.targets l <-> l ∈ included ∧ m ∈ included ∧ t.Refers l m
  targets_sorted : forall l, (g.targets l).Pairwise (· < ·)

theorem ofTrace_inducedBy (t : Trace) (included : List Label) :
    ((ofTrace t included).run t).InducedBy t included := by
  have htargets : forall l, ((ofTrace t included).run t).targets l =
      distinctLabels ((((t.edgesOf (distinctLabels included)).run t).getD l.toNat []).filter
        (LabelSet.ofList (distinctLabels included)).has) := by
    intro l
    apply targets_restrict
    rw [Lookup.run, ofTrace, Lookup.answer_bind]
    rfl
  constructor
  · rw [Lookup.run, ofTrace, Lookup.answer_bind]
    rfl
  · rw [Lookup.run, ofTrace, Lookup.answer_bind]
    exact Array.size_map.trans (Trace.size_edgesOf t _)
  · intro l
    rw [Lookup.run, ofTrace, Lookup.answer_bind]
    exact mem_distinctLabels
  · rw [Lookup.run, ofTrace, Lookup.answer_bind]
    exact distinctLabels_pairwise included
  · intro l m
    rw [htargets, mem_distinctLabels, List.mem_filter, Trace.mem_edgesOf,
      LabelSet.has_ofList_iff, mem_distinctLabels, mem_distinctLabels]
    tauto
  · intro l
    rw [htargets]
    exact distinctLabels_pairwise _

end LabelGraph
end TaintTrace
