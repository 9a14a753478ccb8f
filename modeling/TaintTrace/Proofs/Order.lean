import Mathlib
import TaintTrace.Graph.Order
import TaintTrace.Proofs.Component
import TaintTrace.Proofs.Validity

/-!
# Topological order

A depth-first search lists the labels of a graph once each, whatever the edges are.  Without
cycles a label is listed when all that it has edges to is listed already, so that it comes to
stand in front of it.  A cycle makes a component of several labels, since no edge leads from
a label to itself, and then there is no order.
-/

namespace TaintTrace
namespace TaintGraph

variable {next : Label -> List Label} {vs cs : List Label} {l m : Label} {fuel : Nat}
  {s s' s'' : LabelSet × List Label} {new new' : List Label}

/-!
## What a search lists
-/

theorem visit_of_has (fuel : Nat) (h : s.1.has l = true) : visit next fuel s l = s := by
  cases fuel with
  | zero => rfl
  | succ fuel => exact if_pos h

theorem visit_of_not_has (fuel : Nat) (h : s.1.has l = false) :
    visit next (fuel + 1) s l =
      (((next l).foldl (visit next fuel) (s.1.insert l, s.2)).1,
        l :: ((next l).foldl (visit next fuel) (s.1.insert l, s.2)).2) :=
  if_neg (Bool.eq_false_iff.mp h)

/-- A search goes from one state to another by listing labels that it had not seen, in front
of those it had listed. -/
structure Lists (vs : List Label) (s s' : LabelSet × List Label) (new : List Label) : Prop where
  listed : s'.2 = new ++ s.2
  seen : forall m, s'.1.has m = true <-> m ∈ new ∨ s.1.has m = true
  fresh : forall m, m ∈ new -> s.1.has m = false
  among : forall m, m ∈ new -> m ∈ vs
  nodup : new.Nodup

theorem Lists.refl (vs : List Label) (s : LabelSet × List Label) : Lists vs s s [] where
  listed := rfl
  seen := by simp
  fresh := by simp
  among := by simp
  nodup := List.nodup_nil

theorem Lists.not_mem (h : Lists vs s s' new) (hm : s.1.has m = true) : m ∉ new := by
  intro hnew
  rw [h.fresh m hnew] at hm
  cases hm

theorem Lists.trans (h : Lists vs s s' new) (h' : Lists vs s' s'' new') :
    Lists vs s s'' (new' ++ new) where
  listed := by rw [h'.listed, h.listed, List.append_assoc]
  seen := by
    intro m
    rw [h'.seen, h.seen, List.mem_append, or_assoc]
  fresh := by
    intro m hm
    rcases List.mem_append.mp hm with hm | hm
    · have hunseen := h'.fresh m hm
      cases hs : s.1.has m with
      | false => rfl
      | true =>
          rw [(h.seen m).mpr (Or.inr hs)] at hunseen
          cases hunseen
    · exact h.fresh m hm
  among := by
    intro m hm
    rcases List.mem_append.mp hm with hm | hm
    · exact h'.among m hm
    · exact h.among m hm
  nodup := by
    apply List.Nodup.append h'.nodup h.nodup
    intro m hm' hm
    exact h'.not_mem ((h.seen m).mpr (Or.inl hm)) hm'

theorem Lists.around (hl : l ∈ vs) (hunseen : s.1.has l = false)
    (h : Lists vs (s.1.insert l, s.2) s' new) :
    Lists vs s (s'.1, l :: s'.2) (l :: new) where
  listed := by rw [h.listed, List.cons_append]
  seen := by
    intro m
    rw [h.seen, LabelSet.has_insert_iff, List.mem_cons, or_assoc, or_left_comm]
  fresh := by
    intro m hm
    rcases List.mem_cons.mp hm with rfl | hm
    · exact hunseen
    · have hfresh := h.fresh m hm
      rw [LabelSet.has_insert, Bool.or_eq_false_iff] at hfresh
      exact hfresh.2
  among := by
    intro m hm
    rcases List.mem_cons.mp hm with rfl | hm
    · exact hl
    · exact h.among m hm
  nodup := List.nodup_cons.mpr ⟨h.not_mem (LabelSet.has_insert_iff.mpr (Or.inl rfl)), h.nodup⟩

/-- Whether edges lead from some labels to such labels only. -/
def Closed (next : Label -> List Label) (vs : List Label) : Prop :=
  forall l m, l ∈ vs -> m ∈ next l -> m ∈ vs

theorem foldl_lists {step : LabelSet × List Label -> Label -> LabelSet × List Label}
    (hstep : forall s c, c ∈ vs -> exists new, Lists vs s (step s c) new)
    (hcs : forall c, c ∈ cs -> c ∈ vs) (s : LabelSet × List Label) :
    exists new, Lists vs s (cs.foldl step s) new := by
  induction cs generalizing s with
  | nil => exact ⟨[], Lists.refl vs s⟩
  | cons c cs ih =>
      rw [List.forall_mem_cons] at hcs
      rcases hstep s c hcs.1 with ⟨new, hfirst⟩
      rcases ih hcs.2 (step s c) with ⟨new', hrest⟩
      exact ⟨new' ++ new, hfirst.trans hrest⟩

theorem visit_lists (hclosed : Closed next vs) (fuel : Nat) (s : LabelSet × List Label)
    (l : Label) (hl : l ∈ vs) : exists new, Lists vs s (visit next fuel s l) new := by
  induction fuel generalizing s l with
  | zero => exact ⟨[], Lists.refl vs s⟩
  | succ fuel ih =>
      cases hseen : s.1.has l with
      | true =>
          rw [visit_of_has _ hseen]
          exact ⟨[], Lists.refl vs s⟩
      | false =>
          rw [visit_of_not_has fuel hseen]
          rcases foldl_lists ih (fun c => hclosed l c hl) (s.1.insert l, s.2) with ⟨new, hnew⟩
          exact ⟨l :: new, Lists.around hl hseen hnew⟩

theorem foldl_visit_lists (hclosed : Closed next vs) (fuel : Nat)
    (hcs : forall c, c ∈ cs -> c ∈ vs) (s : LabelSet × List Label) :
    exists new, Lists vs s (cs.foldl (visit next fuel) s) new :=
  foldl_lists (visit_lists hclosed fuel) hcs s

theorem has_visit (hclosed : Closed next vs) (fuel : Nat) (s : LabelSet × List Label)
    (hl : l ∈ vs) : (visit next (fuel + 1) s l).1.has l = true := by
  cases hseen : s.1.has l with
  | true =>
      rw [visit_of_has _ hseen]
      exact hseen
  | false =>
      rw [visit_of_not_has fuel hseen]
      rcases foldl_visit_lists hclosed fuel (fun c => hclosed l c hl) (s.1.insert l, s.2) with
        ⟨new, hnew⟩
      exact (hnew.seen l).mpr (Or.inr (LabelSet.has_insert_iff.mpr (Or.inl rfl)))

theorem has_foldl_visit (hclosed : Closed next vs) (fuel : Nat)
    (hcs : forall c, c ∈ cs -> c ∈ vs) (s : LabelSet × List Label) :
    forall c, c ∈ cs -> (cs.foldl (visit next (fuel + 1)) s).1.has c = true := by
  induction cs generalizing s with
  | nil =>
      intro c hc
      cases hc
  | cons k cs ih =>
      rw [List.forall_mem_cons] at hcs
      intro c hc
      rcases List.mem_cons.mp hc with rfl | hc
      · rcases foldl_visit_lists hclosed (fuel + 1) hcs.2 (visit next (fuel + 1) s c) with
          ⟨new, hnew⟩
        exact (hnew.seen c).mpr (Or.inr (has_visit hclosed fuel s hcs.1))
      · exact ih hcs.2 _ c hc

theorem finishOrder_lists (hclosed : Closed next vs) :
    (finishOrder next vs).Nodup ∧ forall l, l ∈ finishOrder next vs <-> l ∈ vs := by
  rcases foldl_visit_lists hclosed (vs.length + 1) (fun c hc => hc) (LabelSet.empty, []) with
    ⟨new, hnew⟩
  have horder : finishOrder next vs = new := by
    rw [finishOrder, hnew.listed, List.append_nil]
  rw [horder]
  refine ⟨hnew.nodup, fun l => ⟨hnew.among l, ?_⟩⟩
  intro hl
  have hseen := has_foldl_visit hclosed vs.length (fun c hc => hc) (LabelSet.empty, []) l hl
  rcases (hnew.seen l).mp hseen with hmem | hempty
  · exact hmem
  · rw [LabelSet.has_empty] at hempty
    cases hempty

/-!
## Graphs without cycles
-/

/-- Each label of a list comes before all that it has edges to. -/
inductive Ordered (next : Label -> List Label) : List Label -> Prop where
  | nil : Ordered next []
  | cons {l : Label} {ls : List Label} :
      (forall c, c ∈ next l -> c ∈ ls) -> Ordered next ls -> Ordered next (l :: ls)

theorem Ordered.sublist {ls : List Label} (h : Ordered next ls) (hl : l ∈ ls)
    (hm : m ∈ next l) : [l, m].Sublist ls := by
  induction h with
  | nil => cases hl
  | @cons k ks hnext _ ih =>
      rcases List.mem_cons.mp hl with rfl | hl
      · exact (List.singleton_sublist.mpr (hnext m hm)).cons_cons l
      · exact (ih hl).cons k

/-- A search between two visits. -/
structure Settled (next : Label -> List Label) (s : LabelSet × List Label) : Prop where
  ordered : Ordered next s.2
  seen : forall m, m ∈ s.2 -> s.1.has m = true

/-- Whether no label can be reached that is seen and not listed: such labels are in the middle
of their visits. -/
def Clear (next : Label -> List Label) (s : LabelSet × List Label) (l : Label) : Prop :=
  forall m, Graph.Path next l m -> s.1.has m = true -> m ∈ s.2

theorem Lists.clear (h : Lists vs s s' new) (hclear : Clear next s l) : Clear next s' l := by
  intro m hpath hseen
  rw [h.listed, List.mem_append]
  rcases (h.seen m).mp hseen with hm | hm
  · exact Or.inl hm
  · exact Or.inr (hclear m hpath hm)

theorem Clear.child (hacyclic : forall l, ¬ Graph.OnCycle next l) (h : Clear next s l)
    (hm : m ∈ next l) : Clear next (s.1.insert l, s.2) m := by
  intro k hpath hseen
  rcases LabelSet.has_insert_iff.mp hseen with rfl | hseen
  · exact absurd (Relation.TransGen.head' hm hpath) (hacyclic k)
  · exact h k (hpath.head hm) hseen

/-- The labels of a graph that a search has not seen. -/
def unvisited (vs : List Label) (seen : LabelSet) : Finset Label :=
  vs.toFinset ∩ seen.unseen

theorem mem_unvisited {seen : LabelSet} :
    m ∈ unvisited vs seen <-> m ∈ vs ∧ seen.has m = false := by
  rw [unvisited, Finset.mem_inter, List.mem_toFinset, LabelSet.mem_unseen]

theorem card_unvisited_insert {seen : LabelSet} (hl : l ∈ vs) (h : seen.has l = false) :
    (unvisited vs (seen.insert l)).card < (unvisited vs seen).card := by
  apply Finset.card_lt_card
  rw [Finset.ssubset_iff_of_subset]
  · refine ⟨l, mem_unvisited.mpr ⟨hl, h⟩, ?_⟩
    rw [mem_unvisited, LabelSet.has_insert]
    simp
  · intro m hm
    rw [mem_unvisited, LabelSet.has_insert, Bool.or_eq_false_iff] at hm
    exact mem_unvisited.mpr ⟨hm.1, hm.2.2⟩

theorem Lists.card_unvisited_le (h : Lists vs s s' new) :
    (unvisited vs s'.1).card ≤ (unvisited vs s.1).card := by
  apply Finset.card_le_card
  intro m hm
  rw [mem_unvisited] at hm ⊢
  refine ⟨hm.1, ?_⟩
  rw [← Bool.not_eq_true] at hm ⊢
  intro hseen
  exact hm.2 ((h.seen m).mpr (Or.inr hseen))

/-- What a visit with enough fuel does to a search of a graph without cycles. -/
def VisitsInOrder (next : Label -> List Label) (vs : List Label) (fuel : Nat) : Prop :=
  forall s l, l ∈ vs -> (unvisited vs s.1).card ≤ fuel -> Settled next s -> Clear next s l ->
    Settled next (visit next fuel s l) ∧ l ∈ (visit next fuel s l).2

theorem VisitsInOrder.foldl (hclosed : Closed next vs) (h : VisitsInOrder next vs fuel)
    (hcs : forall c, c ∈ cs -> c ∈ vs) (hfuel : (unvisited vs s.1).card ≤ fuel)
    (hsettled : Settled next s) (hclear : forall c, c ∈ cs -> Clear next s c) :
    Settled next (cs.foldl (visit next fuel) s) ∧
      forall c, c ∈ cs -> c ∈ (cs.foldl (visit next fuel) s).2 := by
  induction cs generalizing s with
  | nil =>
      refine ⟨hsettled, ?_⟩
      intro c hc
      cases hc
  | cons c cs ih =>
      rw [List.forall_mem_cons] at hcs hclear
      rcases visit_lists hclosed fuel s c hcs.1 with ⟨new, hnew⟩
      rcases h s c hcs.1 hfuel hsettled hclear.1 with ⟨hfirst, hmem⟩
      rcases ih hcs.2 (hnew.card_unvisited_le.trans hfuel) hfirst
        (fun k hk => hnew.clear (hclear.2 k hk)) with ⟨hrest, hall⟩
      rw [List.foldl_cons, List.forall_mem_cons]
      refine ⟨hrest, ?_, hall⟩
      rcases foldl_visit_lists hclosed fuel hcs.2 (visit next fuel s c) with ⟨new', hnew'⟩
      rw [hnew'.listed]
      exact List.mem_append_right new' hmem

theorem visitsInOrder (hclosed : Closed next vs) (hacyclic : forall l, ¬ Graph.OnCycle next l)
    (fuel : Nat) : VisitsInOrder next vs fuel := by
  induction fuel with
  | zero =>
      intro s l hl hfuel hsettled hclear
      refine ⟨hsettled, hclear l .refl ?_⟩
      cases hseen : s.1.has l with
      | true => rfl
      | false =>
          have hmem := mem_unvisited.mpr ⟨hl, hseen⟩
          rw [Finset.card_eq_zero.mp (Nat.le_zero.mp hfuel)] at hmem
          cases hmem
  | succ fuel ih =>
      intro s l hl hfuel hsettled hclear
      cases hseen : s.1.has l with
      | true =>
          rw [visit_of_has _ hseen]
          exact ⟨hsettled, hclear l .refl hseen⟩
      | false =>
          have hmarked : Settled next (s.1.insert l, s.2) := by
            refine ⟨hsettled.ordered, ?_⟩
            intro m hm
            exact LabelSet.has_insert_iff.mpr (Or.inr (hsettled.seen m hm))
          have hless := card_unvisited_insert hl hseen
          have hchildren := ih.foldl (s := (s.1.insert l, s.2)) hclosed (fun c => hclosed l c hl)
            (Nat.le_of_lt_succ (Nat.lt_of_lt_of_le hless hfuel)) hmarked
            (fun c hc => hclear.child hacyclic hc)
          rcases foldl_visit_lists hclosed fuel (fun c => hclosed l c hl) (s.1.insert l, s.2) with
            ⟨new, hnew⟩
          rw [visit_of_not_has fuel hseen]
          refine ⟨⟨.cons hchildren.2 hchildren.1.ordered, ?_⟩, List.mem_cons_self⟩
          intro m hm
          rcases List.mem_cons.mp hm with rfl | hm
          · exact (hnew.seen m).mpr (Or.inr (LabelSet.has_insert_iff.mpr (Or.inl rfl)))
          · exact hchildren.1.seen m hm

theorem finishOrder_ordered (hclosed : Closed next vs)
    (hacyclic : forall l, ¬ Graph.OnCycle next l) : Ordered next (finishOrder next vs) := by
  have hfuel : (unvisited vs LabelSet.empty).card ≤ vs.length + 1 :=
    calc (unvisited vs LabelSet.empty).card ≤ vs.toFinset.card :=
          Finset.card_le_card Finset.inter_subset_left
      _ ≤ vs.length := List.toFinset_card_le vs
      _ ≤ vs.length + 1 := Nat.le_succ _
  have hsettled : Settled next (LabelSet.empty, []) := ⟨.nil, fun m hm => nomatch hm⟩
  have hclear : forall c, c ∈ vs -> Clear next (LabelSet.empty, []) c := by
    intro c _ m _ hseen
    rw [LabelSet.has_empty] at hseen
    cases hseen
  have hall := (visitsInOrder hclosed hacyclic (vs.length + 1)).foldl
    (s := (LabelSet.empty, [])) hclosed (fun c hc => hc) hfuel hsettled hclear
  rw [finishOrder]
  exact hall.1.ordered

/-!
## Labels that refer to smaller ones
-/

theorem foldl_visit_of_has (h : forall c, c ∈ cs -> s.1.has c = true) :
    cs.foldl (visit next fuel) s = s := by
  induction cs with
  | nil => rfl
  | cons c cs ih =>
      rw [List.forall_mem_cons] at h
      rw [List.foldl_cons, visit_of_has fuel h.1]
      exact ih h.2

/-- From the smallest label on, all edges lead to labels that are listed already. -/
theorem foldl_visit_descending (hsorted : cs.Pairwise (· < ·))
    (hunseen : forall c, c ∈ cs -> s.1.has c = false)
    (hnext : forall c m, c ∈ cs -> m ∈ next c -> m < c ∧ (m ∈ cs ∨ s.1.has m = true)) :
    (cs.foldl (visit next (fuel + 1)) s).2 = cs.reverse ++ s.2 := by
  induction cs generalizing s with
  | nil => rfl
  | cons c cs ih =>
      rw [List.forall_mem_cons] at hunseen
      rw [List.pairwise_cons] at hsorted
      have hchildren : forall m, m ∈ next c -> (s.1.insert c).has m = true := by
        intro m hm
        rcases hnext c m List.mem_cons_self hm with ⟨hlt, hmem | hseen⟩
        · rcases List.mem_cons.mp hmem with rfl | hmem
          · exact absurd hlt (UInt32.lt_irrefl m)
          · exact absurd (UInt32.lt_trans hlt (hsorted.1 m hmem)) (UInt32.lt_irrefl m)
        · exact LabelSet.has_insert_iff.mpr (Or.inr hseen)
      have hvisit : visit next (fuel + 1) s c = (s.1.insert c, c :: s.2) := by
        rw [visit_of_not_has fuel hunseen.1,
          foldl_visit_of_has (s := (s.1.insert c, s.2)) hchildren]
      rw [List.foldl_cons, hvisit, List.reverse_cons, List.append_assoc]
      apply ih hsorted.2
      · intro k hk
        rw [LabelSet.has_insert, Bool.or_eq_false_iff, beq_eq_false_iff_ne]
        refine ⟨?_, hunseen.2 k hk⟩
        intro hsame
        subst hsame
        exact UInt32.lt_irrefl k (hsorted.1 k hk)
      · intro k m hk hm
        rcases hnext k m (List.mem_cons_of_mem c hk) hm with ⟨hlt, hmem | hseen⟩
        · rcases List.mem_cons.mp hmem with rfl | hmem
          · exact ⟨hlt, Or.inr (LabelSet.has_insert_iff.mpr (Or.inl rfl))⟩
          · exact ⟨hlt, Or.inl hmem⟩
        · exact ⟨hlt, Or.inr (LabelSet.has_insert_iff.mpr (Or.inr hseen))⟩

/-!
## Edges of a graph
-/

variable {g : TaintGraph}

def targets (g : TaintGraph) (l : Label) : List Label :=
  g.targetTable.getD l []

/-- The edges of a union are its two sides as far as they are kept, and one edge if both name
one label. -/
theorem mem_unionEdges (keep : Label -> Bool) {left right c : Label} :
    c ∈ (if left = right then
        ([(left, Side.left), (right, Side.right)].filter fun e => keep e.1).drop 1
      else [(left, Side.left), (right, Side.right)].filter fun e => keep e.1).map Prod.fst <->
      (c = left ∨ c = right) ∧ keep c = true := by
  split
  · rename_i hsame
    subst hsame
    rw [or_self]
    cases hkeep : keep left with
    | true =>
        simp only [List.filter_cons, hkeep, if_true, List.filter_nil, List.drop_succ_cons,
          List.drop_zero, List.map_cons, List.map_nil, List.mem_singleton]
        constructor
        · intro hc
          rw [hc]
          exact ⟨rfl, hkeep⟩
        · exact And.left
    | false =>
        simp only [List.filter_cons, hkeep, Bool.false_eq_true, if_false, List.filter_nil,
          List.drop_nil, List.map_nil, List.not_mem_nil, false_iff, not_and]
        intro hc
        rw [hc, hkeep]
        exact Bool.false_ne_true
  · rw [List.mem_map]
    constructor
    · intro hc
      rcases hc with ⟨e, he, rfl⟩
      rw [List.mem_filter, List.mem_pair] at he
      exact ⟨he.1.imp (congrArg Prod.fst) (congrArg Prod.fst), he.2⟩
    · intro hc
      rcases hc with ⟨rfl | rfl, hkeep⟩
      · exact ⟨(c, .left), List.mem_filter.mpr ⟨by simp, hkeep⟩, rfl⟩
      · exact ⟨(c, .right), List.mem_filter.mpr ⟨by simp, hkeep⟩, rfl⟩

theorem mem_edgesOf {included : LabelSet} {n : TaintNode} {c : Label} :
    c ∈ (edgesOf included n).map Prod.fst <->
      c ∈ n.node.children ∧ included.has c = true ∧ c ≠ n.label := by
  have hkeep : forall k, (included.has k && decide (k ≠ n.label)) = true <->
      included.has k = true ∧ k ≠ n.label := by
    intro k
    rw [Bool.and_eq_true, decide_eq_true_eq]
  rcases n with ⟨label, ⟨origin, controlFlow⟩, path⟩
  cases origin with
  | source file offset =>
      rw [Node.children_eq_nil rfl]
      simp [edgesOf]
  | union left right =>
      unfold edgesOf
      rw [((List.mergeSort_perm _ _).map Prod.fst).mem_iff, Node.children_union, List.mem_pair,
        ← hkeep]
      exact mem_unionEdges fun k => included.has k && decide (k ≠ label)
  | range first last =>
      unfold edgesOf
      rw [List.map_map, List.mem_map, ← hkeep]
      constructor
      · intro hc
        rcases hc with ⟨k, hk, rfl⟩
        exact List.mem_filter.mp hk
      · intro hc
        exact ⟨c, List.mem_filter.mpr hc, rfl⟩

theorem targetTable_eq (g : TaintGraph) :
    g.targetTable = Std.HashMap.ofList (g.nodes.map fun n =>
      (n.label, (edgesOf (LabelSet.ofList g.labels) n).map Prod.fst)) := by
  unfold targetTable adjacency
  rw [List.map_map]
  rfl

theorem mem_targets (hdistinct : g.labels.Nodup) {c : Label} :
    c ∈ g.targets l <->
      exists n, n ∈ g.nodes ∧ n.label = l ∧ c ∈ n.node.children ∧ c ∈ g.labels ∧ c ≠ l := by
  have hkeys : (g.nodes.map fun n =>
      (n.label, (edgesOf (LabelSet.ofList g.labels) n).map Prod.fst)).Pairwise
      fun a b => (a.1 == b.1) = false := by
    rw [List.pairwise_map]
    refine (List.pairwise_map.mp hdistinct).imp ?_
    intro a b hne
    exact beq_eq_false_iff_ne.mpr hne
  rw [targets, targetTable_eq]
  constructor
  · intro hc
    by_cases hl : l ∈ g.labels
    · rcases List.mem_map.mp hl with ⟨n, hn, rfl⟩
      rw [Std.HashMap.getD_ofList_of_mem (beq_self_eq_true n.label) hkeys
        (List.mem_map.mpr ⟨n, hn, rfl⟩), mem_edgesOf, LabelSet.has_ofList_iff] at hc
      exact ⟨n, hn, rfl, hc⟩
    · rw [Std.HashMap.getD_ofList_of_contains_eq_false] at hc
      · cases hc
      · rw [List.map_map, ← Bool.not_eq_true, List.contains_iff_mem]
        exact hl
  · intro hc
    rcases hc with ⟨n, hn, rfl, hc⟩
    rw [Std.HashMap.getD_ofList_of_mem (beq_self_eq_true n.label) hkeys
      (List.mem_map.mpr ⟨n, hn, rfl⟩), mem_edgesOf, LabelSet.has_ofList_iff]
    exact hc

/-!
## Graphs of maps
-/

variable {nodes : List (Label × Node)} {inputs : List Input}

/-- The edges between the labels of a map: from a label to what its node refers to, unless that
is the label itself or not in the map. -/
def HasEdge (nodes : List (Label × Node)) (l c : Label) : Prop :=
  exists n, (l, n) ∈ nodes ∧ c ∈ n.children ∧ c ∈ nodes.map Prod.fst ∧ c ≠ l

theorem labels_ofNodes (nodes : List (Label × Node)) (inputs : List Input) :
    (ofNodes nodes inputs).labels = (nodes.mergeSort fun a b => a.1 ≤ b.1).map Prod.fst := by
  unfold labels ofNodes
  rw [List.map_map]
  rfl

theorem labels_ofNodes_perm (nodes : List (Label × Node)) (inputs : List Input) :
    (ofNodes nodes inputs).labels.Perm (nodes.map Prod.fst) := by
  rw [labels_ofNodes]
  exact (List.mergeSort_perm _ _).map Prod.fst

theorem labels_ofNodes_pairwise (hmap : (nodes.map Prod.fst).Nodup) :
    (ofNodes nodes inputs).labels.Pairwise (· < ·) := by
  have hsorted : (ofNodes nodes inputs).labels.Pairwise (· ≤ ·) := by
    rw [labels_ofNodes, List.pairwise_map]
    refine (List.pairwise_mergeSort ?_ ?_ nodes).imp ?_
    · intro a b c hab hbc
      rw [decide_eq_true_eq] at hab hbc ⊢
      exact UInt32.le_trans hab hbc
    · intro a b
      rw [Bool.or_eq_true, decide_eq_true_eq, decide_eq_true_eq]
      exact UInt32.le_total a.1 b.1
    · intro a b hab
      exact decide_eq_true_eq.mp hab
  have hdistinct := (labels_ofNodes_perm nodes inputs).nodup_iff.mpr hmap
  refine (hsorted.and hdistinct).imp ?_
  intro a b hab
  exact UInt32.lt_of_le_of_ne hab.1 hab.2

theorem mem_targets_ofNodes (hmap : (nodes.map Prod.fst).Nodup) {c : Label} :
    c ∈ (ofNodes nodes inputs).targets l <-> HasEdge nodes l c := by
  have hperm := labels_ofNodes_perm nodes inputs
  rw [mem_targets (hperm.nodup_iff.mpr hmap), hperm.mem_iff]
  constructor
  · intro hc
    rcases hc with ⟨n, hn, rfl, hc⟩
    rcases List.mem_map.mp hn with ⟨⟨k, node⟩, hentry, rfl⟩
    exact ⟨node, (List.mergeSort_perm _ _).mem_iff.mp hentry, hc⟩
  · intro hc
    rcases hc with ⟨n, hn, hc⟩
    exact ⟨⟨l, n, pathOf inputs n⟩,
      List.mem_map.mpr ⟨(l, n), (List.mergeSort_perm _ _).mem_iff.mpr hn, rfl⟩, rfl, hc⟩

theorem edge_targets_ofNodes (hmap : (nodes.map Prod.fst).Nodup) :
    Graph.Edge (ofNodes nodes inputs).targets = HasEdge nodes := by
  funext l c
  exact propext (mem_targets_ofNodes hmap)

theorem onCycle_ofNodes_iff (hmap : (nodes.map Prod.fst).Nodup) :
    Graph.OnCycle (ofNodes nodes inputs).targets l <-> Relation.TransGen (HasEdge nodes) l l := by
  unfold Graph.OnCycle
  rw [edge_targets_ofNodes hmap]

theorem HasEdge.mem (h : HasEdge nodes l m) :
    l ∈ nodes.map Prod.fst ∧ m ∈ nodes.map Prod.fst := by
  rcases h with ⟨n, hn, _, hm, _⟩
  exact ⟨List.mem_map_of_mem hn, hm⟩

theorem HasEdge.ne (h : HasEdge nodes l m) : l ≠ m := by
  rcases h with ⟨n, _, _, _, hne⟩
  exact hne.symm

theorem closed_ofNodes (inputs : List Input) (hmap : (nodes.map Prod.fst).Nodup) :
    Closed (ofNodes nodes inputs).targets (ofNodes nodes inputs).labels := by
  intro l m _ hm
  rw [(labels_ofNodes_perm nodes inputs).mem_iff]
  exact ((mem_targets_ofNodes hmap).mp hm).mem.2

/-!
## Components
-/

/-- The components of several labels, which keep a graph from being ordered. -/
def tangled (g : TaintGraph) : List (List Label) :=
  let core := (Graph.core g.targets (finishOrder g.targets g.labels).reverse).reverse
  (Graph.componentsOf g.targets core.length core).filter fun c => 1 < c.length

theorem topological_eq_ok_iff {order : List Label} :
    g.topological = .ok order <->
      g.tangled = [] ∧ order = finishOrder g.targets g.labels := by
  have hunfold : g.topological = if g.tangled.isEmpty then
      .ok (finishOrder g.targets g.labels)
    else .error ⟨g.tangled.map fun c => (g.nodes.filter fun n => n.label ∈ c).reverse⟩ := rfl
  rw [hunfold]
  split
  · rename_i hempty
    rw [List.isEmpty_iff] at hempty
    constructor
    · intro hok
      cases hok
      exact ⟨hempty, rfl⟩
    · intro hok
      rw [hok.2]
  · rename_i hsome
    rw [List.isEmpty_iff] at hsome
    constructor
    · intro hok
      cases hok
    · intro hok
      exact absurd hok.1 hsome

/-- Two labels that reach each other make a component of several labels. -/
theorem tangled_eq_nil_iff (hclosed : Closed g.targets g.labels)
    (hlabels : forall l m, m ∈ g.targets l -> l ∈ g.labels ∧ l ≠ m) :
    g.tangled = [] <-> forall l, ¬ Graph.OnCycle g.targets l := by
  have hmem : forall l, l ∈ (finishOrder g.targets g.labels).reverse <-> l ∈ g.labels := by
    intro l
    rw [List.mem_reverse]
    exact (finishOrder_lists hclosed).2 l
  have hcore : Graph.IsCore g.targets (finishOrder g.targets g.labels).reverse
      (Graph.core g.targets (finishOrder g.targets g.labels).reverse) := by
    apply Graph.core_isCore
    intro l m hl hedge
    rw [hmem] at hl ⊢
    exact hclosed l m hl hedge
  constructor
  · intro hnil l hl
    rcases hl.exists_edge with ⟨m, hedge, hback, hm⟩
    have hin : forall k, Graph.OnCycle g.targets k ->
        k ∈ (Graph.core g.targets (finishOrder g.targets g.labels).reverse).reverse := by
      intro k hk
      rcases hk.exists_edge with ⟨k', hk', _⟩
      rw [List.mem_reverse]
      exact hcore.covers k ((hmem k).mpr (hlabels k k' hk').1) hk
    rcases Graph.exists_mem_componentsOf _ (Nat.le_refl _) (hin l hl) with ⟨c, hc, hlc, hall⟩
    have hmc := hall m (hin m hm) (.single hedge) hback
    have hlength : 1 < c.length := by
      have hpair : [l, m].Nodup := by simpa using (hlabels l m hedge).2
      exact (List.subperm_of_subset hpair (by simp [hlc, hmc])).length_le
    have hcomponent : c ∈ g.tangled := List.mem_filter.mpr ⟨hc, by simpa using hlength⟩
    rw [hnil] at hcomponent
    cases hcomponent
  · intro hacyclic
    unfold tangled
    rw [Graph.eq_nil_of_forall_exists_edge hacyclic hcore.edges]
    rfl

theorem topological_ok_iff (hmap : (nodes.map Prod.fst).Nodup) {order : List Label} :
    (ofNodes nodes inputs).topological = .ok order <->
      (forall l, ¬ Relation.TransGen (HasEdge nodes) l l) ∧
        order = finishOrder (ofNodes nodes inputs).targets (ofNodes nodes inputs).labels := by
  rw [topological_eq_ok_iff, tangled_eq_nil_iff (closed_ofNodes inputs hmap)]
  · exact and_congr_left' (forall_congr' fun l => not_congr (onCycle_ofNodes_iff hmap))
  · intro l m hm
    rw [(labels_ofNodes_perm nodes inputs).mem_iff]
    have hedge := (mem_targets_ofNodes hmap).mp hm
    exact ⟨hedge.mem.1, hedge.ne⟩

/-- Whether the nodes of a map refer to smaller labels only. -/
def Descending (nodes : List (Label × Node)) : Prop :=
  forall l n c, (l, n) ∈ nodes -> c ∈ n.children -> c < l

theorem Descending.not_onCycle (h : Descending nodes) (l : Label) :
    ¬ Relation.TransGen (HasEdge nodes) l l := by
  have hless : forall a b, Relation.TransGen (HasEdge nodes) a b -> b < a := by
    intro a b hab
    induction hab with
    | single hedge =>
        rcases hedge with ⟨n, hn, hc, _⟩
        exact h _ n _ hn hc
    | tail _ hedge ih =>
        rcases hedge with ⟨n, hn, hc, _⟩
        exact UInt32.lt_trans (h _ n _ hn hc) ih
  intro hl
  exact UInt32.lt_irrefl l (hless l l hl)

theorem finishOrder_ofNodes_descending (hmap : (nodes.map Prod.fst).Nodup)
    (h : Descending nodes) :
    finishOrder (ofNodes nodes inputs).targets (ofNodes nodes inputs).labels =
      (ofNodes nodes inputs).labels.reverse := by
  rw [finishOrder, foldl_visit_descending (labels_ofNodes_pairwise hmap), List.append_nil]
  · intro c _
    exact LabelSet.has_empty c
  · intro c m hc hm
    rcases (mem_targets_ofNodes hmap).mp hm with ⟨n, hn, hchild, _⟩
    exact ⟨h c n m hn hchild, Or.inl (closed_ofNodes inputs hmap c m hc hm)⟩

/-- The nodes of a trace without problems refer to smaller labels only. -/
theorem descending_of_consistent {t : Trace} (ht : t.Consistent)
    (hnodes : forall l n, (l, n) ∈ nodes -> t.HasLabel l ∧ t.decode l = .ok n) :
    Descending nodes := by
  intro l n c hn hc
  rcases hnodes l n hn with ⟨hl, hdecode⟩
  rcases ht.nodes l hl.mem_labels with ⟨n', hn', hfits⟩
  rw [hdecode] at hn'
  cases hn'
  exact (hfits.children c hc).2

/-- The labels of a map of nodes can be ordered exactly if its edges make no cycle.  Then each
label is listed once, and before all labels that it has an edge to.  If nodes refer to smaller
labels only, as those of a trace without problems do, the order is that of decreasing labels. -/
theorem topological_exact (nodes : List (Label × Node)) (inputs : List Input)
    (hmap : (nodes.map Prod.fst).Nodup) :
    ((exists u, (ofNodes nodes inputs).topological = .error u) <->
      exists l, Relation.TransGen (HasEdge nodes) l l) ∧
    (forall order, (ofNodes nodes inputs).topological = .ok order ->
      order.Nodup ∧ (forall l, l ∈ order <-> l ∈ nodes.map Prod.fst) ∧
      forall l c, HasEdge nodes l c -> [l, c].Sublist order) ∧
    (Descending nodes ->
      exists order, (ofNodes nodes inputs).topological = .ok order ∧
        (forall l, l ∈ order <-> l ∈ nodes.map Prod.fst) ∧ order.Pairwise (· > ·)) ∧
    forall t : Trace, (t.problems 0).run t = [] ->
      (forall l n, (l, n) ∈ nodes -> t.HasLabel l ∧ t.decode l = .ok n) -> Descending nodes := by
  have hperm := labels_ofNodes_perm nodes inputs
  have hclosed := closed_ofNodes inputs hmap
  refine ⟨?_, ?_, ?_, ?_⟩
  · cases htopological : (ofNodes nodes inputs).topological with
    | ok order =>
        have hacyclic := ((topological_ok_iff hmap).mp htopological).1
        refine iff_of_false ?_ ?_
        · intro herror
          rcases herror with ⟨u, hu⟩
          cases hu
        · intro hcycle
          rcases hcycle with ⟨l, hl⟩
          exact hacyclic l hl
    | error u =>
        refine iff_of_true ⟨u, rfl⟩ ?_
        by_contra hnone
        rw [not_exists] at hnone
        rw [(topological_ok_iff hmap).mpr ⟨hnone, rfl⟩] at htopological
        cases htopological
  · intro order hok
    rcases (topological_ok_iff hmap).mp hok with ⟨hacyclic, rfl⟩
    rcases finishOrder_lists hclosed with ⟨hnodup, hlists⟩
    have hordered := finishOrder_ordered hclosed
      fun l hl => hacyclic l ((onCycle_ofNodes_iff hmap).mp hl)
    refine ⟨hnodup, fun l => (hlists l).trans hperm.mem_iff, ?_⟩
    intro l c hedge
    exact hordered.sublist ((hlists l).mpr (hperm.mem_iff.mpr hedge.mem.1))
      ((mem_targets_ofNodes hmap).mpr hedge)
  · intro hdescending
    refine ⟨_, (topological_ok_iff hmap).mpr ⟨hdescending.not_onCycle, rfl⟩, ?_⟩
    rw [finishOrder_ofNodes_descending hmap hdescending]
    refine ⟨?_, List.pairwise_reverse.mpr (labels_ofNodes_pairwise hmap)⟩
    intro l
    rw [List.mem_reverse]
    exact hperm.mem_iff
  · intro t hcheck hnodes
    exact descending_of_consistent (Validity.problems_eq_nil_iff.mp hcheck) hnodes

/-- Labels two and three refer to each other, and two to itself as well. -/
def loop : List (Label × Node) :=
  [(3, ⟨.union 2 9, false⟩), (2, ⟨.union 3 2, true⟩)]

/-- Label five refers to two and to labels that are left out. -/
def ladder : List (Label × Node) :=
  [(5, ⟨.range 1 4, false⟩), (2, ⟨.source 0 0, false⟩), (7, ⟨.union 5 2, false⟩)]

theorem descending_ladder : Descending ladder := by
  intro l n c hn hc
  simp only [ladder, List.mem_cons, List.not_mem_nil, or_false, Prod.mk.injEq] at hn
  rcases hn with ⟨rfl, rfl⟩ | ⟨rfl, rfl⟩ | ⟨rfl, rfl⟩
  · rw [Node.mem_children_range] at hc
    exact UInt32.lt_iff_toNat_lt.mpr (Nat.lt_succ_of_le hc.2)
  · cases hc
  · rw [Node.children_union, List.mem_pair] at hc
    rcases hc with rfl | rfl <;> decide

theorem topological_exact_loop_ladder :
    (exists u, (ofNodes loop []).topological = .error u) ∧
      exists order, (ofNodes ladder []).topological = .ok order ∧ [7, 5].Sublist order ∧
        order.Pairwise (· > ·) := by
  rcases topological_exact loop [] (by decide) with ⟨hfails, _⟩
  rcases topological_exact ladder [] (by decide) with ⟨_, hlists, hdescending, _⟩
  constructor
  · rw [hfails]
    have hforth : HasEdge loop 2 3 :=
      ⟨⟨.union 3 2, true⟩, by decide, by decide, by decide, by decide⟩
    have hback : HasEdge loop 3 2 :=
      ⟨⟨.union 2 9, false⟩, by decide, by decide, by decide, by decide⟩
    exact ⟨2, .head hforth (.single hback)⟩
  · rcases hdescending descending_ladder with ⟨order, hok, _, hdecreasing⟩
    have hedge : HasEdge ladder 7 5 :=
      ⟨⟨.union 5 2, false⟩, by decide, by decide, by decide, by decide⟩
    exact ⟨order, hok, (hlists order hok).2.2 7 5 hedge, hdecreasing⟩

end TaintGraph
end TaintTrace
