import Mathlib
import TaintTrace.Proofs.Component
import TaintTrace.Proofs.Cycle
import TaintTrace.Proofs.Validity

/-!
# The cycles of a trace

The cycles of a trace are searched for among the labels that may be on one, if there are
any.  An elementary cycle has only labels on cycles, so every search among labels that
include those finds the same cycles in the same order, whatever else it includes.
-/

namespace TaintTrace

/-!
## Chains of edges
-/

section

variable {R : Label -> Label -> Prop}

/-- Steps from one label to another can be taken without coming to a label twice. -/
theorem exists_nodup_chain {a b : Label} (h : Relation.ReflTransGen R a b) :
    exists vs, (a :: vs).Nodup ∧ (a :: vs).IsChain R ∧ (a :: vs).getLast? = some b := by
  induction h using Relation.ReflTransGen.head_induction_on with
  | refl => exact ⟨[], List.nodup_singleton b, List.isChain_singleton b, rfl⟩
  | @head a c hstep _ ih =>
      rcases ih with ⟨vs, hnodup, hchain, hlast⟩
      by_cases ha : a ∈ c :: vs
      · -- The way from `c` comes back to `a`: begin there instead.
        rcases List.append_of_mem ha with ⟨front, rest, hsplit⟩
        rw [hsplit] at hnodup hchain hlast
        rw [List.getLast?_append_cons] at hlast
        exact ⟨rest, (List.nodup_append.mp hnodup).2.1, hchain.right_of_append, hlast⟩
      · refine ⟨c :: vs, List.nodup_cons.mpr ⟨ha, hnodup⟩, ?_, ?_⟩
        · exact List.isChain_cons_cons.mpr ⟨hstep, hchain⟩
        · rw [List.getLast?_cons_cons]
          exact hlast

theorem transGen_of_mem_closed_chain {first v : Label} {vs : List Label}
    (hchain : (first :: (vs ++ [first])).IsChain R) (hv : v ∈ first :: (vs ++ [first])) :
    Relation.TransGen R v v := by
  have hto : Relation.ReflTransGen R first v :=
    hchain.induction (Relation.ReflTransGen R first) _
      (fun _ _ hstep hpath => hpath.tail hstep) (fun _ => Relation.ReflTransGen.refl) v hv
  have hback : forall w, w ∈ first :: (vs ++ [first]) -> Relation.ReflTransGen R w first :=
    hchain.backwards_induction (fun w => Relation.ReflTransGen R w first) _
      (fun _ _ hstep hpath => hpath.head hstep) (by simp [Relation.ReflTransGen.refl])
  have hloop : Relation.TransGen R first first := by
    cases hrest : vs ++ [first] with
    | nil => simp at hrest
    | cons w ws =>
        rw [hrest] at hchain hback
        exact Relation.TransGen.head' (List.isChain_cons_cons.mp hchain).1 (hback w (by simp))
  exact (Relation.TransGen.trans_right (hback v hv) hloop).trans_left hto

end

/-!
## Elementary cycles
-/

namespace Trace

variable {t : Trace} {l : Label} {c : LabelGraph.Cycle}

/-- Whether a label can reach itself through one or more edges. -/
def OnCycle (t : Trace) (l : Label) : Prop :=
  Relation.TransGen t.Refers l l

/-- An elementary cycle from its smallest label back to it, over any labels of a trace. -/
def IsElementaryCycle (t : Trace) (c : LabelGraph.Cycle) : Prop :=
  exists first vs, c = first :: (vs ++ [first]) ∧ (first :: vs).Nodup ∧
    (forall v, v ∈ vs -> first < v) ∧ c.IsChain t.Refers

theorem IsElementaryCycle.onCycle (h : t.IsElementaryCycle c) (hl : l ∈ c) : t.OnCycle l := by
  rcases h with ⟨first, vs, rfl, _, _, hchain⟩
  exact transGen_of_mem_closed_chain hchain hl

theorem IsElementaryCycle.exists_mem (h : t.IsElementaryCycle c) : exists l, l ∈ c := by
  rcases h with ⟨first, vs, rfl, _⟩
  exact ⟨first, List.mem_cons_self⟩

theorem OnCycle.exists_isElementaryCycle (h : t.OnCycle l) : exists c, t.IsElementaryCycle c := by
  rcases (measure UInt32.toNat).wf.has_min {m | t.OnCycle m} ⟨l, h⟩ with ⟨first, hfirst, hmin⟩
  rcases Relation.TransGen.head'_iff.mp hfirst with ⟨m, hstep, hpath⟩
  rcases exists_nodup_chain hpath with ⟨ws, hnodup, hchain, hlast⟩
  rcases List.getLast?_eq_some_iff.mp hlast with ⟨vs, hvs⟩
  rw [hvs] at hnodup hchain
  have hcycle : (first :: (vs ++ [first])).IsChain t.Refers := by
    rw [← hvs, List.isChain_cons_cons, hvs]
    exact ⟨hstep, hchain⟩
  have hnot : first ∉ vs := fun hmem =>
    (List.nodup_append.mp hnodup).2.2 first hmem first (List.mem_singleton_self first) rfl
  refine ⟨_, first, vs, rfl, List.nodup_cons.mpr ⟨hnot, (List.nodup_append.mp hnodup).1⟩, ?_,
    hcycle⟩
  intro v hv
  have hv' : t.OnCycle v :=
    transGen_of_mem_closed_chain hcycle (List.mem_cons_of_mem first (List.mem_append_left _ hv))
  have hle : first ≤ v := UInt32.le_iff_toNat_le.mpr (Nat.not_lt.mp (hmin v hv'))
  refine UInt32.lt_of_le_of_ne hle ?_
  rintro rfl
  exact hnot hv

theorem exists_isElementaryCycle_iff :
    (exists c, t.IsElementaryCycle c) <-> exists l, t.OnCycle l := by
  constructor
  · rintro ⟨c, hc⟩
    rcases hc.exists_mem with ⟨l, hl⟩
    exact ⟨l, hc.onCycle hl⟩
  · rintro ⟨l, hl⟩
    exact hl.exists_isElementaryCycle

end Trace

/-!
## Searches among some labels
-/

namespace LabelGraph

variable {g g' : LabelGraph} {t : Trace} {included included' : List Label} {c : Cycle}

theorem InducedBy.isElementary_iff (h : g.InducedBy t included)
    (hcovers : forall l, t.OnCycle l -> l ∈ included) :
    g.IsElementary c <-> t.IsElementaryCycle c := by
  constructor
  · rintro ⟨first, vs, hc⟩
    refine ⟨first, vs, hc.eq, hc.nodup, hc.least, hc.edges.imp ?_⟩
    intro l m hedge
    exact ((h.edge_iff l m).mp hedge).2.2
  · intro hc
    have hincluded : forall l, l ∈ c -> l ∈ included := fun l hl => hcovers l (hc.onCycle hl)
    rcases hc with ⟨first, vs, heq, hnodup, hleast, hchain⟩
    refine ⟨first, vs, heq, hnodup, hleast, hchain.imp_of_mem_imp ?_⟩
    intro l m hl hm hstep
    exact (h.edge_iff l m).mpr ⟨hincluded l hl, hincluded m hm, hstep⟩

theorem InducedBy.elementaryCycles_adds (h : g.InducedBy t included)
    (hcovers : forall l, t.OnCycle l -> l ∈ included) (limit : Int) :
    exists s, CycleSearch.Adds t.IsElementaryCycle (CycleSearch.start limit) s
      (g.elementaryCycles limit) := by
  rcases LabelGraph.elementaryCycles_adds h limit with ⟨s, hadds⟩
  exact ⟨s, hadds.congr fun c => h.isElementary_iff hcovers⟩

theorem InducedBy.elementaryCycles_eq (h : g.InducedBy t included)
    (h' : g'.InducedBy t included') (hcovers : forall l, t.OnCycle l -> l ∈ included)
    (hcovers' : forall l, t.OnCycle l -> l ∈ included') (limit : Int) :
    g.elementaryCycles limit = g'.elementaryCycles limit := by
  rcases h.elementaryCycles_adds hcovers limit with ⟨s, hadds⟩
  rcases h'.elementaryCycles_adds hcovers' limit with ⟨s', hadds'⟩
  exact hadds.unique hadds'

/-- A limit does not keep the first cycle from being found. -/
theorem InducedBy.elementaryCycles_eq_nil_iff (h : g.InducedBy t included)
    (hcovers : forall l, t.OnCycle l -> l ∈ included) (limit : Int) :
    g.elementaryCycles limit = [] <-> forall l, ¬ t.OnCycle l := by
  rcases h.elementaryCycles_adds hcovers limit with ⟨s, hadds⟩
  rw [← not_exists, ← Trace.exists_isElementaryCycle_iff]
  constructor
  · rintro hnil ⟨c, hc⟩
    rw [hnil] at hadds
    rcases hadds.complete c hc with hmem | ⟨hfull, _⟩
    · cases hmem
    · rw [CycleSearch.full_iff, hadds.room, CycleSearch.start] at hfull
      split at hfull
      · simp only [Option.map_some, List.length_nil, Option.some.injEq] at hfull
        omega
      · cases hfull
  · intro hnone
    rw [List.eq_nil_iff_forall_not_mem]
    intro c hc
    exact hnone ⟨c, hadds.sound c hc⟩

end LabelGraph

/-!
## The search of a trace
-/

namespace Trace

variable {t : Trace}

theorem OnCycle.mem_labels {l : Label} (h : t.OnCycle l) : l ∈ t.labels := by
  rcases Relation.TransGen.head'_iff.mp h with ⟨m, hstep, _⟩
  exact HasLabel.mem_labels hstep.1

theorem graph_run (t : Trace) :
    (t.graph).run t = ⟨t.labelCount, (t.edgesOf t.labels).run t⟩ := by
  rw [graph, Lookup.run, Lookup.answer_bind]
  rfl

theorem edge_graph_iff {l m : Label} :
    Graph.Edge ((t.graph).run t).next l m <-> t.Refers l m := by
  rw [graph_run]
  refine (mem_edgesOf t t.labels l m).trans ⟨And.right, fun hstep => ⟨?_, hstep⟩⟩
  exact HasLabel.mem_labels hstep.1

theorem onCycle_graph_iff {l : Label} :
    Graph.OnCycle ((t.graph).run t).next l <-> t.OnCycle l := by
  have hedge : Graph.Edge ((t.graph).run t).next = t.Refers :=
    funext fun l => funext fun m => propext edge_graph_iff
  rw [Graph.OnCycle, hedge, OnCycle]

theorem graph_closed : ((t.graph).run t).Closed := by
  have hvertex : forall l : Label, l.toNat < t.labelCount -> l ∈ ((t.graph).run t).vertices := by
    intro l hl
    rw [graph_run]
    exact List.mem_map.mpr ⟨l.toNat, List.mem_range.mpr hl, UInt32.ofNat_toNat⟩
  intro l m hedge
  have hstep := edge_graph_iff.mp hedge
  exact ⟨hvertex l hstep.1.2, hvertex m hstep.2.2.2⟩

theorem isAcyclic_graph_iff :
    ((t.graph).run t).isAcyclic = true <-> forall l, ¬ t.OnCycle l := by
  rw [graph_closed.isAcyclic_iff]
  exact forall_congr' fun l => not_congr onCycle_graph_iff

theorem mem_cyclicLabels_graph {l : Label} (h : t.OnCycle l) :
    l ∈ ((t.graph).run t).cyclicLabels :=
  graph_closed.mem_cyclicLabels (onCycle_graph_iff.mpr h)

theorem cycles_run (t : Trace) (limit : Int) :
    (t.cycles limit).run t =
      if ((t.graph).run t).isAcyclic then []
      else ((LabelGraph.ofTrace t ((t.graph).run t).cyclicLabels).run t).elementaryCycles
        limit := by
  rw [cycles, Lookup.run, Lookup.answer_bind, apply_ite (Lookup.answer t.decode),
    Lookup.answer_bind]
  rfl

theorem cycles_eq_nil_iff (t : Trace) (limit : Int) :
    (t.cycles limit).run t = [] <-> forall l, ¬ t.OnCycle l := by
  rw [cycles_run]
  split
  · rename_i hacyclic
    exact iff_of_true rfl (isAcyclic_graph_iff.mp hacyclic)
  · exact (LabelGraph.ofTrace_inducedBy t _).elementaryCycles_eq_nil_iff
      (fun l => mem_cyclicLabels_graph) limit

/-- A search among the labels that may be on cycles loses none: it gives what a search among
all labels gives, and so does one among any labels that include those on cycles.  The test
that no label can reach itself is exact, and then and only then nothing is found. -/
theorem cycles_eq_elementaryCycles_labels (t : Trace) (limit : Int) :
    (t.cycles limit).run t = ((LabelGraph.ofTrace t t.labels).run t).elementaryCycles limit ∧
    ((t.cycles limit).run t = [] <-> ¬ exists l, Relation.TransGen t.Refers l l) ∧
    (((t.graph).run t).isAcyclic = true <-> ¬ exists l, Relation.TransGen t.Refers l l) ∧
    forall kept, (forall l, Relation.TransGen t.Refers l l -> l ∈ kept) ->
      ((LabelGraph.ofTrace t kept).run t).elementaryCycles limit =
        ((LabelGraph.ofTrace t t.labels).run t).elementaryCycles limit := by
  have hkept : forall kept, (forall l, t.OnCycle l -> l ∈ kept) ->
      ((LabelGraph.ofTrace t kept).run t).elementaryCycles limit =
        ((LabelGraph.ofTrace t t.labels).run t).elementaryCycles limit := by
    intro kept hcovers
    exact (LabelGraph.ofTrace_inducedBy t kept).elementaryCycles_eq
      (LabelGraph.ofTrace_inducedBy t t.labels) hcovers (fun l => OnCycle.mem_labels) limit
  rw [not_exists]
  refine ⟨?_, cycles_eq_nil_iff t limit, isAcyclic_graph_iff, hkept⟩
  rw [cycles_run]
  split
  · rename_i hacyclic
    have hnone := isAcyclic_graph_iff.mp hacyclic
    exact (((LabelGraph.ofTrace_inducedBy t t.labels).elementaryCycles_eq_nil_iff
      (fun l => OnCycle.mem_labels) limit).mpr hnone).symm
  · exact hkept _ fun l => mem_cyclicLabels_graph

theorem cycles_eq_elementaryCycles_labels_tangle :
    (LabelGraph.tangle.cycles 2).run LabelGraph.tangle ≠ [] ∧
      (LabelGraph.tangle.cycles 2).run LabelGraph.tangle =
        ((LabelGraph.ofTrace LabelGraph.tangle [5, 4, 3, 2, 9, 2]).run
          LabelGraph.tangle).elementaryCycles 2 := by
  rcases cycles_eq_elementaryCycles_labels LabelGraph.tangle 2 with ⟨hall, hnil, _, hkept⟩
  have hcovers : forall l, Relation.TransGen LabelGraph.tangle.Refers l l ->
      l ∈ [5, 4, 3, 2, 9, 2] := by
    intro l hl
    rcases Relation.TransGen.head'_iff.mp hl with ⟨m, ⟨⟨hzero, hlt⟩, ⟨n, hn, hm⟩, _⟩, _⟩
    have hone : l.toNat ≠ 1 := by
      intro hone
      rw [UInt32.toNat_inj (b := 1) |>.mp hone] at hn
      cases hn
      cases hm
    have hzero' : l.toNat ≠ 0 := fun h => hzero (UInt32.toNat_inj.mp h)
    have hcases : l.toNat = 2 ∨ l.toNat = 3 ∨ l.toNat = 4 ∨ l.toNat = 5 := by
      change l.toNat < 6 at hlt
      omega
    rw [← UInt32.ofNat_toNat (x := l)]
    rcases hcases with h | h | h | h <;> rw [h] <;> decide
  refine ⟨?_, hall.trans (hkept _ hcovers).symm⟩
  rw [ne_eq, hnil, not_not]
  exact ⟨4, Relation.TransGen.single LabelGraph.tangle_refers.1⟩

end Trace
end TaintTrace
