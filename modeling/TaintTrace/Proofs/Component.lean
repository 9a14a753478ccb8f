import Mathlib
import TaintTrace.Graph.Component
import TaintTrace.Proofs.Reach

/-!
# Labels on cycles

A label is on a cycle if it can be reached from itself along at least one edge.  Grounding
labels until nothing changes leaves a core that has all of them, and that is empty if there
are none.  Each of them is in a component with another label, or has an edge to itself.
-/

namespace TaintTrace
namespace Graph

variable {next : Label -> List Label} {vs ls : List Label} {l m : Label} {grounded : LabelSet}

def OnCycle (next : Label -> List Label) (l : Label) : Prop :=
  Relation.TransGen (Edge next) l l

theorem OnCycle.exists_edge (h : OnCycle next l) :
    exists m, Edge next l m ∧ Path next m l ∧ OnCycle next m := by
  rcases Relation.TransGen.head'_iff.mp h with ⟨m, hedge, hpath⟩
  exact ⟨m, hedge, hpath, Relation.TransGen.tail' hpath hedge⟩

theorem eq_nil_of_forall_exists_edge (hacyclic : forall l, ¬ OnCycle next l)
    (hedges : forall l, l ∈ ls -> exists m, Edge next l m ∧ m ∈ ls) : ls = [] := by
  have htrans : IsTrans Label fun l m => Relation.TransGen (Edge next) m l :=
    ⟨fun _ _ _ hba hcb => hcb.trans hba⟩
  have hirrefl : Std.Irrefl fun l m => Relation.TransGen (Edge next) m l := ⟨hacyclic⟩
  have hwf := Finite.wellFounded_of_trans_of_irrefl fun l m => Relation.TransGen (Edge next) m l
  by_contra hne
  rcases hwf.has_min {l | l ∈ ls} (List.exists_mem_of_ne_nil ls hne) with ⟨l, hl, hmin⟩
  rcases hedges l hl with ⟨m, hedge, hm⟩
  exact hmin m hm (Relation.TransGen.single hedge)

/-!
## Grounding
-/

/-- What one pass does to the labels it goes over. -/
structure Passed (next : Label -> List Label) (ls : List Label) (grounded : LabelSet)
    (r : List Label × LabelSet) : Prop where
  sublist : r.1.Sublist ls
  grown : forall m, grounded.has m = true -> r.2.has m = true
  split : forall m, m ∈ ls -> m ∈ r.1 ∨ r.2.has m = true
  sound : (forall m, grounded.has m = true -> ¬ OnCycle next m) ->
    forall m, r.2.has m = true -> ¬ OnCycle next m
  stuck : r.1.length = ls.length ->
    forall m, m ∈ ls -> exists c, Edge next m c ∧ grounded.has c = false

theorem groundPass_passed (next : Label -> List Label) (ls : List Label) (grounded : LabelSet) :
    Passed next ls grounded (groundPass next ls grounded) := by
  induction ls generalizing grounded with
  | nil =>
      refine ⟨List.Sublist.refl _, fun _ hm => hm, ?_, fun h => h, ?_⟩
      · intro m hm
        cases hm
      · intro _ m hm
        cases hm
  | cons l ls ih =>
      rw [groundPass]
      split
      · rename_i hall
        rw [List.all_eq_true] at hall
        have hrest := ih (grounded.insert l)
        have hgrown : forall m, grounded.has m = true ->
            (groundPass next ls (grounded.insert l)).2.has m = true :=
          fun m hm => hrest.grown m (LabelSet.has_insert_iff.mpr (Or.inr hm))
        refine ⟨hrest.sublist.cons l, hgrown, ?_, ?_, ?_⟩
        · intro m hm
          cases List.mem_cons.mp hm with
          | inl heq => exact Or.inr (hrest.grown m (LabelSet.has_insert_iff.mpr (Or.inl heq)))
          | inr hm => exact hrest.split m hm
        · intro hsound
          refine hrest.sound ?_
          intro m hm hcycle
          cases LabelSet.has_insert_iff.mp hm with
          | inl heq =>
              -- A cycle through the label would go on to a label that is grounded.
              rcases hcycle.exists_edge with ⟨c, hedge, _, hc⟩
              rw [heq] at hedge
              exact hsound c (hall c hedge) hc
          | inr hm => exact hsound m hm hcycle
        · intro hlength
          have hle := hrest.sublist.length_le
          rw [List.length_cons] at hlength
          omega
      · rename_i hsome
        rw [List.all_eq_true, not_forall] at hsome
        rcases hsome with ⟨c, hc⟩
        rw [Classical.not_imp, Bool.not_eq_true] at hc
        have hrest := ih grounded
        dsimp only
        refine ⟨hrest.sublist.cons_cons l, hrest.grown, ?_, hrest.sound, ?_⟩
        · intro m hm
          cases List.mem_cons.mp hm with
          | inl heq => exact Or.inl (List.mem_cons.mpr (Or.inl heq))
          | inr hm => exact (hrest.split m hm).imp_left (List.mem_cons_of_mem l)
        · intro hlength
          rw [List.forall_mem_cons]
          exact ⟨⟨c, hc⟩, hrest.stuck (Nat.succ.inj hlength)⟩

/-- The labels left over and the grounded ones, in the middle of the passes. -/
structure Grounding (next : Label -> List Label) (vs ls : List Label) (grounded : LabelSet) :
    Prop where
  among : ls ⊆ vs
  covers : forall m, m ∈ vs -> m ∈ ls ∨ grounded.has m = true
  sound : forall m, grounded.has m = true -> ¬ OnCycle next m

theorem Grounding.mem_of_onCycle (h : Grounding next vs ls grounded) (hm : m ∈ vs)
    (hcycle : OnCycle next m) : m ∈ ls :=
  (h.covers m hm).resolve_right fun hgrounded => h.sound m hgrounded hcycle

/-- The core of some labels: those on cycles are in it, and an edge leads from each of its
labels to one of them. -/
structure IsCore (next : Label -> List Label) (vs core : List Label) : Prop where
  covers : forall m, m ∈ vs -> OnCycle next m -> m ∈ core
  edges : forall m, m ∈ core -> exists c, Edge next m c ∧ c ∈ core

theorem groundAll_isCore (hclosed : forall l m, l ∈ vs -> Edge next l m -> m ∈ vs) (fuel : Nat)
    (hfuel : ls.length ≤ fuel) (h : Grounding next vs ls grounded) :
    IsCore next vs (groundAll next fuel ls grounded) := by
  induction fuel generalizing ls grounded with
  | zero =>
      have hnil : ls = [] := List.length_eq_zero_iff.mp (Nat.le_zero.mp hfuel)
      subst hnil
      refine ⟨fun _ => h.mem_of_onCycle, ?_⟩
      intro m hm
      cases hm
  | succ fuel ih =>
      have hpass := groundPass_passed next ls grounded
      rw [groundAll]
      dsimp only
      split
      · rename_i hlength
        rw [hpass.sublist.eq_of_length hlength]
        refine ⟨fun _ => h.mem_of_onCycle, ?_⟩
        intro m hm
        rcases hpass.stuck hlength m hm with ⟨c, hedge, hnew⟩
        refine ⟨c, hedge, (h.covers c (hclosed m c (h.among hm) hedge)).resolve_right ?_⟩
        rw [hnew]
        simp
      · rename_i hlength
        have hle := hpass.sublist.length_le
        refine ih (by omega)
          ⟨fun m hm => h.among (hpass.sublist.subset hm), ?_, hpass.sound h.sound⟩
        intro m hm
        cases h.covers m hm with
        | inl hm => exact hpass.split m hm
        | inr hm => exact Or.inr (hpass.grown m hm)

theorem core_isCore (hclosed : forall l m, l ∈ vs -> Edge next l m -> m ∈ vs) :
    IsCore next vs (core next vs) := by
  refine groundAll_isCore hclosed vs.length (Nat.le_refl _) ⟨List.Subset.refl _, ?_, ?_⟩
  · intro m hm
    exact Or.inl hm
  · intro m hm
    rw [LabelSet.has_empty] at hm
    cases hm

/-!
## Components
-/

theorem mem_componentOf :
    m ∈ componentOf next ls l <-> m ∈ ls ∧ Path next l m ∧ Path next m l := by
  rw [componentOf, List.mem_filter, Bool.and_eq_true, reach_has_iff, reach_has_iff]

theorem mem_cons_componentOf :
    m ∈ l :: componentOf next ls l <-> m ∈ l :: ls ∧ Path next l m ∧ Path next m l := by
  rw [List.mem_cons, List.mem_cons, mem_componentOf]
  constructor
  · rintro (rfl | ⟨hm, hpaths⟩)
    · exact ⟨Or.inl rfl, .refl, .refl⟩
    · exact ⟨Or.inr hm, hpaths⟩
  · rintro ⟨hm, hpaths⟩
    exact hm.imp_right fun hm => ⟨hm, hpaths⟩

theorem mem_filter_componentOf {k : Label} (hl : l ∈ k :: ls)
    (hout : l ∉ k :: componentOf next ls k) (hm : m ∈ k :: ls) (hlm : Path next l m)
    (hml : Path next m l) : m ∈ ls.filter fun w => w ∉ k :: componentOf next ls k := by
  have hout' : m ∉ k :: componentOf next ls k := by
    intro hin
    rcases (mem_cons_componentOf.mp hin).2 with ⟨hkm, hmk⟩
    exact hout (mem_cons_componentOf.mpr ⟨hl, hkm.trans hml, hlm.trans hmk⟩)
  rw [List.mem_filter, decide_eq_true_eq]
  refine ⟨(List.mem_cons.mp hm).resolve_left ?_, hout'⟩
  rintro rfl
  exact hout' List.mem_cons_self

theorem exists_mem_componentsOf (fuel : Nat) (hfuel : ls.length ≤ fuel) (hl : l ∈ ls) :
    exists c, c ∈ componentsOf next fuel ls ∧ l ∈ c ∧
      forall w, w ∈ ls -> Path next l w -> Path next w l -> w ∈ c := by
  induction fuel generalizing ls with
  | zero =>
      rw [List.length_eq_zero_iff.mp (Nat.le_zero.mp hfuel)] at hl
      cases hl
  | succ fuel ih =>
      cases ls with
      | nil => cases hl
      | cons k ls =>
          rw [componentsOf]
          by_cases hfirst : l ∈ k :: componentOf next ls k
          · refine ⟨_, List.mem_cons_self, hfirst, ?_⟩
            rcases (mem_cons_componentOf.mp hfirst).2 with ⟨hkl, hlk⟩
            intro w hw hlw hwl
            exact mem_cons_componentOf.mpr ⟨hw, hkl.trans hlw, hwl.trans hlk⟩
          · have hshort : (ls.filter fun w => w ∉ k :: componentOf next ls k).length ≤ fuel :=
              (List.length_filter_le _ _).trans (Nat.le_of_succ_le_succ hfuel)
            rcases ih hshort (mem_filter_componentOf hl hfirst hl .refl .refl) with
              ⟨c, hc, hlc, hall⟩
            refine ⟨c, List.mem_cons_of_mem _ hc, hlc, ?_⟩
            intro w hw hlw hwl
            exact hall w (mem_filter_componentOf hl hfirst hw hlw hwl) hlw hwl

/-- A component of some labels has exactly those of them that each of its labels reaches and
that reach it. -/
structure IsComponent (next : Label -> List Label) (ls c : List Label) : Prop where
  nodup : c.Nodup
  mem_iff : forall l, l ∈ c -> forall m, m ∈ c <-> m ∈ ls ∧ Path next l m ∧ Path next m l

theorem componentsOf_isComponent {c : List Label} (fuel : Nat) (hls : ls.Nodup)
    (hc : c ∈ componentsOf next fuel ls) : IsComponent next ls c := by
  induction fuel generalizing ls with
  | zero =>
      rw [componentsOf] at hc
      cases hc
  | succ fuel ih =>
      cases ls with
      | nil => cases hc
      | cons k ls =>
          rw [componentsOf] at hc
          rw [List.nodup_cons] at hls
          cases List.mem_cons.mp hc with
          | inl hfirst =>
              subst hfirst
              constructor
              · rw [List.nodup_cons]
                exact ⟨fun hk => hls.1 (mem_componentOf.mp hk).1, hls.2.filter _⟩
              · intro l hl m
                rcases (mem_cons_componentOf.mp hl).2 with ⟨hkl, hlk⟩
                rw [mem_cons_componentOf]
                constructor
                · rintro ⟨hm, hkm, hmk⟩
                  exact ⟨hm, hlk.trans hkm, hmk.trans hkl⟩
                · rintro ⟨hm, hlm, hml⟩
                  exact ⟨hm, hkl.trans hlm, hml.trans hlk⟩
          | inr hc =>
              have hrest := ih (hls.2.filter _) hc
              refine ⟨hrest.nodup, ?_⟩
              intro l hl m
              rw [hrest.mem_iff l hl m]
              have hin := List.mem_filter.mp ((hrest.mem_iff l hl l).mp hl).1
              constructor
              · rintro ⟨hm, hpaths⟩
                exact ⟨List.mem_cons_of_mem k (List.mem_filter.mp hm).1, hpaths⟩
              · rintro ⟨hm, hlm, hml⟩
                exact ⟨mem_filter_componentOf (List.mem_cons_of_mem k hin.1)
                  (of_decide_eq_true hin.2) hm hlm hml, hlm, hml⟩

end Graph

namespace TraceGraph

variable {g : TraceGraph} {l : Label}

/-- Whether edges lead from labels of a graph to labels of it only. -/
def Closed (g : TraceGraph) : Prop :=
  forall l m, Graph.Edge g.next l m -> l ∈ g.vertices ∧ m ∈ g.vertices

theorem Closed.isCore (h : g.Closed) : Graph.IsCore g.next g.vertices g.core :=
  Graph.core_isCore fun l m _ hedge => (h l m hedge).2

theorem Closed.mem_core (h : g.Closed) (hl : Graph.OnCycle g.next l) : l ∈ g.core := by
  rcases hl.exists_edge with ⟨m, hedge, _⟩
  exact h.isCore.covers l (h l m hedge).1 hl

theorem Closed.isAcyclic_iff (h : g.Closed) :
    g.isAcyclic = true <-> forall l, ¬ Graph.OnCycle g.next l := by
  rw [isAcyclic, List.isEmpty_iff]
  constructor
  · intro hcore l hl
    have hmem := h.mem_core hl
    rw [hcore] at hmem
    cases hmem
  · intro hacyclic
    exact Graph.eq_nil_of_forall_exists_edge hacyclic h.isCore.edges

theorem Closed.mem_cyclicLabels (h : g.Closed) (hl : Graph.OnCycle g.next l) :
    l ∈ g.cyclicLabels := by
  rcases Graph.exists_mem_componentsOf g.core.length (Nat.le_refl _) (h.mem_core hl) with
    ⟨c, hc, hlc, hall⟩
  refine List.mem_flatMap.mpr ⟨c, hc, ?_⟩
  match c with
  | [] => cases hlc
  | [k] =>
      -- The label after this one on the cycle is in the component, so it is the same.
      rcases hl.exists_edge with ⟨m, hedge, hpath, hm⟩
      have hmk := hall m (h.mem_core hm) (Relation.ReflTransGen.single hedge) hpath
      rw [List.mem_singleton] at hlc hmk
      subst hlc
      subst hmk
      have hself : m ∈ g.next m := hedge
      dsimp only
      rw [if_pos hself]
      exact List.mem_singleton.mpr rfl
  | _ :: _ :: _ => exact hlc

end TraceGraph
end TaintTrace
