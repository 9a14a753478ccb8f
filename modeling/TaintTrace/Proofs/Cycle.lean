import Mathlib
import TaintTrace.Graph.Cycle
import TaintTrace.Proofs.Circuit
import TaintTrace.Proofs.LabelGraph
import TaintTrace.Proofs.Reach

/-!
# The cycles of a graph

The search through each label in turn finds the elementary cycles of a graph, all of
them if there is no limit, in strictly increasing lexicographic order.  The search from
a label is restricted to its component among the labels that are not smaller; no cycle
leaves it.
-/

namespace TaintTrace
namespace LabelGraph

/-- An elementary cycle from its smallest label back to it. -/
structure IsElementaryFrom (g : LabelGraph) (first : Label) (c : Cycle) (vs : List Label) :
    Prop where
  eq : c = first :: (vs ++ [first])
  nodup : (first :: vs).Nodup
  least : forall v, v ∈ vs -> first < v
  edges : c.IsChain (Graph.Edge g.targets)

def IsElementary (g : LabelGraph) (c : Cycle) : Prop :=
  exists first vs, g.IsElementaryFrom first c vs

/-!
## Ways back as lists
-/

theorem Closing.toChain {next : Label -> List Label} {first v : Label} {path rest : List Label}
    (h : Closing next first path v rest) :
    exists vs, rest = vs ++ [first] ∧ (v :: rest).IsChain (Graph.Edge next) ∧ vs.Nodup ∧
      first ∉ vs ∧ forall w, w ∈ vs -> w ∉ v :: path := by
  induction h with
  | close hmem => exact ⟨[], rfl, List.isChain_pair.mpr hmem, List.nodup_nil, by simp, by simp⟩
  | step hmem hne hnew htail ih =>
      rename_i w
      rcases ih with ⟨vs, rfl, hchain, hnodup, hfirst, hdisjoint⟩
      refine ⟨w :: vs, rfl, List.isChain_cons_cons.mpr ⟨hmem, hchain⟩, ?_, ?_, ?_⟩
      · refine List.nodup_cons.mpr ⟨?_, hnodup⟩
        intro hw
        exact hdisjoint w hw List.mem_cons_self
      · rw [List.mem_cons, not_or]
        exact ⟨hne.symm, hfirst⟩
      · intro u hu
        rcases List.mem_cons.mp hu with rfl | hu
        · exact hnew
        · exact fun hpath => hdisjoint u hu (List.mem_cons_of_mem w hpath)

theorem closing_of_chain {next : Label -> List Label} {first v : Label} {path vs : List Label}
    (hchain : (v :: (vs ++ [first])).IsChain (Graph.Edge next)) (hnodup : vs.Nodup)
    (hfirst : first ∉ vs) (hdisjoint : forall w, w ∈ vs -> w ∉ v :: path) :
    Closing next first path v (vs ++ [first]) := by
  induction vs generalizing v path with
  | nil => exact Closing.close (List.isChain_pair.mp hchain)
  | cons w vs ih =>
      rw [List.cons_append, List.isChain_cons_cons] at hchain
      rw [List.nodup_cons] at hnodup
      rw [List.mem_cons, not_or] at hfirst
      refine Closing.step hchain.1 (Ne.symm hfirst.1) (hdisjoint w List.mem_cons_self) ?_
      refine ih hchain.2 hnodup.2 hfirst.2 ?_
      intro u hu hpath
      rcases List.mem_cons.mp hpath with rfl | hpath
      · exact hnodup.1 hu
      · exact hdisjoint u (List.mem_cons_of_mem w hu) hpath

/-!
## Components
-/

section

variable {g : LabelGraph} {t : Trace} {included : List Label}

theorem getD_modify_cons (edges : Array (List Label)) (v w l m : Label)
    (hw : w.toNat < edges.size) :
    m ∈ (edges.modify w.toNat (v :: ·)).getD l.toNat [] <->
      (m = v ∧ l = w) ∨ m ∈ edges.getD l.toNat [] := by
  rw [Array.getD_eq_getD_getElem?, Array.getElem?_modify, Array.getD_eq_getD_getElem?]
  by_cases hlw : l = w
  · subst hlw
    simp [Array.getElem?_eq_getElem hw]
  · have hne : w.toNat ≠ l.toNat := fun h => hlw (UInt32.toNat_inj.mp h).symm
    simp [hlw, hne]

theorem foldl_modify_cons (ws : List Label) (edges : Array (List Label)) (v l m : Label)
    (hws : forall w, w ∈ ws -> w.toNat < edges.size) :
    (ws.foldl (fun edges w => edges.modify w.toNat (v :: ·)) edges).size = edges.size ∧
      (m ∈ (ws.foldl (fun edges w => edges.modify w.toNat (v :: ·)) edges).getD l.toNat [] <->
        (m = v ∧ l ∈ ws) ∨ m ∈ edges.getD l.toNat []) := by
  induction ws generalizing edges with
  | nil => simp
  | cons w ws ih =>
      have hsize : (edges.modify w.toNat (v :: ·)).size = edges.size := Array.size_modify ..
      have hrest := ih (edges.modify w.toNat (v :: ·)) (by
        intro u hu
        rw [hsize]
        exact hws u (List.mem_cons_of_mem w hu))
      rw [List.foldl_cons, hrest.1, hrest.2, getD_modify_cons edges v w l m
        (hws w List.mem_cons_self), List.mem_cons]
      exact ⟨hsize, by tauto⟩

theorem mem_foldl_reversed (ks : List Label) (edges : Array (List Label)) (l m : Label)
    (hbound : forall v w, w ∈ g.targets v -> w.toNat < edges.size) :
    m ∈ (ks.foldl (fun edges v => (g.targets v).foldl
        (fun edges w => edges.modify w.toNat (v :: ·)) edges) edges).getD l.toNat [] <->
      (m ∈ ks ∧ l ∈ g.targets m) ∨ m ∈ edges.getD l.toNat [] := by
  induction ks generalizing edges with
  | nil => simp
  | cons k ks ih =>
      have hone := foldl_modify_cons (g.targets k) edges k l m (hbound k)
      have hrest := ih ((g.targets k).foldl (fun edges w => edges.modify w.toNat (k :: ·)) edges)
        (by rw [hone.1]; exact hbound)
      have hsame : m = k ∧ l ∈ g.targets k <-> m = k ∧ l ∈ g.targets m := by
        constructor
        · rintro ⟨rfl, hl⟩
          exact ⟨rfl, hl⟩
        · rintro ⟨rfl, hl⟩
          exact ⟨rfl, hl⟩
      rw [List.foldl_cons, hrest, hone.2, hsame, List.mem_cons, ← or_assoc, ← or_and_right,
        or_comm (a := m ∈ ks)]

theorem mem_targets_reversed (h : g.InducedBy t included) {l m : Label} :
    m ∈ g.reversed.targets l <-> l ∈ g.targets m := by
  have hbound : forall v w, w ∈ g.targets v ->
      w.toNat < (Array.replicate g.order ([] : List Label)).size := by
    intro v w hw
    rw [Array.size_replicate, h.order]
    exact ((h.edge_iff v w).mp hw).2.2.2.2.2
  have hnone : (Array.replicate g.order ([] : List Label)).getD l.toNat [] = [] := by
    rw [Array.getD_eq_getD_getElem?, Array.getElem?_replicate]
    split <;> rfl
  rw [targets, reversed, mem_foldl_reversed g.keys _ l m hbound, hnone]
  constructor
  · rintro (⟨_, hl⟩ | hm)
    · exact hl
    · cases hm
  · intro hl
    exact Or.inl ⟨(h.mem_keys m).mpr ((h.edge_iff m l).mp hl).1, hl⟩

theorem mem_targetsFrom {first l m : Label} :
    m ∈ g.targetsFrom first l <-> m ∈ g.targets l ∧ first ≤ m := by
  rw [targetsFrom, List.mem_filter, decide_eq_true_eq]

theorem le_of_component_has {back : LabelGraph} {first l : Label}
    (h : (g.componentFrom back first).has l = true) : first ≤ l := by
  rw [Component.has, Bool.and_eq_true] at h
  have hpath := Graph.reach_has_iff.mp h.1
  rcases Relation.ReflTransGen.cases_tail hpath with heq | ⟨m, _, hedge⟩
  · rw [heq]
    exact UInt32.le_refl first
  · exact (mem_targetsFrom.mp hedge).2

theorem component_has_of_cycle (h : g.InducedBy t included) {first : Label} {c : Cycle}
    {vs : List Label} (hcycle : g.IsElementaryFrom first c vs) {l : Label} (hl : l ∈ c) :
    (g.componentFrom g.reversed first).has l = true := by
  have hle : forall m, m ∈ c -> first ≤ m := by
    intro m hm
    rw [hcycle.eq] at hm
    rcases List.mem_cons.mp hm with rfl | hm
    · exact UInt32.le_refl m
    · rcases List.mem_append.mp hm with hm | hm
      · exact UInt32.le_of_lt (hcycle.least m hm)
      · rw [List.mem_singleton.mp hm]
        exact UInt32.le_refl first
  have hforward : c.IsChain (Graph.Edge (g.targetsFrom first)) :=
    hcycle.edges.imp_of_mem_imp fun a b _ hb hedge => mem_targetsFrom.mpr ⟨hedge, hle b hb⟩
  have hbackward : c.reverse.IsChain (Graph.Edge (g.reversed.targetsFrom first)) :=
    List.isChain_reverse.mpr (hcycle.edges.imp_of_mem_imp fun a b ha _ hedge =>
      mem_targetsFrom.mpr ⟨(mem_targets_reversed h).mpr hedge, hle a ha⟩)
  -- Read backwards, the cycle begins and ends with the same label again.
  have hreverse : c.reverse = first :: (vs.reverse ++ [first]) := by
    rw [hcycle.eq]
    simp
  have hreach : forall (next : Label -> List Label) (ws : List Label),
      (first :: ws).IsChain (Graph.Edge next) -> l ∈ first :: ws ->
      (Graph.reach next first).has l = true := by
    intro next ws hchain hmem
    rw [Graph.reach_has_iff]
    exact hchain.induction (Graph.Path next first) _ (fun _ _ hedge hpath => hpath.tail hedge)
      (fun _ => Relation.ReflTransGen.refl) l hmem
  have hback : l ∈ c.reverse := List.mem_reverse.mpr hl
  rw [hreverse] at hbackward hback
  rw [hcycle.eq] at hforward hl
  rw [Component.has, Bool.and_eq_true]
  exact ⟨hreach _ _ hforward hl, hreach _ _ hbackward hback⟩

/-!
## Searches from one label
-/

theorem mem_targetsIn {component : Component} {l m : Label} :
    m ∈ g.targetsIn component l <-> m ∈ g.targets l ∧ component.has m = true := by
  rw [targetsIn, List.mem_filter]

theorem searchable_targetsIn (h : g.InducedBy t included) (component : Component) :
    Searchable (g.targetsIn component) g.keys where
  sorted := fun v => (h.targets_sorted v).filter _
  closed := by
    intro v w hw
    rw [h.mem_keys]
    exact ((h.edge_iff v w).mp (mem_targetsIn.mp hw).1).2.1

/-- A search from a label looks for the cycles of the graph whose smallest label it is, if its
edges are edges of the graph to labels that are not smaller, and these cycles take no others. -/
theorem through_iff_isElementaryFrom {next : Label -> List Label} {first : Label} {c : Cycle}
    (hedges : forall l m, m ∈ next l -> m ∈ g.targets l ∧ first ≤ m)
    (hcycles : forall vs, g.IsElementaryFrom first c vs -> c.IsChain (Graph.Edge next)) :
    Through next first [] first c <-> exists vs, g.IsElementaryFrom first c vs := by
  constructor
  · rintro ⟨rest, hclosing, hc⟩
    rcases hclosing.toChain with ⟨vs, rfl, hchain, hnodup, hfirst, _⟩
    refine ⟨vs, hc, List.nodup_cons.mpr ⟨hfirst, hnodup⟩, ?_, ?_⟩
    · intro v hv
      have hle : first ≤ v := hchain.cons_induction (fun l => first ≤ l) _
        (fun l m hedge _ => (hedges l m hedge).2) (UInt32.le_refl first) v
        (List.mem_append_left _ hv)
      refine UInt32.lt_of_le_of_ne hle ?_
      rintro rfl
      exact hfirst hv
    · rw [hc]
      exact hchain.imp fun l m hedge => (hedges l m hedge).1
  · rintro ⟨vs, hcycle⟩
    have hfirst := (List.nodup_cons.mp hcycle.nodup).1
    have hchain := hcycles vs hcycle
    rw [hcycle.eq] at hchain
    refine ⟨vs ++ [first], ?_, hcycle.eq⟩
    refine closing_of_chain hchain (List.nodup_cons.mp hcycle.nodup).2 hfirst ?_
    intro w hw hpath
    rw [List.mem_singleton.mp hpath] at hw
    exact hfirst hw

theorem through_targetsIn_iff (h : g.InducedBy t included) {first : Label} {c : Cycle} :
    Through (g.targetsIn (g.componentFrom g.reversed first)) first [] first c <->
      exists vs, g.IsElementaryFrom first c vs := by
  apply through_iff_isElementaryFrom
  · intro l m hm
    rw [mem_targetsIn] at hm
    exact ⟨hm.1, le_of_component_has hm.2⟩
  · intro vs hcycle
    exact hcycle.edges.imp_of_mem_imp fun _ _ _ hb hedge =>
      mem_targetsIn.mpr ⟨hedge, component_has_of_cycle h hcycle hb⟩

theorem ready_of_mem {next : Label -> List Label} {keys : List Label} {first : Label}
    {bound : Nat} {s : CycleSearch} (hfirst : first ∈ keys) (hbound : keys.length ≤ bound)
    (hroom : s.full = false) : Ready next first keys bound [] first ⟨s, Blocks.empty⟩ where
  room := hroom
  blocking := blocking_empty
  free := Blocks.not_isBlocked_empty first
  among := List.cons_subset.mpr ⟨hfirst, List.nil_subset keys⟩
  fuel := by simpa using hbound

theorem cyclesFrom_of_full {back : LabelGraph} {bound : Nat} {s : CycleSearch} {first : Label}
    (hfull : s.full = true) : g.cyclesFrom back bound s first = s := by
  rw [cyclesFrom, if_pos hfull]

theorem cyclesFrom_extends (h : g.InducedBy t included) {first : Label} {bound : Nat}
    (hfirst : first ∈ g.keys) (hbound : g.keys.length ≤ bound) (s : CycleSearch) :
    CycleSearch.Extends (fun c => exists vs, g.IsElementaryFrom first c vs) s
      (g.cyclesFrom g.reversed bound s first) := by
  cases hfull : s.full with
  | true =>
      rw [cyclesFrom_of_full hfull]
      exact CycleSearch.Extends.of_full hfull
  | false =>
      rw [cyclesFrom, if_neg (by simp [hfull])]
      have hexplored := circuit_explored
        (searchable_targetsIn h (g.componentFrom g.reversed first)) bound [] first
        ⟨s, Blocks.empty⟩ (ready_of_mem hfirst hbound hfull)
      exact hexplored.extend.congr fun c => through_targetsIn_iff h

/-- A search over longer paths than there are labels gives nothing new. -/
theorem cyclesFrom_bound (h : g.InducedBy t included) {first : Label} {bound : Nat}
    (hfirst : first ∈ g.keys) (hbound : g.keys.length ≤ bound) (s : CycleSearch) :
    g.cyclesFrom g.reversed bound s first = g.cyclesFrom g.reversed g.keys.length s first := by
  cases hfull : s.full with
  | true => rw [cyclesFrom_of_full hfull, cyclesFrom_of_full hfull]
  | false =>
      rw [cyclesFrom, cyclesFrom, circuit_eq_of_le (searchable_targetsIn h _) hbound
        (ready_of_mem hfirst (Nat.le_refl _) hfull)]

/-!
## Searches from all labels
-/

theorem isElementaryFrom_lt {first first' : Label} {c d : Cycle} {vs vs' : List Label}
    (hlt : first < first') (hc : g.IsElementaryFrom first c vs)
    (hd : g.IsElementaryFrom first' d vs') : c < d := by
  rw [hc.eq, hd.eq]
  exact List.cons_lt_cons_iff.mpr (Or.inl hlt)

theorem foldl_cyclesFrom_of_full {back : LabelGraph} {bound : Nat} {s : CycleSearch}
    (hfull : s.full = true) (ks : List Label) : ks.foldl (g.cyclesFrom back bound) s = s := by
  induction ks with
  | nil => rfl
  | cons k ks ih => rw [List.foldl_cons, cyclesFrom_of_full hfull, ih]

theorem foldl_cyclesFrom_extends (h : g.InducedBy t included) {bound : Nat}
    (hbound : g.keys.length ≤ bound) (ks : List Label) (hsub : ks ⊆ g.keys)
    (hsorted : ks.Pairwise (· < ·)) (s : CycleSearch) :
    CycleSearch.Extends
      (fun c => exists first, first ∈ ks ∧ exists vs, g.IsElementaryFrom first c vs)
      s (ks.foldl (g.cyclesFrom g.reversed bound) s) := by
  induction ks generalizing s with
  | nil =>
      refine CycleSearch.Extends.of_forall_not ?_
      rintro c ⟨first, hfirst, _⟩
      cases hfirst
  | cons k ks ih =>
      rw [List.pairwise_cons] at hsorted
      have hone := cyclesFrom_extends h (hsub List.mem_cons_self) hbound s
      have hrest := ih (fun l hl => hsub (List.mem_cons_of_mem k hl)) hsorted.2
        (g.cyclesFrom g.reversed bound s k)
      refine (hone.trans hrest ?_ ?_).congr ?_
      · rintro c d ⟨vs, hc⟩ ⟨first, hfirst, vs', hd⟩
        exact isElementaryFrom_lt (hsorted.1 first hfirst) hc hd
      · intro hfull
        exact foldl_cyclesFrom_of_full hfull ks
      · intro c
        rw [List.exists_mem_cons_iff]

theorem IsElementaryFrom.mem_keys (h : g.InducedBy t included) {first : Label} {c : Cycle}
    {vs : List Label} (hcycle : g.IsElementaryFrom first c vs) : first ∈ g.keys := by
  have hedges := hcycle.edges
  rw [hcycle.eq] at hedges
  rw [h.mem_keys]
  cases vs with
  | nil => exact ((h.edge_iff _ _).mp (List.isChain_pair.mp hedges)).1
  | cons v vs => exact ((h.edge_iff _ _).mp (List.isChain_cons_cons.mp hedges).1).1

/-- The cycles found with a limit are elementary cycles in order, and an elementary cycle
that is not among them comes after all of them. -/
theorem elementaryCycles_adds (h : g.InducedBy t included) (limit : Int) :
    exists s, CycleSearch.Adds g.IsElementary (CycleSearch.start limit) s
      (g.elementaryCycles limit) := by
  have hextend := (foldl_cyclesFrom_extends h (Nat.le_refl _) g.keys (List.Subset.refl _)
    h.keys_sorted (CycleSearch.start limit)).congr (R := g.IsElementary) (by
      intro c
      constructor
      · rintro ⟨first, _, vs, hcycle⟩
        exact ⟨first, vs, hcycle⟩
      · rintro ⟨first, vs, hcycle⟩
        exact ⟨first, hcycle.mem_keys h, vs, hcycle⟩)
  rcases hextend with ⟨new, hadds⟩
  have hresult : g.elementaryCycles limit = new := by
    rw [elementaryCycles, cyclesWithin, hadds.found]
    simp [CycleSearch.start]
  exact ⟨_, hresult ▸ hadds⟩

theorem mem_elementaryCycles_zero (h : g.InducedBy t included) {c : Cycle}
    (hc : g.IsElementary c) : c ∈ g.elementaryCycles 0 := by
  rcases elementaryCycles_adds h 0 with ⟨s, hadds⟩
  exact hadds.mem_of_room_eq_none rfl hc

theorem cyclesWithin_eq (h : g.InducedBy t included) {bound : Nat}
    (hbound : g.keys.length ≤ bound) (limit : Int) :
    g.cyclesWithin bound limit = g.elementaryCycles limit := by
  have hfold : forall (ks : List Label) (s : CycleSearch), ks ⊆ g.keys ->
      ks.foldl (g.cyclesFrom g.reversed bound) s =
        ks.foldl (g.cyclesFrom g.reversed g.keys.length) s := by
    intro ks
    induction ks with
    | nil =>
        intro s _
        rfl
    | cons k ks ih =>
        intro s hsub
        rw [List.foldl_cons, List.foldl_cons, cyclesFrom_bound h (hsub List.mem_cons_self) hbound]
        exact ih _ fun l hl => hsub (List.mem_cons_of_mem k hl)
  rw [elementaryCycles, cyclesWithin, cyclesWithin, hfold g.keys _ (List.Subset.refl _)]

end

/-!
## Graphs of traces
-/

/-- The search without a limit is complete.  Longer paths than there are labels are never
tried, and every cycle of distinct labels is found, written from its smallest label. -/
theorem elementaryCycles_complete (t : Trace) (included : List Label) :
    let g := (ofTrace t included).run t
    (forall l m, Graph.Edge g.targets l m <-> l ∈ included ∧ m ∈ included ∧ t.Refers l m) ∧
    (forall bound, g.keys.length ≤ bound -> g.cyclesWithin bound 0 = g.elementaryCycles 0) ∧
    forall first vs, (first :: vs).Nodup -> (forall v, v ∈ vs -> first ≤ v) ->
      (first :: (vs ++ [first])).IsChain (Graph.Edge g.targets) ->
      first :: (vs ++ [first]) ∈ g.elementaryCycles 0 := by
  intro g
  have hg : g.InducedBy t included := ofTrace_inducedBy t included
  refine ⟨hg.edge_iff, fun bound hbound => cyclesWithin_eq hg hbound 0, ?_⟩
  intro first vs hnodup hleast hchain
  refine mem_elementaryCycles_zero hg ⟨first, vs, rfl, hnodup, ?_, hchain⟩
  intro v hv
  refine UInt32.lt_of_le_of_ne (hleast v hv) ?_
  rintro rfl
  exact (List.nodup_cons.mp hnodup).1 hv

/-- Labels two and three refer to each other; four refers to itself and to five, which
refers to four. -/
def tangle : Trace where
  headers := []
  labelCount := 6
  sinks := []
  taints := []
  decode := fun l =>
    match l.toNat with
    | 1 => .ok ⟨.source 0 0, false⟩
    | 2 => .ok ⟨.union 3 1, false⟩
    | 3 => .ok ⟨.union 2 1, false⟩
    | 4 => .ok ⟨.range 2 5, false⟩
    | 5 => .ok ⟨.union 4 1, false⟩
    | _ => .error ⟨l, 5⟩

theorem tangle_refers : tangle.Refers 4 4 ∧ tangle.Refers 4 5 ∧ tangle.Refers 5 4 := by
  refine ⟨⟨?_, ⟨_, rfl, ?_⟩, ?_⟩, ⟨?_, ⟨_, rfl, ?_⟩, ?_⟩, ⟨?_, ⟨_, rfl, ?_⟩, ?_⟩⟩ <;> decide

theorem elementaryCycles_complete_tangle :
    [4, 4] ∈ ((ofTrace tangle [5, 4, 4, 9]).run tangle).elementaryCycles 0 ∧
      [4, 5, 4] ∈ ((ofTrace tangle [5, 4, 4, 9]).run tangle).elementaryCycles 0 := by
  rcases elementaryCycles_complete tangle [5, 4, 4, 9] with ⟨hedge, _, hcomplete⟩
  rcases tangle_refers with ⟨hloop, hforth, hback⟩
  constructor
  · refine hcomplete 4 [] (by decide) (by simp) ?_
    exact List.isChain_pair.mpr ((hedge 4 4).mpr ⟨by decide, by decide, hloop⟩)
  · refine hcomplete 4 [5] (by decide) (by simp) ?_
    refine List.isChain_cons_cons.mpr ⟨(hedge 4 5).mpr ⟨by decide, by decide, hforth⟩, ?_⟩
    exact List.isChain_pair.mpr ((hedge 5 4).mpr ⟨by decide, by decide, hback⟩)

/-- The search with any limit is sound.  It gives cycles of distinct labels, each from its
smallest label back to it, in strictly increasing lexicographic order. -/
theorem elementaryCycles_sound (t : Trace) (included : List Label) (limit : Int) :
    let g := (ofTrace t included).run t
    (forall c, c ∈ g.elementaryCycles limit ->
      exists first vs, c = first :: (vs ++ [first]) ∧ (first :: vs).Nodup ∧
        (forall v, v ∈ vs -> first < v) ∧
        c.IsChain fun l m => Graph.Edge g.targets l m ∧
          l ∈ included ∧ m ∈ included ∧ t.Refers l m) ∧
    (g.elementaryCycles limit).Pairwise (· < ·) ∧
    (g.elementaryCycles limit).Nodup ∧
    (g.elementaryCycles limit).Pairwise fun c d => c.headD 0 ≤ d.headD 0 := by
  intro g
  have hg : g.InducedBy t included := ofTrace_inducedBy t included
  rcases elementaryCycles_adds hg limit with ⟨s, hadds⟩
  refine ⟨?_, hadds.sorted, hadds.sorted.imp fun hlt heq => ?_, hadds.sorted.imp_of_mem ?_⟩
  · intro c hc
    rcases hadds.sound c hc with ⟨first, vs, hcycle⟩
    exact ⟨first, vs, hcycle.eq, hcycle.nodup, hcycle.least,
      hcycle.edges.imp fun l m hedge => ⟨hedge, (hg.edge_iff l m).mp hedge⟩⟩
  · exact List.lt_irrefl _ (heq ▸ hlt)
  · intro c d hc hd hlt
    rcases hadds.sound c hc with ⟨first, vs, hcycle⟩
    rcases hadds.sound d hd with ⟨first', vs', hcycle'⟩
    rw [hcycle.eq, hcycle'.eq] at hlt ⊢
    rcases List.cons_lt_cons_iff.mp hlt with hlt | ⟨heq, _⟩
    · exact UInt32.le_of_lt hlt
    · exact UInt32.le_of_eq heq

theorem elementaryCycles_sound_tangle :
    [4, 4] ∈ ((ofTrace tangle [4]).run tangle).elementaryCycles 0 ∧
      (exists first vs, ([4, 4] : Cycle) = first :: (vs ++ [first]) ∧ (first :: vs).Nodup) ∧
      (((ofTrace tangle [4]).run tangle).elementaryCycles 0).Pairwise (· < ·) := by
  have hgraph := ofTrace_inducedBy tangle [4]
  have hedge : Graph.Edge ((ofTrace tangle [4]).run tangle).targets 4 4 :=
    (hgraph.edge_iff 4 4).mpr ⟨by decide, by decide, tangle_refers.1⟩
  have hmem : [4, 4] ∈ ((ofTrace tangle [4]).run tangle).elementaryCycles 0 :=
    mem_elementaryCycles_zero hgraph
      ⟨4, [], rfl, by decide, by simp, List.isChain_pair.mpr hedge⟩
  rcases elementaryCycles_sound tangle [4] 0 with ⟨hsound, hsorted, _⟩
  rcases hsound [4, 4] hmem with ⟨first, vs, heq, hnodup, _⟩
  exact ⟨hmem, ⟨first, vs, heq, hnodup⟩, hsorted⟩

/-- A limit cuts the cycles that are found without one, and does nothing else. -/
theorem elementaryCycles_limited (t : Trace) (included : List Label) (limit : Int)
    (hlimit : 0 < limit) :
    let g := (ofTrace t included).run t
    g.elementaryCycles limit =
      (g.elementaryCycles 0).take (min limit.toNat (g.elementaryCycles 0).length) := by
  intro g
  have hg : g.InducedBy t included := ofTrace_inducedBy t included
  rcases elementaryCycles_adds hg limit with ⟨s, hadds⟩
  rcases elementaryCycles_adds hg 0 with ⟨s', hall⟩
  have hroom : (CycleSearch.start limit).room = some limit.toNat := if_pos hlimit
  rw [← List.take_eq_take_min]
  exact hadds.eq_take hroom hall rfl

-- The search stops between the two cycles of label four.
theorem elementaryCycles_limited_tangle :
    let g := (ofTrace tangle [5, 4, 4, 9]).run tangle
    g.elementaryCycles 1 = (g.elementaryCycles 0).take 1 ∧ 2 ≤ (g.elementaryCycles 0).length := by
  intro g
  have hg : g.InducedBy tangle [5, 4, 4, 9] := ofTrace_inducedBy tangle [5, 4, 4, 9]
  rcases tangle_refers with ⟨hloop, hforth, hback⟩
  have hself : Graph.Edge g.targets 4 4 := (hg.edge_iff 4 4).mpr ⟨by decide, by decide, hloop⟩
  have hto : Graph.Edge g.targets 4 5 := (hg.edge_iff 4 5).mpr ⟨by decide, by decide, hforth⟩
  have hfrom : Graph.Edge g.targets 5 4 := (hg.edge_iff 5 4).mpr ⟨by decide, by decide, hback⟩
  have hshort : [4, 4] ∈ g.elementaryCycles 0 :=
    mem_elementaryCycles_zero hg ⟨4, [], rfl, by decide, by simp, List.isChain_pair.mpr hself⟩
  have hlong : [4, 5, 4] ∈ g.elementaryCycles 0 :=
    mem_elementaryCycles_zero hg ⟨4, [5], rfl, by decide, by simp,
      List.isChain_cons_cons.mpr ⟨hto, List.isChain_pair.mpr hfrom⟩⟩
  have hboth : [[4, 4], [4, 5, 4]] ⊆ g.elementaryCycles 0 := by
    simp [hshort, hlong]
  have hlength : 2 ≤ (g.elementaryCycles 0).length :=
    (List.subperm_of_subset (by decide) hboth).length_le
  have hlimited : g.elementaryCycles 1 =
      (g.elementaryCycles 0).take (min 1 (g.elementaryCycles 0).length) :=
    elementaryCycles_limited tangle [5, 4, 4, 9] 1 (by decide)
  rw [Nat.min_eq_left (Nat.le_of_succ_le hlength)] at hlimited
  exact ⟨hlimited, hlength⟩

end LabelGraph
end TaintTrace
