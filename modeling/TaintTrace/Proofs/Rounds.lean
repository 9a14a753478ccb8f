import Mathlib
import TaintTrace.Graph.Rounds
import TaintTrace.Proofs.Component
import TaintTrace.Proofs.Cycle

/-!
# Rounds find the same cycles

A search in rounds restricts the graph to the labels that remain, picks the component of the
smallest label on a cycle, and restricts it once more.  Whatever function gives the components,
and in whatever order, the cycles are those of the search through each label in turn.
-/

namespace TaintTrace
namespace LabelGraph

/-- The strongly connected components of a graph, in any order. -/
structure StrongComponents (g : LabelGraph) (components : List (List Label)) : Prop where
  covers : forall l, l.toNat < g.order -> exists c, c ∈ components ∧ l ∈ c
  strong : forall c, c ∈ components -> forall l m, l ∈ c -> m ∈ c -> Graph.Path g.targets l m
  whole : forall c, c ∈ components -> forall l m, l ∈ c -> Graph.Path g.targets l m ->
    Graph.Path g.targets m l -> m ∈ c
  nodup : forall c, c ∈ components -> c.Nodup

variable {g : LabelGraph} {t : Trace} {included : List Label}

/-!
## Subgraphs

A subgraph has the edges between its labels, and no others.
-/

theorem targets_sub (g : LabelGraph) (ks : List Label) (l : Label) :
    (g.sub ks).targets l =
      if (LabelSet.ofList ks).has l then (g.targets l).filter (LabelSet.ofList ks).has
      else [] := by
  rw [targets, targets, sub, Array.getD_eq_getD_getElem?, Array.getElem?_mapIdx,
    Array.getD_eq_getD_getElem?, UInt32.ofNat_toNat]
  cases g.edges[l.toNat]? with
  | none => simp
  | some ls => rfl

theorem mem_targets_sub {ks : List Label} {l m : Label} :
    m ∈ (g.sub ks).targets l <-> l ∈ ks ∧ m ∈ ks ∧ m ∈ g.targets l := by
  rw [targets_sub]
  split
  · rename_i hl
    rw [LabelSet.has_ofList_iff] at hl
    rw [List.mem_filter, LabelSet.has_ofList_iff]
    exact ⟨fun h => ⟨hl, h.2, h.1⟩, fun h => ⟨h.2.2, h.2.1⟩⟩
  · rename_i hl
    rw [LabelSet.has_ofList_iff] at hl
    exact iff_of_false (List.not_mem_nil) fun h => hl h.1

theorem targets_sub_sorted (h : forall l, (g.targets l).Pairwise (· < ·)) (ks : List Label)
    (l : Label) : ((g.sub ks).targets l).Pairwise (· < ·) := by
  rw [targets_sub]
  split
  · exact (h l).filter _
  · exact List.Pairwise.nil

/-!
## Cyclic components

A component of several labels has paths between any two of them, so all of them are on cycles.
The label of a component of one is on a cycle only through an edge to itself.
-/

namespace StrongComponents

variable {components : List (List Label)} {component : List Label} {l : Label}

theorem onCycle (h : g.StrongComponents components) (hmem : component ∈ components)
    (hcyclic : g.isCyclic component = true) (hl : l ∈ component) : Graph.OnCycle g.targets l := by
  match component with
  | [] => cases hl
  | [v] =>
      rw [List.mem_singleton.mp hl]
      exact Relation.TransGen.single (List.contains_iff_mem.mp hcyclic)
  | v :: w :: rest =>
      -- One of the first two labels is another one, and there are paths to it and back.
      have hne : v ≠ w := fun heq =>
        (List.nodup_cons.mp (h.nodup _ hmem)).1 (heq ▸ List.mem_cons_self)
      have hother : exists m, m ∈ v :: w :: rest ∧ l ≠ m := by
        by_cases hlv : l = v
        · exact ⟨w, by simp, hlv ▸ hne⟩
        · exact ⟨v, by simp, hlv⟩
      rcases hother with ⟨m, hm, hlm⟩
      have hforth : Relation.TransGen (Graph.Edge g.targets) l m :=
        (Relation.reflTransGen_iff_eq_or_transGen.mp (h.strong _ hmem l m hl hm)).resolve_left
          (Ne.symm hlm)
      exact hforth.trans_left (h.strong _ hmem m l hm hl)

theorem isCyclic_of_onCycle (h : g.StrongComponents components) (hmem : component ∈ components)
    (hl : l ∈ component) (hcycle : Graph.OnCycle g.targets l) : g.isCyclic component = true := by
  match component with
  | [] => cases hl
  | [v] =>
      rw [List.mem_singleton] at hl
      subst hl
      rcases hcycle.exists_edge with ⟨m, hedge, hback, _⟩
      have hm := h.whole _ hmem l m List.mem_cons_self (.single hedge) hback
      rw [List.mem_singleton.mp hm] at hedge
      exact List.contains_iff_mem.mpr hedge
  | _ :: _ :: _ => rfl

end StrongComponents

/-!
## The smallest label on a cycle
-/

/-- The labels of cyclic components, each with its component. -/
def candidates (g : LabelGraph) (components : List (List Label)) : List (Label × List Label) :=
  (components.filter g.isCyclic).flatMap fun c => c.map fun v => (v, c)

theorem mem_candidates {components : List (List Label)} {l : Label} {c : List Label} :
    (l, c) ∈ g.candidates components <-> c ∈ components ∧ g.isCyclic c = true ∧ l ∈ c := by
  simp only [candidates, List.mem_flatMap, List.mem_filter, List.mem_map, Prod.mk.injEq]
  constructor
  · rintro ⟨c', ⟨hc, hcyclic⟩, v, hv, rfl, rfl⟩
    exact ⟨hc, hcyclic, hv⟩
  · rintro ⟨hc, hcyclic, hl⟩
    exact ⟨c, ⟨hc, hcyclic⟩, l, hl, rfl, rfl⟩

theorem leastCyclic?_eq_foldl (g : LabelGraph) (components : List (List Label)) :
    g.leastCyclic? components =
      (g.candidates components).foldl (fun best? p => lesser p.2 best? p.1) none := by
  rw [leastCyclic?, candidates, List.foldl_flatMap, List.foldl_filter]
  simp only [List.foldl_map]

theorem foldl_lesser_some (ps : List (Label × List Label)) (best : Label × List Label) :
    exists p, ps.foldl (fun best? p => lesser p.2 best? p.1) (some best) = some p ∧
      p ∈ best :: ps ∧ forall q, q ∈ best :: ps -> p.1 ≤ q.1 := by
  induction ps generalizing best with
  | nil => exact ⟨best, rfl, List.mem_cons_self, by simp⟩
  | cons q ps ih =>
      rw [List.foldl_cons, lesser]
      split
      · rename_i hlt
        rcases ih q with ⟨p, hp, hmem, hleast⟩
        refine ⟨p, hp, List.mem_cons_of_mem best hmem, ?_⟩
        rw [List.forall_mem_cons]
        refine ⟨?_, hleast⟩
        exact UInt32.le_trans (hleast q List.mem_cons_self) (UInt32.le_of_lt hlt)
      · rename_i hle
        rcases ih best with ⟨p, hp, hmem, hleast⟩
        rw [List.forall_mem_cons] at hleast
        refine ⟨p, hp, ?_, ?_⟩
        · rcases List.mem_cons.mp hmem with rfl | hmem
          · exact List.mem_cons_self
          · exact List.mem_cons_of_mem best (List.mem_cons_of_mem q hmem)
        · rw [List.forall_mem_cons, List.forall_mem_cons]
          exact ⟨hleast.1, UInt32.le_trans hleast.1 (UInt32.not_lt.mp hle), hleast.2⟩

/-- What is found is the smallest of all candidates, and nothing only if there are none. -/
theorem leastCyclic?_cases (g : LabelGraph) (components : List (List Label)) :
    (g.leastCyclic? components = none ∧ g.candidates components = []) ∨
      exists l c, g.leastCyclic? components = some (l, c) ∧ (l, c) ∈ g.candidates components ∧
        forall p, p ∈ g.candidates components -> l ≤ p.1 := by
  rw [leastCyclic?_eq_foldl]
  cases g.candidates components with
  | nil => exact Or.inl ⟨rfl, rfl⟩
  | cons p ps =>
      rcases foldl_lesser_some ps p with ⟨⟨l, c⟩, hp, hmem, hleast⟩
      exact Or.inr ⟨l, c, hp, hmem, hleast⟩

/-!
## Labels that remain

The labels that remain are the last ones of the sorted keys.  A round removes those up to the
one it starts from, which a binary search finds; as the labels are sorted, that is the first one
that is not smaller.
-/

section

variable {ks remaining : List Label} {first start l : Label}

theorem mem_of_suffix (hsuffix : remaining <:+ ks) (hsorted : ks.Pairwise (· < ·))
    (hfirst : first ∈ remaining) (hl : l ∈ ks) (hle : first ≤ l) : l ∈ remaining := by
  rcases hsuffix with ⟨removed, rfl⟩
  rcases List.mem_append.mp hl with hl | hl
  · have hlt := (List.pairwise_append.mp hsorted).2.2 l hl first hfirst
    exact absurd hle (UInt32.not_le.mpr hlt)
  · exact hl

theorem mem_drop_findIdx (hsorted : remaining.Pairwise (· < ·)) (hstart : start ∈ remaining) :
    l ∈ remaining.drop (remaining.findIdx (start ≤ ·) + 1) <-> l ∈ remaining ∧ start < l := by
  rcases List.append_of_mem hstart with ⟨before, behind, rfl⟩
  rcases List.pairwise_append.mp hsorted with ⟨_, hbehind, hbefore⟩
  rw [List.pairwise_cons] at hbehind
  have hsmaller : forall m, m ∈ before -> m < start :=
    fun m hm => hbefore m hm start List.mem_cons_self
  have hindex : (before ++ start :: behind).findIdx (start ≤ ·) = before.length := by
    rw [List.findIdx_append, List.findIdx_eq_length_of_false]
    · simp [List.findIdx_cons]
    · intro m hm
      rw [decide_eq_false_iff_not, UInt32.not_le]
      exact hsmaller m hm
  have hdrop : (before ++ start :: behind).drop (before.length + 1) = behind := by
    rw [← List.drop_drop, List.drop_left]
    rfl
  rw [hindex, hdrop, List.mem_append, List.mem_cons]
  constructor
  · intro hl
    exact ⟨Or.inr (Or.inr hl), hbehind.1 l hl⟩
  · rintro ⟨hl | rfl | hl, hlt⟩
    · exact absurd (hsmaller l hl) (UInt32.lt_asymm hlt)
    · exact absurd hlt (UInt32.lt_irrefl l)
    · exact hl

end

/-!
## One round

The elementary cycles from a label that remains lie in the subgraph on the labels that remain,
and in one component of it.
-/

section

variable {remaining : List Label} {first : Label} {c : Cycle} {vs : List Label}

theorem IsElementaryFrom.mem_remaining (h : g.InducedBy t included)
    (hcycle : g.IsElementaryFrom first c vs) (hsuffix : remaining <:+ g.keys)
    (hfirst : first ∈ remaining) : forall l, l ∈ c -> l ∈ remaining := by
  have hedges := hcycle.edges
  rw [hcycle.eq] at hedges ⊢
  intro l hl
  have hkey : l ∈ g.keys := hedges.induction (· ∈ g.keys) _
    (fun l m hedge _ => (h.mem_keys m).mpr ((h.edge_iff l m).mp hedge).2.1)
    (fun _ => hcycle.mem_keys h) l hl
  refine mem_of_suffix hsuffix h.keys_sorted hfirst hkey ?_
  rcases List.mem_cons.mp hl with rfl | hl
  · exact UInt32.le_refl l
  · rcases List.mem_append.mp hl with hl | hl
    · exact UInt32.le_of_lt (hcycle.least l hl)
    · rw [List.mem_singleton.mp hl]
      exact UInt32.le_refl first

theorem IsElementaryFrom.chain_sub (h : g.InducedBy t included)
    (hcycle : g.IsElementaryFrom first c vs) (hsuffix : remaining <:+ g.keys)
    (hfirst : first ∈ remaining) : c.IsChain (Graph.Edge (g.sub remaining).targets) := by
  have hall := hcycle.mem_remaining h hsuffix hfirst
  exact hcycle.edges.imp_of_mem_imp fun l m hl hm hedge =>
    mem_targets_sub.mpr ⟨hall l hl, hall m hm, hedge⟩

theorem IsElementaryFrom.paths (hcycle : g.IsElementaryFrom first c vs)
    {next : Label -> List Label} (hchain : c.IsChain (Graph.Edge next)) {l : Label} (hl : l ∈ c) :
    Graph.Path next first l ∧ Graph.Path next l first := by
  rw [hcycle.eq] at hchain hl
  constructor
  · exact hchain.induction (Graph.Path next first) _ (fun _ _ hedge hpath => hpath.tail hedge)
      (fun _ => Relation.ReflTransGen.refl) l hl
  · refine hchain.backwards_cons_induction (fun m => Graph.Path next m first) _ ?_
      (fun _ _ hedge hpath => hpath.head hedge) Relation.ReflTransGen.refl l hl
    rw [List.getLast_cons (by simp), List.getLast_append_singleton]

theorem IsElementaryFrom.onCycle (hcycle : g.IsElementaryFrom first c vs)
    {next : Label -> List Label} (hchain : c.IsChain (Graph.Edge next)) :
    Graph.OnCycle next first := by
  have hpaths := fun l hl => hcycle.paths hchain (l := l) hl
  rw [hcycle.eq] at hchain hpaths
  cases vs with
  | nil => exact Relation.TransGen.single (List.isChain_pair.mp hchain)
  | cons v vs =>
      exact Relation.TransGen.head' (List.isChain_cons_cons.mp hchain).1
        (hpaths v (by simp)).2

theorem IsElementaryFrom.exists_candidate (h : g.InducedBy t included)
    (hcycle : g.IsElementaryFrom first c vs) (hsuffix : remaining <:+ g.keys)
    (hfirst : first ∈ remaining) {components : List (List Label)}
    (hstrong : (g.sub remaining).StrongComponents components) :
    exists component, (first, component) ∈ (g.sub remaining).candidates components := by
  have hcycles := hcycle.onCycle (hcycle.chain_sub h hsuffix hfirst)
  have hbelow : first.toNat < (g.sub remaining).order := by
    change first.toNat < g.order
    rcases hcycles.exists_edge with ⟨m, hedge, _⟩
    rw [h.order]
    exact ((h.edge_iff first m).mp (mem_targets_sub.mp hedge).2.2).2.2.1.2
  rcases hstrong.covers first hbelow with ⟨component, hmem, hin⟩
  exact ⟨component,
    mem_candidates.mpr ⟨hmem, hstrong.isCyclic_of_onCycle hmem hin hcycles, hin⟩⟩

/-- In the component of the smallest label on a cycle, a search from that label looks for the
cycles of the graph whose smallest label it is. -/
theorem through_component_iff (h : g.InducedBy t included) (hsuffix : remaining <:+ g.keys)
    {components : List (List Label)} (hstrong : (g.sub remaining).StrongComponents components)
    {component : List Label} (hcandidate : (first, component) ∈
      (g.sub remaining).candidates components)
    (hleast : forall p, p ∈ (g.sub remaining).candidates components -> first ≤ p.1)
    (hfirst : first ∈ remaining) :
    Through ((g.sub remaining).sub component).targets first [] first c <->
      exists vs, g.IsElementaryFrom first c vs := by
  rcases mem_candidates.mp hcandidate with ⟨hmem, hcyclic, hin⟩
  apply through_iff_isElementaryFrom
  · intro l m hm
    rcases mem_targets_sub.mp hm with ⟨_, hm, hedge⟩
    exact ⟨(mem_targets_sub.mp hedge).2.2, hleast (m, component)
      (mem_candidates.mpr ⟨hmem, hcyclic, hm⟩)⟩
  · intro vs hcycle
    have hchain := hcycle.chain_sub h hsuffix hfirst
    have hcomponent : forall l, l ∈ c -> l ∈ component := by
      intro l hl
      rcases hcycle.paths hchain hl with ⟨hforth, hback⟩
      exact hstrong.whole component hmem first l hin hforth hback
    exact hchain.imp_of_mem_imp fun l m hl hm hedge =>
      mem_targets_sub.mpr ⟨hcomponent l hl, hcomponent m hm, hedge⟩

theorem mem_remaining_of_candidate {components : List (List Label)}
    (hstrong : (g.sub remaining).StrongComponents components) {component : List Label}
    (hcandidate : (first, component) ∈ (g.sub remaining).candidates components) :
    first ∈ remaining := by
  rcases mem_candidates.mp hcandidate with ⟨hmem, hcyclic, hin⟩
  rcases (hstrong.onCycle hmem hcyclic hin).exists_edge with ⟨m, hedge, _⟩
  exact (mem_targets_sub.mp hedge).1

end

/-!
## All rounds

The cycles found in earlier rounds are what a search has found by then, and the budget of a
round is the room it has left.
-/

namespace CycleSearch

/-- The state of a search that has found some cycles. -/
def after (limit : Int) (cycles : List Cycle) : CycleSearch :=
  ⟨if 0 < limit then some (limit.toNat - cycles.length) else none, cycles.reverse⟩

theorem after_nil (limit : Int) : after limit [] = start limit := rfl

theorem full_after_iff {limit : Int} {cycles : List Cycle} :
    (after limit cycles).full = true <-> 0 < limit ∧ limit ≤ cycles.length := by
  rw [full_iff, after]
  split
  · rename_i hlimit
    simp only [Option.some.injEq, hlimit, true_and]
    omega
  · rename_i hlimit
    simp [hlimit]

theorem room_start_budget {limit : Int} {cycles : List Cycle}
    (h : (after limit cycles).full = false) :
    (start (budget limit cycles.length)).room = (after limit cycles).room := by
  have hroom : ¬ (0 < limit ∧ limit ≤ cycles.length) := by
    rw [← full_after_iff, h]
    exact Bool.false_ne_true
  unfold start after budget
  by_cases hlimit : 0 < limit
  · rw [if_pos hlimit, if_pos hlimit, if_pos (by omega)]
    exact congrArg some (by omega)
  · rw [if_neg hlimit, if_neg hlimit, if_neg (by decide)]

theorem room_after_append (limit : Int) (cycles new : List Cycle) :
    (after limit (cycles ++ new)).room = (after limit cycles).room.map (· - new.length) := by
  unfold after
  split
  · rw [List.length_append, Option.map_some, Nat.sub_sub]
  · rfl

theorem Adds.onto {Q : Cycle -> Prop} {s s' : CycleSearch} {new : List Cycle} {limit : Int}
    {cycles : List Cycle} (h : Adds Q s s' new) (hroom : s.room = (after limit cycles).room) :
    Adds Q (after limit cycles) (after limit (cycles ++ new)) new where
  found := List.reverse_append
  room := room_after_append limit cycles new
  fits := fun n hn => h.fits n (hroom.trans hn)
  sound := h.sound
  sorted := h.sorted
  complete := by
    intro c hc
    refine (h.complete c hc).imp_right fun hlast => ⟨?_, hlast.2⟩
    rw [full_iff, room_after_append, ← hroom, ← h.room, ← full_iff]
    exact hlast.1

end CycleSearch

section

variable {components : LabelGraph -> List (List Label)} {limit : Int} {remaining : List Label}

theorem rounds_of_full {cycles : List Cycle} (h : (CycleSearch.after limit cycles).full = true) :
    rounds components g limit remaining cycles = cycles := by
  cases remaining with
  | nil => rw [rounds]
  | cons first rest => rw [rounds, if_pos (CycleSearch.full_after_iff.mp h)]

theorem full_start (limit : Int) : (CycleSearch.start limit).full = false := by
  unfold CycleSearch.start CycleSearch.full
  split
  · rename_i hlimit
    rw [beq_eq_false_iff_ne, ne_eq, Option.some.injEq]
    omega
  · rfl

theorem round_adds (h : g.InducedBy t included) (hsuffix : remaining <:+ g.keys)
    {parts : List (List Label)} (hstrong : (g.sub remaining).StrongComponents parts)
    {start : Label} {component : List Label}
    (hcandidate : (start, component) ∈ (g.sub remaining).candidates parts)
    (hleast : forall p, p ∈ (g.sub remaining).candidates parts -> start ≤ p.1)
    {cycles : List Cycle} (hroom : (CycleSearch.after limit cycles).full = false) :
    CycleSearch.Extends (fun c => exists vs, g.IsElementaryFrom start c vs)
      (CycleSearch.after limit cycles)
      (CycleSearch.after limit (cycles ++ ((g.sub remaining).sub component).cyclesThrough
        (budget limit cycles.length) start)) := by
  have hstart := mem_remaining_of_candidate hstrong hcandidate
  have hin := (mem_candidates.mp hcandidate).2.2
  have hsearchable : Searchable ((g.sub remaining).sub component).targets component :=
    { sorted := targets_sub_sorted (targets_sub_sorted h.targets_sorted remaining) component
      closed := fun v w hw => (mem_targets_sub.mp hw).2.1 }
  have hexplored := circuit_explored hsearchable component.length [] start
    ⟨CycleSearch.start (budget limit cycles.length), Blocks.empty⟩
    (ready_of_mem hin (Nat.le_refl _) (full_start _))
  rcases hexplored.extend.congr fun c =>
    through_component_iff h hsuffix hstrong hcandidate hleast hstart with ⟨new, hadds⟩
  have hnew : ((g.sub remaining).sub component).cyclesThrough
      (budget limit cycles.length) start = new := by
    rw [cyclesThrough]
    refine (congrArg List.reverse hadds.found).trans ?_
    simp [CycleSearch.start]
  rw [hnew]
  exact ⟨new, hadds.onto (CycleSearch.room_start_budget hroom)⟩

theorem rounds_extends (h : g.InducedBy t included)
    (hstrong : forall ks, (g.sub ks).StrongComponents (components (g.sub ks)))
    (limit : Int) (remaining : List Label) (cycles : List Cycle)
    (hsuffix : remaining <:+ g.keys) :
    CycleSearch.Extends
      (fun c => exists first, first ∈ remaining ∧ exists vs, g.IsElementaryFrom first c vs)
      (CycleSearch.after limit cycles)
      (CycleSearch.after limit (rounds components g limit remaining cycles)) := by
  fun_induction rounds components g limit remaining cycles with
  | case1 cycles =>
      refine CycleSearch.Extends.of_forall_not ?_
      rintro c ⟨first, hfirst, _⟩
      cases hfirst
  | case2 cycles first rest hfull =>
      exact CycleSearch.Extends.of_full (CycleSearch.full_after_iff.mpr hfull)
  | case3 cycles first rest hroom sub hnone =>
      rcases leastCyclic?_cases sub (components sub) with ⟨_, hempty⟩ | ⟨l, c, hsome, _⟩
      · refine CycleSearch.Extends.of_forall_not ?_
        rintro c ⟨l, hl, vs, hcycle⟩
        rcases hcycle.exists_candidate h hsuffix hl (hstrong _) with ⟨component, hmem⟩
        rw [hempty] at hmem
        cases hmem
      · rw [hnone] at hsome
        cases hsome
  | case4 cycles first rest hroom sub start component hsome ih =>
      rcases leastCyclic?_cases sub (components sub) with ⟨hnone, _⟩ | ⟨l, c, heq, hmem, hleast⟩
      · rw [hsome] at hnone
        cases hnone
      rw [hsome] at heq
      cases heq
      have hstart := mem_remaining_of_candidate (hstrong _) hmem
      have hsorted : (first :: rest).Pairwise (· < ·) := h.keys_sorted.sublist hsuffix.sublist
      have hopen : (CycleSearch.after limit cycles).full = false := by
        rw [← Bool.not_eq_true, CycleSearch.full_after_iff]
        exact hroom
      have hround := round_adds h hsuffix (hstrong _) hmem hleast hopen
      have hrest := ih ((List.drop_suffix _ _).trans hsuffix)
      refine (hround.trans hrest ?_ ?_).congr ?_
      · rintro c d ⟨vs, hc⟩ ⟨l, hl, vs', hd⟩
        exact isElementaryFrom_lt ((mem_drop_findIdx hsorted hstart).mp hl).2 hc hd
      · intro hfull
        rw [rounds_of_full hfull]
      · intro c
        constructor
        · rintro (hcycle | ⟨l, hl, hcycle⟩)
          · exact ⟨start, hstart, hcycle⟩
          · exact ⟨l, ((mem_drop_findIdx hsorted hstart).mp hl).1, hcycle⟩
        · rintro ⟨l, hl, vs, hcycle⟩
          rcases hcycle.exists_candidate h hsuffix hl (hstrong _) with ⟨other, hother⟩
          by_cases heq : l = start
          · subst heq
            exact Or.inl ⟨vs, hcycle⟩
          · have hlt : start < l := UInt32.lt_of_le_of_ne (hleast _ hother) (Ne.symm heq)
            exact Or.inr ⟨l, (mem_drop_findIdx hsorted hstart).mpr ⟨hl, hlt⟩, vs, hcycle⟩

/-- However a graph falls into components, a search in rounds finds the cycles that a search
through each label in turn finds, with any limit. -/
theorem cyclesInRounds_eq (h : g.InducedBy t included)
    (hstrong : forall ks, (g.sub ks).StrongComponents (components (g.sub ks))) (limit : Int) :
    g.cyclesInRounds components limit = g.elementaryCycles limit := by
  have hkeys : (g.keys.mergeSort fun a b => a ≤ b) = g.keys := by
    apply List.mergeSort_of_pairwise
    exact h.keys_sorted.imp fun hlt => decide_eq_true (UInt32.le_of_lt hlt)
  rcases elementaryCycles_adds h limit with ⟨s, hadds⟩
  rcases rounds_extends h hstrong limit g.keys [] List.suffix_rfl with ⟨new, hrounds⟩
  have hresult : g.cyclesInRounds components limit = new := by
    rw [cyclesInRounds, hkeys]
    exact List.reverse_injective (hrounds.found.trans (List.append_nil _))
  rw [hresult]
  rw [CycleSearch.after_nil] at hrounds
  refine (hrounds.congr ?_).unique hadds
  intro c
  constructor
  · rintro ⟨first, _, vs, hcycle⟩
    exact ⟨first, vs, hcycle⟩
  · rintro ⟨first, vs, hcycle⟩
    exact ⟨first, hcycle.mem_keys h, vs, hcycle⟩

end

/-!
## Components by reachability

There is a function that gives the components of every subgraph: the one that tests which labels
reach each other.
-/

theorem componentsOf_strongComponents {ls : List Label} (hnodup : ls.Nodup)
    (hcovers : forall l, l.toNat < g.order -> l ∈ ls)
    (hclosed : forall l m, m ∈ g.targets l -> m ∈ ls) :
    g.StrongComponents (Graph.componentsOf g.targets ls.length ls) where
  covers l hl := by
    rcases Graph.exists_mem_componentsOf ls.length (Nat.le_refl _) (hcovers l hl) with
      ⟨c, hc, hlc, _⟩
    exact ⟨c, hc, hlc⟩
  strong c hc l m hl hm :=
    (((Graph.componentsOf_isComponent _ hnodup hc).mem_iff l hl m).mp hm).2.1
  whole c hc l m hl hlm hml := by
    have hcomponent := (Graph.componentsOf_isComponent _ hnodup hc).mem_iff l hl
    refine (hcomponent m).mpr ⟨?_, hlm, hml⟩
    cases Relation.ReflTransGen.cases_tail hlm with
    | inl heq => exact heq ▸ ((hcomponent l).mp hl).1
    | inr hlast =>
        rcases hlast with ⟨k, _, hedge⟩
        exact hclosed k m hedge
  nodup c hc := (Graph.componentsOf_isComponent _ hnodup hc).nodup

def reachComponents (g : LabelGraph) : List (List Label) :=
  let ls := distinctLabels ((List.range g.order).map UInt32.ofNat)
  Graph.componentsOf g.targets ls.length ls

theorem sub_reachComponents (h : g.InducedBy t included) (ks : List Label) :
    (g.sub ks).StrongComponents (g.sub ks).reachComponents := by
  have hcovers : forall l : Label, l.toNat < (g.sub ks).order ->
      l ∈ distinctLabels ((List.range (g.sub ks).order).map UInt32.ofNat) := by
    intro l hl
    rw [mem_distinctLabels, List.mem_map]
    exact ⟨l.toNat, List.mem_range.mpr hl, UInt32.ofNat_toNat⟩
  refine componentsOf_strongComponents ((distinctLabels_pairwise _).imp UInt32.ne_of_lt) hcovers ?_
  intro l m hedge
  refine hcovers m ?_
  change m.toNat < g.order
  rw [h.order]
  exact ((h.edge_iff l m).mp (mem_targets_sub.mp hedge).2.2).2.2.2.2.2

theorem cyclesInRounds_reachComponents (h : g.InducedBy t included) (limit : Int) :
    g.cyclesInRounds reachComponents limit = g.elementaryCycles limit :=
  cyclesInRounds_eq h (sub_reachComponents h) limit

end LabelGraph
end TaintTrace
