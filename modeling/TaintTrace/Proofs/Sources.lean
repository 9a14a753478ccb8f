import Mathlib
import TaintTrace.Proofs.Walk
import TaintTrace.Trace.Sources

/-!
# What a search for sources finds

A label depends on itself and on all labels that the nodes of such labels refer to,
whatever they do to control flow.  The search for the sources of a label either finds
exactly the sources that the label depends on, each once, or it stops at a label that the
start depends on and that has no node.
-/

namespace TaintTrace
namespace Sources

section

variable (nodes : Label -> Except InvalidLabel Node)

def IsSource (s : FoundSource) : Prop :=
  exists controlFlow, nodes s.label = .ok ⟨.source s.file s.offset, controlFlow⟩

/-- A search that went through all labels that the root depends on. -/
structure Resolved (root : Label) (found : List FoundSource) : Prop where
  decodes : forall m, Depends nodes root m -> exists n, nodes m = .ok n
  finds : forall s, s ∈ found <-> Depends nodes root s.label ∧ IsSource nodes s
  distinct : (found.map FoundSource.label).Nodup

/-- A search that stopped at a label without node. -/
structure Stopped (root m : Label) (e : InvalidLabel) (found : List FoundSource) : Prop where
  depends : Depends nodes root m
  undecodable : nodes m = .error e
  finds : forall s, s ∈ found -> Depends nodes root s.label ∧ IsSource nodes s
  distinct : (found.map FoundSource.label).Nodup

end

/-- The fault of a search that stopped at a label without node. -/
def faultAt (root m : Label) (e : InvalidLabel) : Fault :=
  if m = root then .invalidLabel e else .within (.resolving root) (.invalidLabel e)

variable {nodes : Label -> Except InvalidLabel Node} {root : Label}

/-!
## Visited sources
-/

def sourceAt? (visit : Label × Node) : Option FoundSource :=
  match visit.2.origin with
  | .source file offset => some ⟨visit.1, file, offset⟩
  | _ => none

theorem sourceAt?_eq_some_iff {visit : Label × Node} {s : FoundSource} :
    sourceAt? visit = some s <-> visit.1 = s.label ∧ visit.2.origin = .source s.file s.offset := by
  rcases visit with ⟨l, origin, controlFlow⟩
  rcases s with ⟨label, file, offset⟩
  cases origin with
  | source file' offset' => simp [sourceAt?]
  | union left right => simp [sourceAt?]
  | range first last => simp [sourceAt?]

/-- The sources that a walk has come to, with their nodes, in the order of the visits. -/
def calls (w : Walk) : List (Label × Node) :=
  (w.visited.filter fun visit => visit.2.isSource).reverse

def found (w : Walk) : List FoundSource :=
  (w.visited.filterMap sourceAt?).reverse

theorem forall₂_sourceAt? (visited : List (Label × Node)) :
    List.Forall₂ (fun s visit => sourceAt? visit = some s) (visited.filterMap sourceAt?)
      (visited.filter fun visit => visit.2.isSource) := by
  induction visited with
  | nil => exact .nil
  | cons visit visited ih =>
      rcases visit with ⟨l, origin, controlFlow⟩
      cases origin with
      | source file offset => exact .cons rfl ih
      | union left right => exact ih
      | range first last => exact ih

theorem forall₂_calls (w : Walk) :
    List.Forall₂ (fun s visit => sourceAt? visit = some s) (found w) (calls w) :=
  List.rel_reverse (forall₂_sourceAt? w.visited)

theorem map_label_found (w : Walk) :
    (found w).map FoundSource.label = (calls w).map Prod.fst := by
  rw [← List.forall₂_eq_eq_eq, List.forall₂_map_left_iff, List.forall₂_map_right_iff]
  refine (forall₂_calls w).imp ?_
  intro s visit hs
  exact (sourceAt?_eq_some_iff.mp hs).1.symm

section

variable {limit : Int} {w : Walk} (h : w.Explores nodes limit root)
include h

theorem nodup_calls : ((calls w).map Prod.fst).Nodup := by
  rw [calls, List.map_reverse, List.nodup_reverse]
  exact h.distinct.sublist (List.filter_sublist.map Prod.fst)

theorem mem_calls_iff {m : Label} {n : Node} :
    (m, n) ∈ calls w <-> m ∈ w.labels ∧ nodes m = .ok n ∧ n.isSource = true := by
  rw [calls, List.mem_reverse, List.mem_filter, h.mem_visited_iff, and_assoc]

theorem mem_found_iff {s : FoundSource} :
    s ∈ found w <-> s.label ∈ w.labels ∧ IsSource nodes s := by
  rw [found, List.mem_reverse, List.mem_filterMap]
  constructor
  · intro hs
    rcases hs with ⟨⟨m, ⟨origin, controlFlow⟩⟩, hvisit, hs⟩
    rcases sourceAt?_eq_some_iff.mp hs with ⟨hlabel, horigin⟩
    dsimp only at hlabel horigin
    subst hlabel horigin
    exact ⟨List.mem_map_of_mem hvisit, controlFlow, h.decoded _ _ hvisit⟩
  · intro hs
    rcases hs with ⟨hlabel, controlFlow, hn⟩
    exact ⟨_, h.mem_visited_iff.mpr ⟨hlabel, hn⟩, sourceAt?_eq_some_iff.mpr ⟨rfl, rfl⟩⟩

theorem nodup_found : ((found w).map FoundSource.label).Nodup := by
  rw [map_label_found]
  exact nodup_calls h

end

/-!
## The search as a walk
-/

def outcome (root : Label) (w : Walk) : Walk.Ending -> List FoundSource × Option Fault
  | .stuck l e => (found w, some (faultAt root l e))
  | _ => (found w, none)

theorem outcome_fst (root : Label) (w : Walk) (ending : Walk.Ending) :
    (outcome root w ending).1 = found w := by
  cases ending with
  | stuck l e => rfl
  | complete => rfl
  | cut => rfl

theorem follows (nodes : Label -> Except InvalidLabel Node) (root : Label) :
    Walk.Follows nodes 0
      (fun fuel seen w =>
        (Lookup.sourcesFrom root fuel w.stack seen (w.visited.filterMap sourceAt?)).answer nodes)
      (outcome root) where
  skip := by
    intro l w fuel seen htracks hl
    cases fuel with
    | zero => rfl
    | succ fuel =>
        dsimp only
        rw [Lookup.sourcesFrom, Lookup.sourcesFrom,
          LabelSet.nextUnseen_cons_of_has ((htracks.has_iff l).mpr hl)]
  visit := by
    intro l n w fuel seen htracks hl _ hn
    dsimp only
    rw [Lookup.sourcesFrom, LabelSet.nextUnseen_cons_of_not_has (htracks.has_eq_false hl)]
    dsimp only
    rw [Lookup.answer_decode, hn, ← htracks.stack_visit hl]
    rcases n with ⟨origin, controlFlow⟩
    cases origin with
    | source file offset => rfl
    | union left right => rfl
    | range first last => rfl
  ends := by
    intro w ending fuel seen htracks hends
    cases hends with
    | complete =>
        cases fuel with
        | zero => rfl
        | succ fuel => rfl
    | cut _ hspent => exact absurd hspent.1 (Int.lt_irrefl 0)
    | @stuck l e stack visited hl _ he =>
        rcases htracks.exists_fuel hl with ⟨k, rfl⟩
        dsimp only
        rw [Lookup.sourcesFrom, LabelSet.nextUnseen_cons_of_not_has (htracks.has_eq_false hl)]
        dsimp only
        rw [Lookup.answer_decode, he]
        rfl

/-- Whatever room the bitmap has at first and however many labels may be looked at beyond
those there are, a search ends as its walk does. -/
theorem sourcesFrom_eq_outcome {w : Walk} {ending : Walk.Ending} {rounds : Nat} {seen : LabelSet}
    (hrounds : Label.total ≤ rounds) (hseen : forall m, seen.has m = false)
    (hwalk : Walk.Rounds nodes 0 (Walk.start root) w) (hends : Walk.Ends nodes 0 w ending) :
    (Lookup.sourcesFrom root rounds [root] seen []).answer nodes = outcome root w ending :=
  (follows nodes root).answer_eq hwalk hends (Walk.Tracks.start hrounds hseen)

theorem sources_eq_outcome {w : Walk} {ending : Walk.Ending}
    (hwalk : Walk.Rounds nodes 0 (Walk.start root) w) (hends : Walk.Ends nodes 0 w ending) :
    (Lookup.sources root).answer nodes = outcome root w ending :=
  sourcesFrom_eq_outcome (Nat.le_refl _) LabelSet.has_empty hwalk hends

theorem resolved_of_explores {w : Walk} (h : w.Explores nodes 0 root) (hstack : w.stack = []) :
    Resolved nodes root (found w) where
  decodes := by
    intro m hm
    rcases List.mem_map.mp ((h.mem_labels_iff hstack).mpr hm) with ⟨⟨m', n⟩, hvisit, rfl⟩
    exact ⟨n, h.decoded m' n hvisit⟩
  finds := by
    intro s
    rw [mem_found_iff h, h.mem_labels_iff hstack]
  distinct := nodup_found h

theorem stopped_of_explores {w : Walk} {l : Label} {e : InvalidLabel}
    (h : w.Explores nodes 0 root) (hl : l ∈ w.stack) (he : nodes l = .error e) :
    Stopped nodes root l e (found w) where
  depends := h.reached l (Or.inr hl)
  undecodable := he
  finds := by
    intro s hs
    rcases (mem_found_iff h).mp hs with ⟨hlabel, hsource⟩
    exact ⟨h.reached s.label (Or.inl hlabel), hsource⟩
  distinct := nodup_found h

theorem sources_cases (nodes : Label -> Except InvalidLabel Node) (root : Label) :
    (exists found, (Lookup.sources root).answer nodes = (found, none) ∧
      Resolved nodes root found) ∨
    exists found m e, (Lookup.sources root).answer nodes = (found, some (faultAt root m e)) ∧
      Stopped nodes root m e found := by
  rcases Walk.exists_rounds_ends nodes 0 (Walk.start root) with ⟨w, ending, hwalk, hends⟩
  have hexplores := (Walk.explores_start nodes 0 root).rounds hwalk
  rw [sources_eq_outcome hwalk hends]
  rcases hends.without_limit with ⟨rfl, hstack⟩ | ⟨m, e, rfl, hm, he⟩
  · exact Or.inl ⟨_, rfl, resolved_of_explores hexplores hstack⟩
  · exact Or.inr ⟨_, m, e, rfl, stopped_of_explores hexplores hm he⟩

theorem fault_eq_none_iff (nodes : Label -> Except InvalidLabel Node) (root : Label) :
    ((Lookup.sources root).answer nodes).2 = none <->
      forall m, Depends nodes root m -> exists n, nodes m = .ok n := by
  rcases sources_cases nodes root with ⟨found, hanswer, hresolved⟩ | ⟨found, m, e, hanswer, hstopped⟩
  · rw [hanswer]
    exact iff_of_true rfl hresolved.decodes
  · rw [hanswer]
    refine iff_of_false (Option.some_ne_none _) ?_
    intro hall
    rcases hall m hstopped.depends with ⟨n, hn⟩
    rw [hstopped.undecodable] at hn
    cases hn

/-- On every trace the search for the sources of a label ends: no walk goes on for ever, and
the search answers what its walk ends with, whatever room its bitmap has at first.  It
succeeds exactly if all labels that the label depends on have nodes, and then it has met
each source among them once, with its node, and nothing else.  If it fails, it has met
distinct sources that the label depends on, and it tells of a label without node that the
label depends on too. -/
theorem sources_exact (t : Trace) (l : Label) :
    (WellFounded fun after before => Walk.Round t.decode 0 before after) ∧
    exists w, Walk.Rounds t.decode 0 (Walk.start l) w ∧
      (forall after, ¬ Walk.Round t.decode 0 w after) ∧
      (forall rounds room, Label.total ≤ rounds ->
        (Lookup.sourcesFrom l rounds [l] (LabelSet.withRoom room) []).run t =
          (Lookup.sources l).run t) ∧
      List.Forall₂ (fun s visit => sourceAt? visit = some s) ((Lookup.sources l).run t).1
        (calls w) ∧
      ((calls w).map Prod.fst).Nodup ∧
      (((Lookup.sources l).run t).2 = none <->
        forall m, Depends t.decode l m -> exists n, t.decode m = .ok n) ∧
      (((Lookup.sources l).run t).2 = none -> forall m n, (m, n) ∈ calls w <->
        Depends t.decode l m ∧ t.decode m = .ok n ∧ n.isSource = true) ∧
      forall fault, ((Lookup.sources l).run t).2 = some fault ->
        (forall m n, (m, n) ∈ calls w ->
          Depends t.decode l m ∧ t.decode m = .ok n ∧ n.isSource = true) ∧
        exists m e, Depends t.decode l m ∧ t.decode m = .error e ∧ fault = faultAt l m e ∧
          ((forall k cause, t.decode k = .error cause -> cause.label = k) -> e.label = m) := by
  refine ⟨Walk.round_wellFounded t.decode 0, ?_⟩
  rcases Walk.exists_rounds_ends t.decode 0 (Walk.start l) with ⟨w, ending, hwalk, hends⟩
  have hexplores := (Walk.explores_start t.decode 0 l).rounds hwalk
  have hrun : (Lookup.sources l).run t = outcome l w ending := sources_eq_outcome hwalk hends
  have hcalls : forall m n, (m, n) ∈ calls w ->
      Depends t.decode l m ∧ t.decode m = .ok n ∧ n.isSource = true := by
    intro m n hm
    rcases (mem_calls_iff hexplores).mp hm with ⟨hlabel, hn, hsource⟩
    exact ⟨hexplores.reached m (Or.inl hlabel), hn, hsource⟩
  refine ⟨w, hwalk, fun after => hends.not_round, ?_, ?_, nodup_calls hexplores,
    fault_eq_none_iff t.decode l, ?_, ?_⟩
  · intro rounds room hrounds
    rw [hrun]
    exact sourcesFrom_eq_outcome hrounds (LabelSet.has_withRoom room) hwalk hends
  · rw [hrun, outcome_fst]
    exact forall₂_calls w
  · intro hnone m n
    rw [hrun] at hnone
    rcases hends.without_limit with ⟨rfl, hstack⟩ | ⟨_, _, rfl, _⟩
    · rw [mem_calls_iff hexplores, hexplores.mem_labels_iff hstack]
    · cases hnone
  · intro fault hfault
    rw [hrun] at hfault
    rcases hends.without_limit with ⟨rfl, _⟩ | ⟨m, e, rfl, hm, he⟩
    · cases hfault
    · cases hfault
      exact ⟨hcalls, m, e, hexplores.reached m (Or.inr hm), he, rfl, fun hnames => hnames m e he⟩

/-- Two bytes, three labels that refer to each other in a circle, and a label that refers to
one of them and to a label without node. -/
def whirl : Trace where
  headers := [⟨[0x66], 3, 1, 3⟩]
  labelCount := 7
  sinks := []
  taints := []
  decode := fun l =>
    match l.toNat with
    | 1 => .ok ⟨.source 0 0, false⟩
    | 2 => .ok ⟨.source 0 1, true⟩
    | 3 => .ok ⟨.union 5 1, false⟩
    | 4 => .ok ⟨.range 1 3, false⟩
    | 5 => .ok ⟨.union 4 3, false⟩
    | 6 => .ok ⟨.union 40 5, false⟩
    | _ => .error ⟨l, 6⟩

theorem sources_exact_whirl :
    ((Lookup.sources 5).run whirl).1 = [⟨1, 0, 0⟩, ⟨2, 0, 1⟩] ∧
      (forall m, Depends whirl.decode 5 m -> exists n, whirl.decode m = .ok n) ∧
      ((Lookup.sources 6).run whirl).1 = [⟨1, 0, 0⟩, ⟨2, 0, 1⟩] ∧
      exists m e, Depends whirl.decode 6 m ∧ whirl.decode m = .error e := by
  rcases sources_exact whirl 5 with ⟨_, _, _, _, _, _, _, hdecodes, _⟩
  rcases sources_exact whirl 6 with ⟨_, _, _, _, _, _, _, _, _, hfails⟩
  rcases hfails (.within (.resolving 6) (.invalidLabel ⟨40, 6⟩)) rfl with
    ⟨_, m, e, hdepends, he, _⟩
  exact ⟨rfl, hdecodes.mp rfl, rfl, m, e, hdepends, he⟩

end Sources
end TaintTrace
