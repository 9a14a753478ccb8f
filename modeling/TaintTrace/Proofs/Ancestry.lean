import Mathlib
import TaintTrace.Proofs.Sources
import TaintTrace.Trace.Ancestry

/-!
# What an ancestry holds

The search for the ancestry of a label is a walk that may visit a limited number of labels.
An ancestry that is said to be complete holds all labels that the label depends on, and one
that is not holds as many of them as the limit allows, and there are more.  The labels are
counted whether they have nodes or not.
-/

namespace TaintTrace
namespace Ancestry

section

variable (nodes : Label -> Except InvalidLabel Node) (root : Label)

/-- All labels that a label depends on, itself included. -/
def ancestors : Set Label :=
  { m | Sources.Depends nodes root m }

/-- Different ancestors of a label, each with its node. -/
structure Lists (a : Ancestry) : Prop where
  distinct : (a.nodes.map Prod.fst).Nodup
  decoded : forall m n, (m, n) ∈ a.nodes -> m ∈ ancestors nodes root ∧ nodes m = .ok n

structure ListsAll (a : Ancestry) : Prop extends Lists nodes root a where
  all : forall m, m ∈ a.nodes.map Prod.fst <-> m ∈ ancestors nodes root

end

variable {nodes : Label -> Except InvalidLabel Node} {root : Label} {limit : Int} {w : Walk}

/-!
## The search as a walk
-/

def outcome (w : Walk) : Walk.Ending -> Except InvalidLabel Ancestry
  | .complete => .ok ⟨w.visited.reverse, true⟩
  | .cut => .ok ⟨w.visited.reverse, false⟩
  | .stuck _ e => .error e

theorem follows (nodes : Label -> Except InvalidLabel Node) (limit : Int) :
    Walk.Follows nodes limit
      (fun fuel seen w =>
        (Lookup.ancestryFrom limit fuel w.stack seen w.visited w.visited.length).answer nodes)
      outcome where
  skip := by
    intro l w fuel seen htracks hl
    cases fuel with
    | zero => rfl
    | succ fuel =>
        dsimp only
        rw [Lookup.ancestryFrom, Lookup.ancestryFrom,
          LabelSet.nextUnseen_cons_of_has ((htracks.has_iff l).mpr hl)]
  visit := by
    intro l n w fuel seen htracks hl hspent hn
    unfold Walk.Spent at hspent
    dsimp only
    rw [Lookup.ancestryFrom, LabelSet.nextUnseen_cons_of_not_has (htracks.has_eq_false hl)]
    dsimp only
    rw [if_neg hspent, Lookup.answer_decode, hn, ← htracks.stack_visit hl]
    rfl
  ends := by
    intro w ending fuel seen htracks hends
    cases hends with
    | complete =>
        cases fuel with
        | zero => rfl
        | succ fuel => rfl
    | @cut l stack visited hl hspent =>
        rcases htracks.exists_fuel hl with ⟨k, rfl⟩
        unfold Walk.Spent at hspent
        dsimp only at hspent ⊢
        rw [Lookup.ancestryFrom, LabelSet.nextUnseen_cons_of_not_has (htracks.has_eq_false hl)]
        dsimp only
        rw [if_pos hspent]
        rfl
    | @stuck l e stack visited hl hspent he =>
        rcases htracks.exists_fuel hl with ⟨k, rfl⟩
        unfold Walk.Spent at hspent
        dsimp only at hspent ⊢
        rw [Lookup.ancestryFrom, LabelSet.nextUnseen_cons_of_not_has (htracks.has_eq_false hl)]
        dsimp only
        rw [if_neg hspent, Lookup.answer_decode, he]
        rfl

theorem ancestryFrom_eq_outcome {ending : Walk.Ending} {rounds : Nat}
    (hrounds : Label.total ≤ rounds) (hwalk : Walk.Rounds nodes limit (Walk.start root) w)
    (hends : Walk.Ends nodes limit w ending) :
    (Lookup.ancestryFrom limit rounds [root] LabelSet.empty [] 0).answer nodes =
      outcome w ending :=
  (follows nodes limit).answer_eq hwalk hends (Walk.Tracks.start hrounds LabelSet.has_empty)

/-!
## Counting ancestors
-/

theorem length_le_ncard {ls : List Label} (hdistinct : ls.Nodup)
    (hls : forall m, m ∈ ls -> m ∈ ancestors nodes root) :
    ls.length ≤ (ancestors nodes root).ncard := by
  have hsubset : (ls.toFinset : Set Label) ⊆ ancestors nodes root := by
    intro m hm
    exact hls m (List.mem_toFinset.mp hm)
  calc ls.length = ls.toFinset.card := (List.toFinset_card_of_nodup hdistinct).symm
    _ = (ls.toFinset : Set Label).ncard := (Set.ncard_coe_finset _).symm
    _ ≤ (ancestors nodes root).ncard := Set.ncard_le_ncard hsubset

theorem length_eq_ncard {ls : List Label} {set : Set Label} (hdistinct : ls.Nodup)
    (hls : forall m, m ∈ ls <-> m ∈ set) : ls.length = set.ncard := by
  have hsame : set = (ls.toFinset : Set Label) := by
    ext m
    rw [← hls, Finset.mem_coe, List.mem_toFinset]
  rw [hsame, Set.ncard_coe_finset, List.toFinset_card_of_nodup hdistinct]

/-!
## How a search ends
-/

theorem lists_of_explores (h : w.Explores nodes limit root) (complete : Bool) :
    Lists nodes root ⟨w.visited.reverse, complete⟩ where
  distinct := by
    rw [List.map_reverse, List.nodup_reverse]
    exact h.distinct
  decoded := by
    intro m n hm
    have hvisit := List.mem_reverse.mp hm
    exact ⟨h.reached m (Or.inl (List.mem_map_of_mem hvisit)), h.decoded m n hvisit⟩

theorem listsAll_of_explores (h : w.Explores nodes limit root) (hstack : w.stack = []) :
    ListsAll nodes root ⟨w.visited.reverse, true⟩ where
  toLists := lists_of_explores h true
  all := by
    intro m
    rw [List.map_reverse, List.mem_reverse]
    exact h.mem_labels_iff hstack

theorem ListsAll.decodes {a : Ancestry} (h : ListsAll nodes root a) {m : Label}
    (hm : m ∈ ancestors nodes root) : exists n, nodes m = .ok n := by
  rcases List.mem_map.mp ((h.all m).mpr hm) with ⟨⟨m', n⟩, hmem, rfl⟩
  exact ⟨n, (h.decoded m' n hmem).2⟩

theorem length_lt_ncard {l : Label} (h : w.Explores nodes limit root) (hl : l ∈ w.stack)
    (hnew : l ∉ w.labels) : w.visited.length < (ancestors nodes root).ncard := by
  have hle : (l :: w.labels).length ≤ (ancestors nodes root).ncard := by
    refine length_le_ncard (List.nodup_cons.mpr ⟨hnew, h.distinct⟩) ?_
    intro m hm
    rcases List.mem_cons.mp hm with rfl | hm
    · exact h.reached m (Or.inr hl)
    · exact h.reached m (Or.inl hm)
  rwa [List.length_cons, Walk.labels, List.length_map] at hle

inductive Answers (nodes : Label -> Except InvalidLabel Node) (root : Label) (limit : Int) :
    Except InvalidLabel Ancestry -> Prop where
  | all {a : Ancestry} : a.complete = true -> ListsAll nodes root a ->
      (0 < limit -> (ancestors nodes root).ncard ≤ limit) -> Answers nodes root limit (.ok a)
  | some {a : Ancestry} : a.complete = false -> Lists nodes root a -> 0 < limit ->
      a.nodes.length = limit -> limit < (ancestors nodes root).ncard ->
      Answers nodes root limit (.ok a)
  | fault {m : Label} {e : InvalidLabel} : m ∈ ancestors nodes root -> nodes m = .error e ->
      Answers nodes root limit (.error e)

theorem answers_of_ends {ending : Walk.Ending} (h : w.Explores nodes limit root)
    (hends : Walk.Ends nodes limit w ending) : Answers nodes root limit (outcome w ending) := by
  cases hends with
  | complete =>
      have hall := listsAll_of_explores h rfl
      refine .all rfl hall ?_
      intro hlimit
      rw [← length_eq_ncard hall.distinct hall.all, List.length_map, List.length_reverse]
      exact h.within hlimit
  | @cut l stack visited hl hspent =>
      have hlength : (visited.length : Int) = limit :=
        Int.le_antisymm (h.within hspent.1) hspent.2
      refine .some rfl (lists_of_explores h false) hspent.1 ?_ ?_
      · rw [List.length_reverse]
        exact hlength
      · rw [← hlength]
        exact Int.ofNat_lt.mpr (length_lt_ncard h List.mem_cons_self hl)
  | stuck _ _ he => exact .fault (h.reached _ (Or.inr List.mem_cons_self)) he

theorem ancestry_answers (nodes : Label -> Except InvalidLabel Node) (root : Label)
    (limit : Int) : Answers nodes root limit ((Lookup.ancestry root limit).answer nodes) := by
  rcases Walk.exists_rounds_ends nodes limit (Walk.start root) with ⟨w, ending, hwalk, hends⟩
  have hanswer : (Lookup.ancestry root limit).answer nodes = outcome w ending :=
    ancestryFrom_eq_outcome (Nat.le_succ _) hwalk hends
  rw [hanswer]
  exact answers_of_ends ((Walk.explores_start nodes limit root).rounds hwalk) hends

variable {a : Ancestry} {e : InvalidLabel}

theorem Answers.complete (h : Answers nodes root limit (.ok a)) (hcomplete : a.complete = true) :
    ListsAll nodes root a ∧ (0 < limit -> (ancestors nodes root).ncard ≤ limit) := by
  cases h with
  | all _ hall hcount => exact ⟨hall, hcount⟩
  | some hcut =>
      rw [hcomplete] at hcut
      cases hcut

theorem Answers.cut (h : Answers nodes root limit (.ok a)) (hcut : a.complete = false) :
    Lists nodes root a ∧ 0 < limit ∧ a.nodes.length = limit ∧
      limit < (ancestors nodes root).ncard := by
  cases h with
  | all hcomplete =>
      rw [hcut] at hcomplete
      cases hcomplete
  | some _ hlists hlimit hlength hcount => exact ⟨hlists, hlimit, hlength, hcount⟩

theorem Answers.ancestor (h : Answers nodes root limit (.error e)) :
    exists m, m ∈ ancestors nodes root ∧ nodes m = .error e := by
  cases h with
  | fault hm he => exact ⟨_, hm, he⟩

theorem exists_ok_of_decodes
    (h : forall m, m ∈ ancestors nodes root -> exists n, nodes m = .ok n) (limit : Int) :
    exists a, (Lookup.ancestry root limit).answer nodes = .ok a := by
  have hanswers := ancestry_answers nodes root limit
  cases hanswer : (Lookup.ancestry root limit).answer nodes with
  | ok a => exact ⟨a, rfl⟩
  | error e =>
      rw [hanswer] at hanswers
      rcases hanswers.ancestor with ⟨m, hm, he⟩
      rcases h m hm with ⟨n, hn⟩
      rw [he] at hn
      cases hn

/-- On every trace the search for an ancestry ends: no walk goes on for ever, and the search
answers what its walk ends with.  Without a limit it succeeds exactly if all ancestors have
nodes, and then it lists them all.  With a limit, a complete ancestry lists all of them and
there are not more than the limit, and one that is not complete lists as many as the limit
says and there are more.  If all ancestors have nodes, the ancestry is complete exactly if
there are not more than the limit. -/
theorem ancestry_exact (t : Trace) (l : Label) (limit : Int) :
    (WellFounded fun after before => Walk.Round t.decode limit before after) ∧
    (exists w ending, Walk.Rounds t.decode limit (Walk.start l) w ∧
      Walk.Ends t.decode limit w ending ∧ (Lookup.ancestry l limit).run t = outcome w ending) ∧
    (limit ≤ 0 ->
      ((exists a, (Lookup.ancestry l limit).run t = .ok a) <->
        forall m, m ∈ ancestors t.decode l -> exists n, t.decode m = .ok n) ∧
      forall a, (Lookup.ancestry l limit).run t = .ok a ->
        a.complete = true ∧ ListsAll t.decode l a) ∧
    (0 < limit -> forall a, (Lookup.ancestry l limit).run t = .ok a -> a.complete = true ->
      ListsAll t.decode l a ∧ (ancestors t.decode l).ncard ≤ limit) ∧
    (forall a, (Lookup.ancestry l limit).run t = .ok a -> a.complete = false ->
      Lists t.decode l a ∧ a.nodes.length = limit ∧ limit < (ancestors t.decode l).ncard) ∧
    (0 < limit -> (forall m, m ∈ ancestors t.decode l -> exists n, t.decode m = .ok n) ->
      exists a, (Lookup.ancestry l limit).run t = .ok a ∧
        (a.complete = true <-> (ancestors t.decode l).ncard ≤ limit)) ∧
    forall e, (Lookup.ancestry l limit).run t = .error e ->
      exists m, m ∈ ancestors t.decode l ∧ t.decode m = .error e := by
  have hanswers : forall r, (Lookup.ancestry l limit).run t = r -> Answers t.decode l limit r := by
    intro r hr
    rw [← hr]
    exact ancestry_answers t.decode l limit
  refine ⟨Walk.round_wellFounded t.decode limit, ?_, ?_, ?_, ?_, ?_, ?_⟩
  · rcases Walk.exists_rounds_ends t.decode limit (Walk.start l) with ⟨w, ending, hwalk, hends⟩
    exact ⟨w, ending, hwalk, hends, ancestryFrom_eq_outcome (Nat.le_succ _) hwalk hends⟩
  · intro hlimit
    have hcomplete : forall a, (Lookup.ancestry l limit).run t = .ok a ->
        a.complete = true ∧ ListsAll t.decode l a := by
      intro a ha
      cases hc : a.complete with
      | true => exact ⟨rfl, ((hanswers _ ha).complete hc).1⟩
      | false => exact absurd ((hanswers _ ha).cut hc).2.1 (Int.not_lt.mpr hlimit)
    refine ⟨⟨?_, fun hall => exists_ok_of_decodes hall limit⟩, hcomplete⟩
    intro hok m hm
    rcases hok with ⟨a, ha⟩
    exact (hcomplete a ha).2.decodes hm
  · intro hlimit a ha hc
    rcases (hanswers _ ha).complete hc with ⟨hall, hcount⟩
    exact ⟨hall, hcount hlimit⟩
  · intro a ha hc
    rcases (hanswers _ ha).cut hc with ⟨hlists, _, hlength, hcount⟩
    exact ⟨hlists, hlength, hcount⟩
  · intro hlimit hall
    rcases exists_ok_of_decodes hall limit with ⟨a, ha⟩
    refine ⟨a, ha, fun hc => ((hanswers _ ha).complete hc).2 hlimit, ?_⟩
    intro hcount
    cases hc : a.complete with
    | true => rfl
    | false => exact absurd ((hanswers _ ha).cut hc).2.2.2 (Int.not_lt.mpr hcount)
  · intro e he
    exact (hanswers _ he).ancestor

/-- The circle of three labels with its two bytes is five labels, not four. -/
theorem ancestry_exact_whirl : (ancestors Sources.whirl.decode 5).ncard = 5 := by
  rcases ancestry_exact Sources.whirl 5 5 with ⟨_, _, _, hcomplete, _⟩
  rcases ancestry_exact Sources.whirl 5 4 with ⟨_, _, _, _, hcut, _⟩
  have hle := (hcomplete (by decide) _ rfl rfl).2
  have hlt := (hcut _ rfl rfl).2.2
  omega

end Ancestry
end TaintTrace
