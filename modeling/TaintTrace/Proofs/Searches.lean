import Mathlib
import TaintTrace.Proofs.Unhindered

/-!
# Searches that share a set

Several searches run one after the other, and each begins with the labels that those
before it have dealt with.  Together they yield each source once, and the set that they
leave holds what any of them can reach.  What a single search has to examine depends on
the set that it begins with, whatever this set is.
-/

namespace TaintTrace
namespace Unhindered

variable {nodes nodes' : Label -> Except InvalidLabel Node} {old : LabelSet} {root m : Label}

/-!
## Labels dealt with before

A search does not ask for the node of a label that it has seen.  So it makes no
difference what these nodes are, and they can be taken to lead nowhere.
-/

theorem not_has_of_grown {s s' : LabelSet} (h : forall l, s.has l = true -> s'.has l = true)
    {l : Label} (hl : s'.has l = false) : s.has l = false := by
  cases hs : s.has l with
  | false => rfl
  | true =>
      rw [h l hs] at hl
      cases hl

theorem visitChildren_congr (n : Node) (remaining i : Nat) (s : Unhindered)
    (h : forall l, s.seen.has l = false -> nodes l = nodes' l) :
    (visitChildren n remaining i s).answer nodes =
      (visitChildren n remaining i s).answer nodes' := by
  induction remaining generalizing i s with
  | zero => rfl
  | succ remaining ih =>
      rw [visitChildren]
      split
      · exact ih (i + 1) s h
      · rename_i hnew
        rw [Bool.not_eq_true] at hnew
        rw [Lookup.answer_decode, Lookup.answer_decode, ← h _ hnew]
        cases nodes (n.child i) with
        | error e => rfl
        | ok child =>
            apply ih
            intro l hl
            exact h l (not_has_of_grown (fun m hm => has_visitNode hm) hl)

theorem search_congr (fuel : Nat) (s : Unhindered)
    (h : forall l, s.seen.has l = false -> nodes l = nodes' l) :
    (search fuel s).answer nodes = (search fuel s).answer nodes' := by
  induction fuel generalizing s with
  | zero => rfl
  | succ fuel ih =>
      rw [search]
      cases hnext : s.seen.nextUnseen s.stack with
      | none => rfl
      | some found =>
          rcases found with ⟨l, rest⟩
          have hnew : s.seen.has l = false := (LabelSet.mem_of_nextUnseen hnext).2
          have hrest : forall m, (s.seen.insert l).has m = false -> nodes m = nodes' m := by
            intro m hm
            apply h m
            exact not_has_of_grown (fun k hk => LabelSet.has_insert_iff.mpr (Or.inr hk)) hm
          dsimp only
          rw [Lookup.answer_decode, Lookup.answer_decode, ← h l hnew]
          cases nodes l with
          | error e => rfl
          | ok n =>
              dsimp only
              split
              · exact ih _ hrest
              · split
                · exact ih _ hrest
                · rw [Lookup.answer_bind, Lookup.answer_bind,
                    ← visitChildren_congr n n.childCount 0 ⟨rest, s.seen.insert l, s.yielded⟩ hrest]
                  have hgrown := has_visitChildren nodes n n.childCount 0
                    ⟨rest, s.seen.insert l, s.yielded⟩
                  rcases hresult : (visitChildren n n.childCount 0
                    ⟨rest, s.seen.insert l, s.yielded⟩).answer nodes with ⟨s', e?⟩
                  rw [hresult] at hgrown
                  cases e? with
                  | some e => rfl
                  | none => exact ih s' fun k hk => hrest k (not_has_of_grown hgrown hk)

theorem unhinderedSources_congr (h : forall l, old.has l = false -> nodes l = nodes' l) :
    (Lookup.unhinderedSources root old).answer nodes =
      (Lookup.unhinderedSources root old).answer nodes' := by
  rw [Lookup.unhinderedSources, Lookup.answer_bind, Lookup.answer_bind,
    search_congr Label.total ⟨[root], old, []⟩ h]
  rfl

/-- The nodes of the labels outside of a set; those in it lead nowhere. -/
def outside (nodes : Label -> Except InvalidLabel Node) (old : LabelSet) (l : Label) :
    Except InvalidLabel Node :=
  if old.has l then .ok ⟨.source 0 0, true⟩ else nodes l

theorem outside_of_not_has (h : old.has m = false) : outside nodes old m = nodes m := by
  rw [outside, h]
  rfl

theorem leads_outside_iff {c : Label} :
    Leads (outside nodes old) m c <-> old.has m = false ∧ Leads nodes m c := by
  unfold Leads
  cases hm : old.has m with
  | false => simp [outside_of_not_has hm]
  | true => simp [outside, hm]

theorem settled_outside (nodes : Label -> Except InvalidLabel Node) (old : LabelSet) :
    Settled (outside nodes old) old := by
  constructor
  · intro m hm
    exact ⟨⟨.source 0 0, true⟩, by rw [outside, hm]; rfl⟩
  · intro m c hm hleads
    rw [leads_outside_iff, hm] at hleads
    cases hleads.1

/-!
## Faults
-/

/-- The labels that a search from `root` has to examine when it begins with the labels of
`old`: those that it reaches along labels which are not in this set. -/
def Examines (nodes : Label -> Except InvalidLabel Node) (old : LabelSet)
    (root m : Label) : Prop :=
  old.has root = false ∧
    Relation.ReflTransGen (fun l c => Leads nodes l c ∧ old.has c = false) root m

theorem examines_iff_outside :
    Examines nodes old root m <-> Reaches (outside nodes old) root m ∧ old.has m = false := by
  constructor
  · intro h
    rcases h with ⟨hroot, hpath⟩
    induction hpath with
    | refl => exact ⟨.refl, hroot⟩
    | tail _ hstep ih => exact ⟨ih.1.tail (leads_outside_iff.mpr ⟨ih.2, hstep.1⟩), hstep.2⟩
  · intro h
    rcases h with ⟨hreach, hm⟩
    induction hreach with
    | refl => exact ⟨hm, .refl⟩
    | tail _ hstep ih =>
        rcases leads_outside_iff.mp hstep with ⟨hnew, hleads⟩
        rcases ih hnew with ⟨hroot, hpath⟩
        exact ⟨hroot, hpath.tail ⟨hleads, hm⟩⟩

/-- What is reached from a label of a settled set is in it, so a path to a label outside
stays outside. -/
theorem Settled.examines_iff (h : Settled nodes old) :
    Examines nodes old root m <-> Reaches nodes root m ∧ old.has m = false := by
  constructor
  · intro hexamines
    refine ⟨?_, (examines_iff_outside.mp hexamines).2⟩
    exact Relation.ReflTransGen.mono (fun _ _ hstep => hstep.1) _ _ hexamines.2
  · intro hreach
    rcases hreach with ⟨hreach, hm⟩
    induction hreach with
    | refl => exact ⟨hm, .refl⟩
    | tail _ hleads ih =>
        rename_i l c _
        have hl : old.has l = false := by
          cases hl : old.has l with
          | false => rfl
          | true =>
              rw [h.closed l c hl hleads] at hm
              cases hm
        rcases ih hl with ⟨hroot, hpath⟩
        exact ⟨hroot, hpath.tail ⟨hleads, hm⟩⟩

theorem fault_iff_examines (nodes : Label -> Except InvalidLabel Node) (root : Label)
    (old : LabelSet) :
    ((Lookup.unhinderedSources root old).answer nodes).fault ≠ none <->
      exists m e, Examines nodes old root m ∧ nodes m = .error e := by
  have hsame : (Lookup.unhinderedSources root old).answer nodes =
      (Lookup.unhinderedSources root old).answer (outside nodes old) :=
    unhinderedSources_congr fun l hl => (outside_of_not_has hl).symm
  rw [hsame]
  constructor
  · intro hfault
    rcases unhinderedSources_cases (settled_outside nodes old) root with
      ⟨hnone, _⟩ | ⟨e, _, l, hreach, hnew, he⟩
    · exact absurd hnone hfault
    · rw [outside_of_not_has hnew] at he
      exact ⟨l, e, examines_iff_outside.mpr ⟨hreach, hnew⟩, he⟩
  · intro hexamines hnone
    rcases hexamines with ⟨l, e, hexamines, he⟩
    rcases examines_iff_outside.mp hexamines with ⟨hreach, hnew⟩
    rcases unhinderedSources_cases (settled_outside nodes old) root with
      ⟨_, hcomplete⟩ | ⟨e', hsome, _⟩
    · have hundecodable := (outside_of_not_has hnew).trans he
      exact hcomplete.not_stuck old e ⟨l, hreach, hnew, hundecodable⟩
    · rw [hnone] at hsome
      cases hsome

/-!
## Rounds

Each round of a search sees a label for the first time, so there are at most as many
rounds as there are labels, and a search that may take more of them ends alike.
-/

/-- The search for unhindered sources, with a given number of rounds. -/
def searchWithin (rounds : Nat) (l : Label) (seen : LabelSet) : Lookup UnhinderedSources :=
  (search rounds ⟨[l], seen, []⟩).bind fun (s, e) =>
    .done ⟨s.yielded.reverse, s.seen, e.map fun e => .within (.searching l) (.invalidLabel e)⟩

/-- What counts of the end of a search: the labels left on the stack do not. -/
def outcome (r : Unhindered × Option InvalidLabel) :
    LabelSet × List Label × Option InvalidLabel :=
  (r.1.seen, r.1.yielded, r.2)

theorem outcome_search_of_le (nodes : Label -> Except InvalidLabel Node) {fuel rounds : Nat}
    (s : Unhindered) (hfuel : s.seen.unseen.card ≤ fuel)
    (hrounds : fuel ≤ rounds) :
    outcome ((search rounds s).answer nodes) = outcome ((search fuel s).answer nodes) := by
  induction fuel generalizing rounds s with
  | zero =>
      cases rounds with
      | zero => rfl
      | succ rounds =>
          conv_lhs => rw [search]
          cases hnext : s.seen.nextUnseen s.stack with
          | none => rfl
          | some found =>
              have hnew := (LabelSet.mem_of_nextUnseen hnext).2
              rw [LabelSet.has_of_card_unseen_eq_zero (Nat.le_zero.mp hfuel)] at hnew
              cases hnew
  | succ fuel ih =>
      cases rounds with
      | zero => cases hrounds
      | succ rounds =>
          have hrounds : fuel ≤ rounds := Nat.le_of_succ_le_succ hrounds
          rw [search, search]
          cases hnext : s.seen.nextUnseen s.stack with
          | none => rfl
          | some found =>
              rcases found with ⟨l, rest⟩
              have hnew := (LabelSet.mem_of_nextUnseen hnext).2
              have hless : (s.seen.insert l).unseen.card ≤ fuel :=
                Nat.le_of_lt_succ (Nat.lt_of_lt_of_le (LabelSet.card_unseen_insert hnew) hfuel)
              dsimp only
              rw [Lookup.answer_decode, Lookup.answer_decode]
              cases nodes l with
              | error e => rfl
              | ok n =>
                  dsimp only
                  split
                  · exact ih _ hless hrounds
                  · split
                    · exact ih _ hless hrounds
                    · rw [Lookup.answer_bind, Lookup.answer_bind]
                      have hgrown := LabelSet.card_unseen_mono (has_visitChildren nodes n
                        n.childCount 0 ⟨rest, s.seen.insert l, s.yielded⟩)
                      rcases hresult : (visitChildren n n.childCount 0
                        ⟨rest, s.seen.insert l, s.yielded⟩).answer nodes with ⟨s', e?⟩
                      rw [hresult] at hgrown
                      cases e? with
                      | some e => rfl
                      | none => exact ih s' (Nat.le_trans hgrown hless) hrounds

theorem searchWithin_eq {rounds : Nat} (hrounds : Label.total ≤ rounds) (l : Label)
    (seen : LabelSet) :
    (searchWithin rounds l seen).answer nodes =
      (Lookup.unhinderedSources l seen).answer nodes := by
  have hsame := outcome_search_of_le nodes ⟨[l], seen, []⟩ (LabelSet.card_unseen_le seen) hrounds
  simp only [outcome, Prod.mk.injEq] at hsame
  rw [searchWithin, Lookup.unhinderedSources, Lookup.answer_bind, Lookup.answer_bind]
  simp only [Lookup.answer_done, hsame]

/-!
## One search after the other
-/

/-- Searches from some labels, each beginning with what the one before has seen. -/
def successive : List Label -> LabelSet -> Lookup (List UnhinderedSources)
  | [], _ => .done []
  | l :: ls, seen =>
      (Lookup.unhinderedSources l seen).bind fun found =>
        (successive ls found.seen).bind fun rest => .done (found :: rest)

def seenAfter (seen : LabelSet) : List UnhinderedSources -> LabelSet
  | [] => seen
  | found :: rest => seenAfter found.seen rest

def yieldedBy (found : List UnhinderedSources) : List Label :=
  found.flatMap UnhinderedSources.yielded

/-- What searches from some labels find together when nothing is left to do for the
labels of `old`. -/
structure Covers (nodes : Label -> Except InvalidLabel Node) (old : LabelSet)
    (labels : List Label) (found : List UnhinderedSources) : Prop where
  settled : Settled nodes (seenAfter old found)
  seen : forall m, (seenAfter old found).has m = true <->
    old.has m = true ∨ exists l, l ∈ labels ∧ Reaches nodes l m
  yields : forall m, m ∈ yieldedBy found <->
    old.has m = false ∧ (exists l, l ∈ labels ∧ Reaches nodes l m) ∧ OpenSource nodes m
  nodup : (yieldedBy found).Nodup

theorem covers_nil (h : Settled nodes old) : Covers nodes old [] [] where
  settled := h
  seen := by simp [seenAfter]
  yields := by simp [yieldedBy]
  nodup := List.nodup_nil

theorem Complete.covers {l : Label} {labels : List Label} {first : UnhinderedSources}
    {rest : List UnhinderedSources} (hfirst : Complete nodes old l first)
    (hrest : Covers nodes first.seen labels rest) :
    Covers nodes old (l :: labels) (first :: rest) := by
  constructor
  · exact hrest.settled
  · intro m
    rw [seenAfter, hrest.seen, hfirst.seen, or_assoc, List.exists_mem_cons_iff]
  · intro m
    have hnew : first.seen.has m = false <-> old.has m = false ∧ ¬ Reaches nodes l m := by
      rw [← Bool.not_eq_true, hfirst.seen, not_or, Bool.not_eq_true]
    rw [yieldedBy, List.flatMap_cons, List.mem_append, ← yieldedBy, hrest.yields, hfirst.yields,
      List.exists_mem_cons_iff, hnew]
    -- A source that both reach is yielded by the first one only.
    by_cases hreach : Reaches nodes l m
    · simp [hreach]
    · simp [hreach]
  · rw [yieldedBy, List.flatMap_cons, List.nodup_append, ← yieldedBy]
    refine ⟨hfirst.nodup, hrest.nodup, ?_⟩
    intro a ha b hb hab
    subst hab
    have hnew := ((hrest.yields a).mp hb).1
    rw [(hfirst.seen a).mpr (Or.inr ((hfirst.yields a).mp ha).2.1)] at hnew
    cases hnew

theorem successive_covers (labels : List Label) (hold : Settled nodes old)
    (hok : forall found, found ∈ (successive labels old).answer nodes -> found.fault = none) :
    Covers nodes old labels ((successive labels old).answer nodes) := by
  induction labels generalizing old with
  | nil => exact covers_nil hold
  | cons l labels ih =>
      rw [successive, Lookup.answer_bind, Lookup.answer_bind, Lookup.answer_done] at hok ⊢
      rw [List.forall_mem_cons] at hok
      rcases unhinderedSources_cases hold l with ⟨_, hcomplete⟩ | ⟨e, hfault, _⟩
      · exact hcomplete.covers (ih hcomplete.settled hok.2)
      · rw [hok.1] at hfault
        cases hfault

/-- Searches from any labels, one after the other, that begin with an empty set.  Each of
them ends by itself: it may take more rounds than there are labels and ends alike.  If all
of them succeed, then together they yield each source once that one of the labels reaches
unhindered and nothing else, they leave the set of all labels reached, and a next search
fails exactly if it reaches a label outside of this set that has no node.  A search that
begins with any other set, such as one left by a failed search, fails exactly if it has to
examine a label without node. -/
theorem shared_searches_exact (t : Trace) (labels : List Label) (start : LabelSet)
    (hstart : forall l, start.has l = false) :
    (forall rounds l seen, Label.total ≤ rounds ->
      (searchWithin rounds l seen).run t = (Lookup.unhinderedSources l seen).run t) ∧
    ((forall found, found ∈ (successive labels start).run t -> found.fault = none) ->
      (yieldedBy ((successive labels start).run t)).Nodup ∧
      (forall m, m ∈ yieldedBy ((successive labels start).run t) <->
        exists l, l ∈ labels ∧ Reaches t.decode l m ∧ OpenSource t.decode m) ∧
      (forall m, (seenAfter start ((successive labels start).run t)).has m = true <->
        exists l, l ∈ labels ∧ Reaches t.decode l m) ∧
      forall next,
        ((Lookup.unhinderedSources next
          (seenAfter start ((successive labels start).run t))).run t).fault ≠ none <->
        exists m e, Reaches t.decode next m ∧
          (seenAfter start ((successive labels start).run t)).has m = false ∧
          t.decode m = .error e) ∧
    forall l seen, ((Lookup.unhinderedSources l seen).run t).fault ≠ none <->
      exists m e, Examines t.decode seen l m ∧ t.decode m = .error e := by
  refine ⟨?_, ?_, ?_⟩
  · intro rounds l seen hrounds
    exact searchWithin_eq hrounds l seen
  · intro hok
    have hcovers := successive_covers labels (settled_of_forall_not_has hstart) hok
    refine ⟨hcovers.nodup, ?_, ?_, ?_⟩
    · intro m
      rw [Lookup.run, hcovers.yields, hstart m, and_iff_right rfl]
      simp only [← and_assoc, exists_and_right]
    · intro m
      rw [Lookup.run, hcovers.seen, hstart m]
      simp
    · intro next
      rw [Lookup.run, fault_iff_examines]
      simp only [hcovers.settled.examines_iff, Lookup.run, and_assoc]
  · intro l seen
    exact fault_iff_examines t.decode l seen

/-- Three bytes of which one affects control flow, their range, two unions that refer to
each other, and a union with a label that has no node. -/
def coil : Trace where
  headers := [⟨[0x66], 3, 1, 4⟩]
  labelCount := 8
  sinks := []
  taints := []
  decode := fun l =>
    match l.toNat with
    | 1 => .ok ⟨.source 0 0, false⟩
    | 2 => .ok ⟨.source 0 1, true⟩
    | 3 => .ok ⟨.source 0 2, false⟩
    | 4 => .ok ⟨.range 1 3, false⟩
    | 5 => .ok ⟨.union 6 4, false⟩
    | 6 => .ok ⟨.union 5 3, false⟩
    | 7 => .ok ⟨.union 8 6, false⟩
    | _ => .error ⟨l, 7⟩

theorem shared_searches_exact_coil :
    yieldedBy ((successive [6, 4, 5] (LabelSet.withRoom 8)).run coil) = [3, 1] ∧
      (exists l, l ∈ [6, 4, 5] ∧ Reaches coil.decode l 1 ∧ OpenSource coil.decode 1) ∧
      (¬ exists l, l ∈ [6, 4, 5] ∧ Reaches coil.decode l 7) ∧
      exists m e, Reaches coil.decode 7 m ∧ coil.decode m = .error e := by
  have hyields : yieldedBy ((successive [6, 4, 5] (LabelSet.withRoom 8)).run coil) = [3, 1] := rfl
  have hfaults : ((successive [6, 4, 5] (LabelSet.withRoom 8)).run coil).map
      UnhinderedSources.fault = [none, none, none] := rfl
  have hok : forall found, found ∈ (successive [6, 4, 5] (LabelSet.withRoom 8)).run coil ->
      found.fault = none := by
    intro found hfound
    have hmem := List.mem_map_of_mem (f := UnhinderedSources.fault) hfound
    rw [hfaults] at hmem
    simpa using hmem
  rcases (shared_searches_exact coil [6, 4, 5] (LabelSet.withRoom 8)
    (LabelSet.has_withRoom 8)).2.1 hok with ⟨_, hyield, hseen, hnext⟩
  refine ⟨hyields, (hyield 1).mp (by rw [hyields]; decide), ?_, ?_⟩
  · rw [← hseen 7, Bool.not_eq_true]
    rfl
  · rcases (hnext 7).mp (Option.some_ne_none _) with ⟨m, e, hreach, _, he⟩
    exact ⟨m, e, hreach, he⟩

end Unhindered
end TaintTrace
