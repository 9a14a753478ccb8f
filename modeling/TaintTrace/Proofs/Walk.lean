import Mathlib
import TaintTrace.Proofs.LabelSet
import TaintTrace.Proofs.Node
import TaintTrace.Trace.Lookup

/-!
# Walks through the labels that a label depends on

Searches for sources and for ancestors walk alike: they take labels off a stack, pass over
those they have visited, and put the children of the others on the stack.  A walk is
described here without fuel and without a bitmap, one round at a time.  On any trace it
comes to an end, and until then one invariant says which labels it has visited.  A search
that goes on like a walk from round to round gives the answer that the walk ends with.
-/

namespace TaintTrace

namespace Sources

section

variable (nodes : Label -> Except InvalidLabel Node)

def Refers (l c : Label) : Prop :=
  exists n, nodes l = .ok n ∧ c ∈ n.children

def Depends (root l : Label) : Prop :=
  Relation.ReflTransGen (Refers nodes) root l

end

end Sources

/-- A walk between two rounds: the labels to look at, and those visited with their nodes,
the last one first. -/
structure Walk where
  stack : List Label
  visited : List (Label × Node)

namespace Walk

def labels (w : Walk) : List Label :=
  w.visited.map Prod.fst

def start (root : Label) : Walk :=
  ⟨[root], []⟩

def visit (l : Label) (n : Node) (w : Walk) : Walk :=
  ⟨LabelSet.pushAll (n.children.filter fun c => c ∉ l :: w.labels) w.stack,
    (l, n) :: w.visited⟩

/-- Whether as many labels are visited as a limit allows; a limit that is not positive is
no limit. -/
def Spent (limit : Int) (w : Walk) : Prop :=
  0 < limit ∧ limit ≤ w.visited.length

section

variable (nodes : Label -> Except InvalidLabel Node) (limit : Int)

inductive Round : Walk -> Walk -> Prop where
  | skip {l : Label} {stack : List Label} {visited : List (Label × Node)} :
      l ∈ labels ⟨stack, visited⟩ -> Round ⟨l :: stack, visited⟩ ⟨stack, visited⟩
  | visit {l : Label} {n : Node} {stack : List Label} {visited : List (Label × Node)} :
      l ∉ labels ⟨stack, visited⟩ -> ¬ Spent limit ⟨stack, visited⟩ -> nodes l = .ok n ->
        Round ⟨l :: stack, visited⟩ (visit l n ⟨stack, visited⟩)

inductive Ending where
  | complete
  | cut
  | stuck (label : Label) (cause : InvalidLabel)

/-- A walk is over when nothing is left to look at, or when its next label is new and may
not be visited or has no node. -/
inductive Ends : Walk -> Ending -> Prop where
  | complete {visited : List (Label × Node)} : Ends ⟨[], visited⟩ .complete
  | cut {l : Label} {stack : List Label} {visited : List (Label × Node)} :
      l ∉ labels ⟨stack, visited⟩ -> Spent limit ⟨stack, visited⟩ ->
        Ends ⟨l :: stack, visited⟩ .cut
  | stuck {l : Label} {e : InvalidLabel} {stack : List Label}
      {visited : List (Label × Node)} :
      l ∉ labels ⟨stack, visited⟩ -> ¬ Spent limit ⟨stack, visited⟩ -> nodes l = .error e ->
        Ends ⟨l :: stack, visited⟩ (.stuck l e)

abbrev Rounds : Walk -> Walk -> Prop :=
  Relation.ReflTransGen (Round nodes limit)

end

variable {nodes : Label -> Except InvalidLabel Node} {limit : Int} {root : Label}

/-!
## Every walk ends

A visit leaves fewer labels to be visited, and passing over a label leaves as many of them
and a shorter stack.
-/

def remaining (w : Walk) : Nat :=
  (w.labels.toFinsetᶜ).card

theorem labels_visit (l : Label) (n : Node) (w : Walk) : (w.visit l n).labels = l :: w.labels :=
  rfl

theorem remaining_le (w : Walk) : w.remaining ≤ Label.total :=
  Nat.le_trans (Finset.card_le_univ _) LabelSet.card_label_le

theorem remaining_visit {l : Label} {w : Walk} (n : Node) (hl : l ∉ w.labels) :
    (w.visit l n).remaining < w.remaining := by
  unfold remaining
  rw [labels_visit, List.toFinset_cons]
  apply Finset.card_lt_card
  rw [Finset.compl_ssubset_compl]
  apply Finset.ssubset_insert
  rwa [List.mem_toFinset]

theorem Round.lowers {w w' : Walk} (h : Round nodes limit w w') :
    Prod.Lex (fun k m : Nat => k < m) (fun k m : Nat => k < m)
      (w'.remaining, w'.stack.length) (w.remaining, w.stack.length) := by
  cases h with
  | skip _ => exact Prod.Lex.right _ (Nat.lt_succ_self _)
  | visit hl _ _ => exact Prod.Lex.left _ _ (remaining_visit _ hl)

theorem round_wellFounded (nodes : Label -> Except InvalidLabel Node) (limit : Int) :
    WellFounded fun after before => Round nodes limit before after := by
  have hlex : WellFounded (Prod.Lex (fun k m : Nat => k < m) (fun k m : Nat => k < m)) :=
    WellFounded.prod_lex wellFounded_lt wellFounded_lt
  exact Subrelation.wf Round.lowers
    (InvImage.wf (fun w : Walk => (w.remaining, w.stack.length)) hlex)

theorem exists_ends_or_round (nodes : Label -> Except InvalidLabel Node) (limit : Int) (w : Walk) :
    (exists ending, Ends nodes limit w ending) ∨ exists w', Round nodes limit w w' := by
  rcases w with ⟨stack, visited⟩
  cases stack with
  | nil => exact Or.inl ⟨.complete, .complete⟩
  | cons l stack =>
      let w : Walk := ⟨stack, visited⟩
      by_cases hl : l ∈ w.labels
      · exact Or.inr ⟨w, .skip hl⟩
      · by_cases hspent : w.Spent limit
        · exact Or.inl ⟨.cut, .cut hl hspent⟩
        · cases hn : nodes l with
          | error e => exact Or.inl ⟨.stuck l e, .stuck hl hspent hn⟩
          | ok n => exact Or.inr ⟨w.visit l n, .visit hl hspent hn⟩

theorem Ends.not_round {w w' : Walk} {ending : Ending} (h : Ends nodes limit w ending) :
    ¬ Round nodes limit w w' := by
  intro hround
  cases h with
  | complete => cases hround
  | cut hl hspent =>
      cases hround with
      | skip hmem => exact hl hmem
      | visit _ hfree _ => exact hfree hspent
  | stuck hl _ he =>
      cases hround with
      | skip hmem => exact hl hmem
      | visit _ _ hn =>
          rw [he] at hn
          cases hn

theorem Ends.without_limit {w : Walk} {ending : Ending} (h : Ends nodes 0 w ending) :
    (ending = .complete ∧ w.stack = []) ∨
      exists m e, ending = .stuck m e ∧ m ∈ w.stack ∧ nodes m = .error e := by
  cases h with
  | complete => exact Or.inl ⟨rfl, rfl⟩
  | cut _ hspent => exact absurd hspent.1 (Int.lt_irrefl 0)
  | stuck _ _ he => exact Or.inr ⟨_, _, rfl, List.mem_cons_self, he⟩

theorem exists_rounds_ends (nodes : Label -> Except InvalidLabel Node) (limit : Int) (w : Walk) :
    exists w' ending, Rounds nodes limit w w' ∧ Ends nodes limit w' ending := by
  induction w using (round_wellFounded nodes limit).induction with
  | _ w ih =>
      rcases exists_ends_or_round nodes limit w with ⟨ending, hends⟩ | ⟨w₁, hround⟩
      · exact ⟨w, ending, .refl, hends⟩
      · rcases ih w₁ hround with ⟨w', ending, hrounds, hends⟩
        exact ⟨w', ending, .head hround hrounds, hends⟩

/-!
## What a walk has visited
-/

/-- The invariant of a walk: it keeps to what the root depends on and to its limit, and what
a visited label refers to is visited or on the stack. -/
structure Explores (nodes : Label -> Except InvalidLabel Node) (limit : Int) (root : Label)
    (w : Walk) : Prop where
  decoded : forall m n, (m, n) ∈ w.visited -> nodes m = .ok n
  reached : forall m, m ∈ w.labels ∨ m ∈ w.stack -> Sources.Depends nodes root m
  closed : forall m c, m ∈ w.labels -> Sources.Refers nodes m c -> c ∈ w.labels ∨ c ∈ w.stack
  rooted : root ∈ w.labels ∨ root ∈ w.stack
  distinct : w.labels.Nodup
  within : 0 < limit -> w.visited.length ≤ limit

theorem explores_start (nodes : Label -> Except InvalidLabel Node) (limit : Int) (root : Label) :
    Explores nodes limit root (start root) where
  decoded := by
    intro m n hm
    cases hm
  reached := by
    intro m hm
    rcases hm with hm | hm
    · cases hm
    · rw [List.mem_singleton.mp hm]
      exact .refl
  closed := by
    intro m c hm
    cases hm
  rooted := Or.inr (List.mem_singleton.mpr rfl)
  distinct := List.nodup_nil
  within := Int.le_of_lt

namespace Explores

variable {w w' : Walk} {l : Label} {n : Node}

theorem skip (h : Explores nodes limit root ⟨l :: w.stack, w.visited⟩) (hl : l ∈ w.labels) :
    Explores nodes limit root w := by
  -- A label on the stack is still there, or it is the one that was visited before.
  have hkeep : forall m, m ∈ w.labels ∨ m ∈ l :: w.stack -> m ∈ w.labels ∨ m ∈ w.stack := by
    intro m hm
    rcases hm with hm | hm
    · exact Or.inl hm
    · rcases List.mem_cons.mp hm with hm | hm
      · exact Or.inl (hm ▸ hl)
      · exact Or.inr hm
  constructor
  · exact h.decoded
  · intro m hm
    exact h.reached m (hm.imp_right (List.mem_cons_of_mem l))
  · intro m c hm hc
    exact hkeep c (h.closed m c hm hc)
  · exact hkeep root h.rooted
  · exact h.distinct
  · exact h.within

theorem visit (h : Explores nodes limit root ⟨l :: w.stack, w.visited⟩) (hl : l ∉ w.labels)
    (hspent : ¬ w.Spent limit) (hn : nodes l = .ok n) :
    Explores nodes limit root (w.visit l n) := by
  have hdepends : Sources.Depends nodes root l := h.reached l (Or.inr List.mem_cons_self)
  have hstack : forall m, m ∈ (w.visit l n).stack <->
      (m ∈ n.children ∧ m ∉ l :: w.labels) ∨ m ∈ w.stack := by
    intro m
    rw [Walk.visit, LabelSet.mem_pushAll, List.mem_filter, decide_eq_true_eq]
  have hkeep : forall m, m ∈ w.labels ∨ m ∈ l :: w.stack ->
      m ∈ (w.visit l n).labels ∨ m ∈ (w.visit l n).stack := by
    intro m hm
    rw [hstack, labels_visit, List.mem_cons]
    rcases hm with hm | hm
    · exact Or.inl (Or.inr hm)
    · rcases List.mem_cons.mp hm with hm | hm
      · exact Or.inl (Or.inl hm)
      · exact Or.inr (Or.inr hm)
  constructor
  · intro m k hm
    rcases List.mem_cons.mp hm with hm | hm
    · cases hm
      exact hn
    · exact h.decoded m k hm
  · intro m hm
    rw [hstack, labels_visit, List.mem_cons] at hm
    rcases hm with (rfl | hm) | ⟨hchild, _⟩ | hm
    · exact hdepends
    · exact h.reached m (Or.inl hm)
    · exact hdepends.tail ⟨n, hn, hchild⟩
    · exact h.reached m (Or.inr (List.mem_cons_of_mem l hm))
  · intro m c hm hc
    rcases List.mem_cons.mp hm with rfl | hm
    · rcases hc with ⟨k, hk, hchild⟩
      rw [hn] at hk
      cases hk
      by_cases hnew : c ∈ m :: w.labels
      · exact Or.inl hnew
      · exact Or.inr ((hstack c).mpr (Or.inl ⟨hchild, hnew⟩))
    · exact hkeep c (h.closed m c hm hc)
  · exact hkeep root h.rooted
  · exact List.nodup_cons.mpr ⟨hl, h.distinct⟩
  · intro hlimit
    have hroom : ¬ limit ≤ w.visited.length := fun hle => hspent ⟨hlimit, hle⟩
    rw [Walk.visit, List.length_cons]
    omega

theorem round (h : Explores nodes limit root w) (hround : Round nodes limit w w') :
    Explores nodes limit root w' := by
  cases hround with
  | skip hl => exact h.skip hl
  | visit hl hspent hn => exact h.visit hl hspent hn

theorem rounds (h : Explores nodes limit root w) (hrounds : Rounds nodes limit w w') :
    Explores nodes limit root w' := by
  induction hrounds with
  | refl => exact h
  | tail _ hround ih => exact ih.round hround

theorem mem_visited_iff (h : Explores nodes limit root w) {m : Label} :
    (m, n) ∈ w.visited <-> m ∈ w.labels ∧ nodes m = .ok n := by
  constructor
  · intro hm
    exact ⟨List.mem_map_of_mem hm, h.decoded m n hm⟩
  · intro hm
    rcases hm with ⟨hm, hn⟩
    rcases List.mem_map.mp hm with ⟨⟨m', k⟩, hk, rfl⟩
    rw [h.decoded m' k hk] at hn
    cases hn
    exact hk

theorem mem_labels_iff (h : Explores nodes limit root w) (hend : w.stack = []) {m : Label} :
    m ∈ w.labels <-> Sources.Depends nodes root m := by
  have hempty : forall c, c ∈ w.labels ∨ c ∈ w.stack -> c ∈ w.labels := by
    intro c hc
    rw [hend] at hc
    exact hc.elim id (fun hc => nomatch hc)
  constructor
  · intro hm
    exact h.reached m (Or.inl hm)
  · intro hm
    induction hm with
    | refl => exact hempty root h.rooted
    | tail _ hrefers ih => exact hempty _ (h.closed _ _ ih hrefers)

end Explores

/-!
## Searches that go on like walks
-/

/-- A search at the state of a walk: its bitmap holds the labels visited, and it may look at
as many labels as there are left. -/
structure Tracks (w : Walk) (fuel : Nat) (seen : LabelSet) : Prop where
  has_iff : forall m, seen.has m = true <-> m ∈ w.labels
  remaining_le : w.remaining ≤ fuel

namespace Tracks

variable {w : Walk} {fuel : Nat} {seen : LabelSet} {l : Label} {n : Node}

theorem start (hfuel : Label.total ≤ fuel) (hseen : forall m, seen.has m = false) :
    Tracks (Walk.start root) fuel seen where
  has_iff := by simp [hseen, Walk.start, labels]
  remaining_le := Nat.le_trans (Walk.remaining_le _) hfuel

theorem has_eq_false (h : Tracks w fuel seen) (hl : l ∉ w.labels) : seen.has l = false := by
  rw [← Bool.not_eq_true, h.has_iff]
  exact hl

theorem exists_fuel (h : Tracks w fuel seen) (hl : l ∉ w.labels) : exists k, fuel = k + 1 := by
  have hpos := Nat.lt_of_lt_of_le (Nat.zero_lt_of_lt (remaining_visit (Node.source 0 0) hl))
    h.remaining_le
  exact Nat.exists_eq_add_one.mpr hpos

theorem visit (h : Tracks w (fuel + 1) seen) (hl : l ∉ w.labels) :
    Tracks (w.visit l n) fuel (seen.insert l) where
  has_iff := by
    intro m
    rw [LabelSet.has_insert_iff, labels_visit, List.mem_cons, h.has_iff]
  remaining_le :=
    Nat.le_of_lt_succ (Nat.lt_of_lt_of_le (remaining_visit n hl) h.remaining_le)

theorem stack_visit (h : Tracks w (fuel + 1) seen) (hl : l ∉ w.labels) :
    LabelSet.pushAll (n.children.filter fun c => !(seen.insert l).has c) w.stack =
      (w.visit l n).stack := by
  have hsame : (fun c => !(seen.insert l).has c) = fun c => decide (c ∉ l :: w.labels) := by
    funext c
    have hiff := (h.visit (n := n) hl).has_iff c
    rw [labels_visit] at hiff
    rw [Bool.eq_iff_iff, Bool.not_eq_true', ← Bool.not_eq_true, hiff, decide_eq_true_eq]
  rw [hsame]
  rfl

end Tracks

/-- The answer of a search at each state of a walk, and the one that is due at its end. -/
structure Follows {α : Type} (nodes : Label -> Except InvalidLabel Node) (limit : Int)
    (answer : Nat -> LabelSet -> Walk -> α) (outcome : Walk -> Ending -> α) : Prop where
  skip : forall l w fuel seen, Tracks w fuel seen -> l ∈ w.labels ->
    answer fuel seen ⟨l :: w.stack, w.visited⟩ = answer fuel seen w
  visit : forall l n w fuel seen, Tracks w (fuel + 1) seen -> l ∉ w.labels ->
    ¬ w.Spent limit -> nodes l = .ok n ->
    answer (fuel + 1) seen ⟨l :: w.stack, w.visited⟩ =
      answer fuel (seen.insert l) (w.visit l n)
  ends : forall w ending fuel seen, Tracks w fuel seen -> Ends nodes limit w ending ->
    answer fuel seen w = outcome w ending

theorem Follows.answer_eq {α : Type} {answer : Nat -> LabelSet -> Walk -> α}
    {outcome : Walk -> Ending -> α} (h : Follows nodes limit answer outcome) {w w' : Walk}
    {ending : Ending} {fuel : Nat} {seen : LabelSet} (hrounds : Rounds nodes limit w w')
    (hends : Ends nodes limit w' ending) (htracks : Tracks w fuel seen) :
    answer fuel seen w = outcome w' ending := by
  induction hrounds using Relation.ReflTransGen.head_induction_on generalizing fuel seen with
  | refl => exact h.ends w' ending fuel seen htracks hends
  | head hround _ ih =>
      cases hround with
      | @skip l stack visited hl =>
          have hpassed : Tracks ⟨stack, visited⟩ fuel seen := ⟨htracks.has_iff, htracks.remaining_le⟩
          exact (h.skip l ⟨stack, visited⟩ fuel seen hpassed hl).trans (ih hpassed)
      | @visit l n stack visited hl hspent hn =>
          rcases htracks.exists_fuel hl with ⟨k, rfl⟩
          have hpassed : Tracks ⟨stack, visited⟩ (k + 1) seen :=
            ⟨htracks.has_iff, htracks.remaining_le⟩
          exact (h.visit l n ⟨stack, visited⟩ k seen hpassed hl hspent hn).trans
            (ih (hpassed.visit hl))

end Walk
end TaintTrace
