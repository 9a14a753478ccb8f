import Mathlib
import TaintTrace.Graph.Reach
import TaintTrace.Proofs.LabelSet

/-!
# Reachability is exact

The search for reachable labels answers the least set that has its start and is closed
under following edges.
-/

namespace TaintTrace
namespace Graph

variable {next : Label -> List Label} {root : Label}

def Edge (next : Label -> List Label) (l m : Label) : Prop :=
  m ∈ next l

def Path (next : Label -> List Label) : Label -> Label -> Prop :=
  Relation.ReflTransGen (Edge next)

/-- The invariant of the search: all labels at hand are reachable, and an edge leads from
a seen label to one that is seen or on the stack. -/
structure Reaching (next : Label -> List Label) (root : Label) (stack : List Label)
    (seen : LabelSet) : Prop where
  reached : forall l, seen.has l = true ∨ l ∈ stack -> Path next root l
  closed : forall l m, seen.has l = true -> Edge next l m -> seen.has m = true ∨ m ∈ stack
  rooted : seen.has root = true ∨ root ∈ stack

theorem reaching_start (next : Label -> List Label) (root : Label) :
    Reaching next root [root] LabelSet.empty where
  reached := by
    rintro l (hl | hl)
    · rw [LabelSet.has_empty] at hl
      cases hl
    · rw [List.mem_singleton.mp hl]
      exact Relation.ReflTransGen.refl
  closed := by
    intro l m hl
    rw [LabelSet.has_empty] at hl
    cases hl
  rooted := Or.inr (List.mem_singleton.mpr rfl)

theorem Reaching.step {stack rest : List Label} {seen : LabelSet} {l : Label}
    (h : Reaching next root stack seen) (hnext : seen.nextUnseen stack = some (l, rest)) :
    Reaching next root (LabelSet.pushAll (next l) rest) (seen.insert l) := by
  rcases LabelSet.nextUnseen_eq_some hnext with ⟨front, rfl, _, hfront⟩
  have hl : Path next root l :=
    h.reached l (Or.inr (List.mem_append_right front List.mem_cons_self))
  -- A label of the stack is seen by now, or it is still there.
  have hkeep : forall m, m ∈ front ++ l :: rest ->
      (seen.insert l).has m = true ∨ m ∈ LabelSet.pushAll (next l) rest := by
    intro m hm
    rw [LabelSet.has_insert_iff, LabelSet.mem_pushAll]
    rcases List.mem_append.mp hm with hm | hm
    · exact Or.inl (Or.inr (hfront m hm))
    · rcases List.mem_cons.mp hm with hm | hm
      · exact Or.inl (Or.inl hm)
      · exact Or.inr (Or.inr hm)
  constructor
  · rintro m (hm | hm)
    · rcases LabelSet.has_insert_iff.mp hm with rfl | hm
      · exact hl
      · exact h.reached m (Or.inl hm)
    · rcases LabelSet.mem_pushAll.mp hm with hm | hm
      · exact hl.tail hm
      · exact h.reached m (Or.inr (List.mem_append_right front (List.mem_cons_of_mem l hm)))
  · intro k m hk hm
    rcases LabelSet.has_insert_iff.mp hk with rfl | hk
    · exact Or.inr (LabelSet.mem_pushAll.mpr (Or.inl hm))
    · rcases h.closed k m hk hm with hm | hm
      · exact Or.inl (LabelSet.has_insert_iff.mpr (Or.inr hm))
      · exact hkeep m hm
  · rcases h.rooted with hroot | hroot
    · exact Or.inl (LabelSet.has_insert_iff.mpr (Or.inr hroot))
    · exact hkeep root hroot

theorem Reaching.has_iff {stack : List Label} {seen : LabelSet}
    (h : Reaching next root stack seen) (hstack : forall l, l ∈ stack -> seen.has l = true)
    (l : Label) : seen.has l = true <-> Path next root l := by
  constructor
  · intro hl
    exact h.reached l (Or.inl hl)
  · intro hl
    induction hl with
    | refl => exact h.rooted.elim id (hstack root)
    | tail _ hedge ih => exact (h.closed _ _ ih hedge).elim id (hstack _)

theorem reachFrom_has_iff (fuel : Nat) (stack : List Label) (seen : LabelSet)
    (hfuel : seen.unseen.card ≤ fuel) (h : Reaching next root stack seen) (l : Label) :
    (reachFrom next fuel stack seen).has l = true <-> Path next root l := by
  induction fuel generalizing stack seen with
  | zero =>
      refine h.has_iff ?_ l
      intro m _
      exact LabelSet.has_of_card_unseen_eq_zero (Nat.le_zero.mp hfuel) m
  | succ fuel ih =>
      rw [reachFrom]
      cases hnext : seen.nextUnseen stack with
      | none => exact h.has_iff (LabelSet.nextUnseen_eq_none hnext) l
      | some found =>
          rcases found with ⟨m, rest⟩
          rcases LabelSet.nextUnseen_eq_some hnext with ⟨_, _, hnew, _⟩
          have hless := LabelSet.card_unseen_insert hnew
          exact ih _ _ (by omega) (h.step hnext)

theorem reach_has_iff {l : Label} : (reach next root).has l = true <-> Path next root l :=
  reachFrom_has_iff Label.total [root] LabelSet.empty (LabelSet.card_unseen_le _)
    (reaching_start next root) l

end Graph
end TaintTrace
