import Mathlib
import TaintTrace.Proofs.Cavity

/-!
# When cavities are found

The search for the cavities of a file succeeds if the labels of the file and all labels
that its sinks reach have nodes.  What it leaves uncovered are the bytes that affect control
flow and those that flow to a sink.
-/

namespace TaintTrace
namespace Cavities

open Unhindered

variable {h : Header} {nodes : Label -> Except InvalidLabel Node}

theorem markControlFlow_succeeds (count label : Nat) (marks : Marks)
    (hlabels : forall m, label ≤ m -> m < label + count ->
      exists n, nodes (UInt32.ofNat m) = .ok n) :
    exists marks', (markControlFlow h count label marks).answer nodes = .ok marks' := by
  induction count generalizing label marks with
  | zero => exact ⟨marks, rfl⟩
  | succ count ih =>
      rcases hlabels label le_rfl (by omega) with ⟨n, hn⟩
      rw [markControlFlow, Lookup.answer_decode, hn]
      refine ih (label + 1) _ ?_
      intro m hlow hhigh
      exact hlabels m (by omega) (by omega)

theorem markFlows_succeeds (sinks : List Sink) (index : Nat) (seen : LabelSet) (marks : Marks)
    (hsettled : Settled nodes seen)
    (hsinks : forall s, s ∈ sinks -> forall m, Reaches nodes s.label m ->
      exists n, nodes m = .ok n) :
    exists begun marks', (markFlows h index sinks seen marks).answer nodes =
      (begun, .ok marks') := by
  induction sinks generalizing index seen marks with
  | nil => exact ⟨index, marks, rfl⟩
  | cons s sinks ih =>
      rw [List.forall_mem_cons] at hsinks
      rcases hsinks.1 s.label .refl with ⟨n, hn⟩
      rw [markFlows, Lookup.answer_decode, hn]
      dsimp only
      split
      · exact ih (index + 1) seen marks hsettled hsinks.2
      · split
        · exact ih (index + 1) seen _ hsettled hsinks.2
        · rw [Lookup.answer_bind]
          rcases unhinderedSources_cases hsettled s.label with
            ⟨hfault, hfound⟩ | ⟨e, _, m, hm, _, he⟩
          · rw [hfault]
            exact ih (index + 1) _ _ hfound.settled hsinks.2
          · rcases hsinks.1 m hm with ⟨n', hn'⟩
            rw [he] at hn'
            cases hn'

theorem ofHeader_succeeds {t : Trace} (options : CavityOptions)
    (hend : h.labelEnd.toNat ≤ t.labelCount)
    (hlabels : forall m, h.contains m = true -> exists n, t.decode m = .ok n)
    (hsinks : forall s, s ∈ t.sinks -> forall m, Reaches t.decode s.label m ->
      exists n, t.decode m = .ok n) :
    exists cs, ((ofHeader t options h).run t).2 = .ok cs := by
  rw [Lookup.run, ofHeader]
  split
  · exact ⟨[], rfl⟩
  · rw [if_neg (Nat.not_lt.mpr hend), Lookup.answer_bind]
    have hlast := h.labelEnd.toNat_lt
    have hpass : exists marks, (markControlFlow h h.length h.labelBegin.toNat
        (Array.replicate h.length 0)).answer t.decode = .ok marks := by
      apply markControlFlow_succeeds
      intro m hlow hhigh
      apply hlabels
      unfold Header.length at hhigh
      rw [Header.contains_iff, UInt32.toNat_ofNat_of_lt' (by change m < 4294967296; omega)]
      omega
    rcases hpass with ⟨marks, hmarks⟩
    rw [hmarks, Lookup.answer_bind]
    rcases markFlows_succeeds (h := h) t.sinks 0 (LabelSet.withRoom t.labelCount) marks
      (settled_of_forall_not_has (LabelSet.has_withRoom t.labelCount)) hsinks with
      ⟨begun, flows, hflows⟩
    rw [hflows]
    exact ⟨_, rfl⟩

/-- The bytes in cavities are those that are neither marked by control flow nor by a sink. -/
theorem ofHeader_covers {t : Trace} {options : CavityOptions} {cs : List Cavity}
    (hlegacy : options.legacyTrailing = false)
    (hok : ((ofHeader t options h).run t).2 = .ok cs) (i : Nat) :
    (exists c, c ∈ cs ∧ c.Covers i) <->
      i < h.length ∧ ¬ (FlowsTo t.decode t.sinks (h.labelBegin + UInt32.ofNat i) ∨
        Affects t.decode (h.labelBegin + UInt32.ofNat i)) := by
  by_cases hlength : h.length = 0
  · rw [Lookup.run, ofHeader, if_pos hlength] at hok
    cases hok
    simp [hlength]
  · rcases ofHeader_ok hlength hok with ⟨marks, begun, flows, hmarks, hflows, hcs⟩
    rw [hlegacy] at hcs
    subst hcs
    have hmarked := (markFlows_ok t.sinks 0 begun _ marks flows _
      (settled_of_forall_not_has (LabelSet.has_withRoom t.labelCount)) (by simp)
      (markControlFlow_header_ok hmarks).2 hflows).1
    rw [ofMarks_covers hmarked.size]
    constructor
    · intro hzero
      have hi : i < h.length := by
        rw [← hmarked.size]
        exact (Array.getElem?_eq_some_iff.mp hzero).fst
      exact ⟨hi, (hmarked.eq_zero_iff hi).mp hzero⟩
    · intro hfree
      exact (hmarked.eq_zero_iff hfree.1).mpr hfree.2

end Cavities
end TaintTrace
