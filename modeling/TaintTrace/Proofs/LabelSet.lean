import Mathlib
import TaintTrace.Label.Set

/-!
# Membership in label sets

Proofs never look at the words of a bitmap: they use one equation for each
operation, in terms of `has`.  The labels that are not in a set are counted, since
every search puts a label into its set before it goes on.
-/

namespace TaintTrace
namespace LabelSet

/-!
## Bits of words
-/

theorem wordIndex_mod_inj {l m : Label} (hword : wordIndex l = wordIndex m)
    (hbit : l.toNat % 64 = m.toNat % 64) : l = m := by
  apply UInt32.toNat_inj.mp
  have hdiv : l.toNat / 64 = m.toNat / 64 := hword
  omega

theorem toNat_mask (l : Label) : (mask l).toNat = 2 ^ (l.toNat % 64) := by
  have hlt : l.toNat % 64 < 64 := Nat.mod_lt _ (by decide)
  have hpow : 2 ^ (l.toNat % 64) < 2 ^ 64 := Nat.pow_lt_pow_right (by decide) hlt
  have hsize : l.toNat % 64 < 2 ^ 64 := Nat.lt_trans hlt (by decide)
  rw [mask, UInt64.toNat_shiftLeft, UInt64.toNat_ofNat', Nat.mod_eq_of_lt hsize,
    Nat.mod_eq_of_lt hlt, UInt64.toNat_one, Nat.one_shiftLeft, Nat.mod_eq_of_lt hpow]

theorem and_mask_ne_zero (w : UInt64) (l : Label) :
    (w &&& mask l != 0) = w.toNat.testBit (l.toNat % 64) := by
  have hzero : (w &&& mask l = 0) <-> w.toNat &&& 2 ^ (l.toNat % 64) = 0 := by
    rw [← UInt64.toNat_inj, UInt64.toNat_and, toNat_mask, UInt64.toNat_zero]
  rw [Nat.and_two_pow] at hzero
  cases hbit : w.toNat.testBit (l.toNat % 64) with
  | false =>
      rw [hbit] at hzero
      simpa using hzero
  | true =>
      rw [hbit] at hzero
      simpa using hzero

theorem has_eq_testBit (s : LabelSet) (l : Label) :
    s.has l = (s.words.getD (wordIndex l) 0).toNat.testBit (l.toNat % 64) :=
  and_mask_ne_zero _ l

theorem getD_grow (words : Array UInt64) (n i : Nat) :
    (grow words n).getD i 0 = words.getD i 0 := by
  unfold grow
  split
  · simp only [Array.getD_eq_getD_getElem?, Array.getElem?_append, Array.getElem?_replicate]
    split
    · rfl
    · rename_i hi
      rw [Array.getElem?_eq_none (by omega)]
      split <;> rfl
  · rfl

theorem lt_size_grow (words : Array UInt64) (n : Nat) : n ≤ (grow words n).size := by
  unfold grow
  split
  · simp
    omega
  · omega

/-!
## Members
-/

@[simp] theorem has_empty (l : Label) : empty.has l = false := by
  simp [has_eq_testBit, empty]

@[simp] theorem has_withRoom (count : Nat) (l : Label) : (withRoom count).has l = false := by
  rw [has_eq_testBit, withRoom, Array.getD_eq_getD_getElem?, Array.getElem?_replicate]
  split <;> simp

theorem has_insert (s : LabelSet) (l m : Label) :
    (s.insert l).has m = (m == l || s.has m) := by
  have hsize : wordIndex l < (grow s.words (wordIndex l + 1)).size :=
    lt_size_grow s.words (wordIndex l + 1)
  rw [has_eq_testBit, has_eq_testBit s, ← getD_grow s.words (wordIndex l + 1), insert]
  generalize grow s.words (wordIndex l + 1) = ws at hsize
  simp only [Array.getD_eq_getD_getElem?, Array.getElem?_modify]
  by_cases hword : wordIndex l = wordIndex m
  · rw [if_pos hword, ← hword, Array.getElem?_eq_getElem hsize]
    simp only [Option.map_some, Option.getD_some, UInt64.toNat_or, toNat_mask, Nat.testBit_or,
      Nat.testBit_two_pow]
    by_cases hbit : l.toNat % 64 = m.toNat % 64
    · have heq : m = l := (wordIndex_mod_inj hword hbit).symm
      simp [heq]
    · have hne : m ≠ l := fun h => hbit (by rw [h])
      simp [hbit, hne]
  · have hne : m ≠ l := fun h => hword (by rw [h])
    simp [hword, hne]

@[simp] theorem has_insert_iff {s : LabelSet} {l m : Label} :
    (s.insert l).has m = true <-> m = l ∨ s.has m = true := by
  rw [has_insert, Bool.or_eq_true, beq_iff_eq]

theorem has_foldl_insert (ls : List Label) (s : LabelSet) (l : Label) :
    (ls.foldl insert s).has l = true <-> l ∈ ls ∨ s.has l = true := by
  induction ls generalizing s with
  | nil => simp
  | cons m ls ih =>
      rw [List.foldl_cons, ih, has_insert_iff, List.mem_cons]
      constructor
      · rintro (hmem | heq | hs)
        · exact Or.inl (Or.inr hmem)
        · exact Or.inl (Or.inl heq)
        · exact Or.inr hs
      · rintro ((heq | hmem) | hs)
        · exact Or.inr (Or.inl heq)
        · exact Or.inl hmem
        · exact Or.inr (Or.inr hs)

@[simp] theorem has_ofList_iff {ls : List Label} {l : Label} :
    (ofList ls).has l = true <-> l ∈ ls := by
  rw [ofList, has_foldl_insert, has_empty]
  simp

/-!
## Stacks
-/

theorem nextUnseen_cons_of_has {seen : LabelSet} {l : Label} (h : seen.has l = true)
    (stack : List Label) : seen.nextUnseen (l :: stack) = seen.nextUnseen stack :=
  if_pos h

theorem nextUnseen_cons_of_not_has {seen : LabelSet} {l : Label} (h : seen.has l = false)
    (stack : List Label) : seen.nextUnseen (l :: stack) = some (l, stack) := by
  rw [nextUnseen, h]
  rfl

theorem nextUnseen_eq_none {seen : LabelSet} {stack : List Label}
    (h : seen.nextUnseen stack = none) : forall l, l ∈ stack -> seen.has l = true := by
  induction stack with
  | nil =>
      intro l hl
      cases hl
  | cons m stack ih =>
      rw [nextUnseen] at h
      split at h
      · rename_i hm
        intro l hl
        cases hl with
        | head => exact hm
        | tail _ hl => exact ih h l hl
      · cases h

/-- What is taken off a stack before the first new label is in the set already. -/
theorem nextUnseen_eq_some {seen : LabelSet} {stack rest : List Label} {l : Label}
    (h : seen.nextUnseen stack = some (l, rest)) :
    exists front, stack = front ++ l :: rest ∧ seen.has l = false ∧
      forall m, m ∈ front -> seen.has m = true := by
  induction stack with
  | nil => cases h
  | cons m stack ih =>
      rw [nextUnseen] at h
      split at h
      · rename_i hm
        rcases ih h with ⟨front, hstack, hl, hfront⟩
        refine ⟨m :: front, by rw [hstack, List.cons_append], hl, ?_⟩
        intro k hk
        cases hk with
        | head => exact hm
        | tail _ hk => exact hfront k hk
      · rename_i hm
        cases h
        exact ⟨[], rfl, by simpa using hm, by simp⟩

theorem mem_of_nextUnseen {seen : LabelSet} {stack rest : List Label} {l : Label}
    (h : seen.nextUnseen stack = some (l, rest)) : l ∈ stack ∧ seen.has l = false := by
  rcases nextUnseen_eq_some h with ⟨front, hstack, hnew, _⟩
  rw [hstack]
  exact ⟨List.mem_append_right front List.mem_cons_self, hnew⟩

theorem pushAll_eq (ls stack : List Label) : pushAll ls stack = ls.reverse ++ stack := by
  induction ls generalizing stack with
  | nil => rfl
  | cons l ls ih =>
      rw [pushAll, List.foldl_cons]
      change pushAll ls (l :: stack) = _
      rw [ih]
      simp

theorem mem_pushAll {ls stack : List Label} {l : Label} :
    l ∈ pushAll ls stack <-> l ∈ ls ∨ l ∈ stack := by
  rw [pushAll_eq, List.mem_append, List.mem_reverse]

/-!
## Labels outside of a set

Every search has enough fuel when it starts with as much as there are labels.
-/

def unseen (s : LabelSet) : Finset Label :=
  Finset.univ.filter fun l => s.has l = false

theorem mem_unseen {s : LabelSet} {l : Label} : l ∈ s.unseen <-> s.has l = false := by
  simp [unseen]

theorem card_label_le : Fintype.card Label ≤ Label.total := by
  have hinj : Function.Injective fun l : Label => l.toFin := fun _ _ h => UInt32.toFin_inj.mp h
  calc Fintype.card Label ≤ Fintype.card (Fin UInt32.size) := Fintype.card_le_of_injective _ hinj
    _ = Label.total := Fintype.card_fin _

theorem card_unseen_le (s : LabelSet) : s.unseen.card ≤ Label.total :=
  Nat.le_trans (Finset.card_le_univ _) card_label_le

theorem card_unseen_mono {s s' : LabelSet}
    (h : forall l, s.has l = true -> s'.has l = true) : s'.unseen.card ≤ s.unseen.card := by
  apply Finset.card_le_card
  intro l hl
  rw [mem_unseen] at hl ⊢
  cases hs : s.has l with
  | false => rfl
  | true =>
      rw [h l hs] at hl
      cases hl

theorem card_unseen_insert {s : LabelSet} {l : Label} (hl : s.has l = false) :
    (s.insert l).unseen.card < s.unseen.card := by
  apply Finset.card_lt_card
  rw [Finset.ssubset_iff_of_subset]
  · refine ⟨l, mem_unseen.mpr hl, ?_⟩
    rw [mem_unseen, has_insert]
    simp
  · intro m hm
    rw [mem_unseen, has_insert, Bool.or_eq_false_iff] at hm
    exact mem_unseen.mpr hm.2

theorem has_of_card_unseen_eq_zero {s : LabelSet} (h : s.unseen.card = 0) (l : Label) :
    s.has l = true := by
  rw [Finset.card_eq_zero] at h
  cases hl : s.has l with
  | true => rfl
  | false =>
      have hmem := mem_unseen.mpr hl
      rw [h] at hmem
      cases hmem

end LabelSet
end TaintTrace
