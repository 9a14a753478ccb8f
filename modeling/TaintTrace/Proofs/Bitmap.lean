import Mathlib
import TaintTrace.Proofs.LabelSet

/-!
# Bitmaps are sets

A bitmap represents a finite set of labels if it has the same members and as many of them.
Each operation keeps this relation and tells what the set tells, so all answers of a run are
those of a set that is empty at the start.  Of the words of a bitmap only two things are used:
words of zeros change nothing, and a new bit makes one more.
-/

namespace TaintTrace
namespace LabelSet

/-!
## Numbers of bits
-/

def bits (w : UInt64) : Finset Nat :=
  (Finset.range 64).filter fun i => w.toNat.testBit i = true

theorem popCount_eq_card (w : UInt64) : popCount w = (bits w).card := by
  have hcount : (List.range 64).countP (w.toNat.testBit ·) = (bits w).card := by
    rw [bits, ← Nat.count_eq_card_filter_range]
    simp only [Nat.count, Bool.decide_eq_true]
  rw [popCount]
  split
  · rename_i hzero
    simp [bits, hzero]
  · exact hcount

@[simp] theorem popCount_zero : popCount 0 = 0 :=
  if_pos rfl

theorem bits_or_mask (w : UInt64) (l : Label) :
    bits (w ||| mask l) = Insert.insert (l.toNat % 64) (bits w) := by
  have hlt : l.toNat % 64 < 64 := Nat.mod_lt _ (by decide)
  ext i
  simp only [bits, Finset.mem_filter, Finset.mem_range, Finset.mem_insert, UInt64.toNat_or,
    toNat_mask, Nat.testBit_or, Nat.testBit_two_pow, Bool.or_eq_true, decide_eq_true_eq]
  constructor
  · rintro ⟨hi, hbit | hbit⟩
    · exact Or.inr ⟨hi, hbit⟩
    · exact Or.inl hbit.symm
  · rintro (rfl | ⟨hi, hbit⟩)
    · exact ⟨hlt, Or.inr rfl⟩
    · exact ⟨hi, Or.inl hbit⟩

theorem popCount_or_mask {w : UInt64} {l : Label} (h : w.toNat.testBit (l.toNat % 64) = false) :
    popCount (w ||| mask l) = popCount w + 1 := by
  rw [popCount_eq_card, popCount_eq_card, bits_or_mask, Finset.card_insert_of_notMem]
  intro hmem
  rw [bits, Finset.mem_filter, h] at hmem
  exact absurd hmem.2 Bool.false_ne_true

/-!
## Numbers of members
-/

theorem size_eq_sum (s : LabelSet) : s.size = (s.words.toList.map popCount).sum := by
  rw [size, ← Array.foldl_toList, List.sum_eq_foldl, List.foldl_map]

theorem sum_popCount_replicate (n : Nat) :
    ((List.replicate n (0 : UInt64)).map popCount).sum = 0 := by
  simp

@[simp] theorem size_empty : empty.size = 0 := rfl

@[simp] theorem size_withRoom (count : Nat) : (withRoom count).size = 0 := by
  rw [size_eq_sum, withRoom, Array.toList_replicate, sum_popCount_replicate]

theorem size_grow (words : Array UInt64) (n : Nat) :
    size ⟨grow words n⟩ = size ⟨words⟩ := by
  unfold grow
  split
  · rw [size_eq_sum, size_eq_sum, Array.toList_append, Array.toList_replicate, List.map_append,
      List.sum_append, sum_popCount_replicate, Nat.add_zero]
  · rfl

theorem size_modify {words : Array UInt64} {i : Nat} (hi : i < words.size)
    {f : UInt64 -> UInt64} {k : Nat} (hf : popCount (f words[i]) = popCount words[i] + k) :
    size ⟨words.modify i f⟩ = size ⟨words⟩ + k := by
  rcases words with ⟨ws⟩
  change i < ws.length at hi
  change popCount (f ws[i]) = popCount ws[i] + k at hf
  have hsplit : ws = ws.take i ++ ws[i] :: ws.drop (i + 1) := by
    rw [List.getElem_cons_drop, List.take_append_drop]
  rw [size_eq_sum, size_eq_sum, Array.toList_modify]
  change ((ws.modify i f).map popCount).sum = (ws.map popCount).sum + k
  rw [List.modify_eq_take_cons_drop hi]
  conv_rhs => rw [hsplit]
  simp only [List.map_append, List.map_cons, List.sum_append, List.sum_cons, hf]
  omega

theorem size_insert {s : LabelSet} {l : Label} (h : s.has l = false) :
    (s.insert l).size = s.size + 1 := by
  have hlt : wordIndex l < (grow s.words (wordIndex l + 1)).size :=
    lt_size_grow s.words (wordIndex l + 1)
  rw [has_eq_testBit, ← getD_grow s.words (wordIndex l + 1)] at h
  rw [← size_grow s.words (wordIndex l + 1)]
  apply size_modify hlt
  apply popCount_or_mask
  rwa [Array.getD_eq_getD_getElem?, Array.getElem?_eq_getElem hlt] at h

/-!
## Sets of labels
-/

/-- A finite set of labels under the operations of a bitmap: adding a label tells whether it
was absent, and the size is the number of members. -/
def performOn (members : Finset Label) : Operation -> Answer × Finset Label
  | .add l => (.truth (decide (l ∉ members)), Insert.insert l members)
  | .has l => (.truth (decide (l ∈ members)), members)
  | .size => (.number members.card, members)

def performAllOn (members : Finset Label) : List Operation -> List Answer × Finset Label
  | [] => ([], members)
  | op :: ops =>
      let first := performOn members op
      let rest := performAllOn first.2 ops
      (first.1 :: rest.1, rest.2)

/-- A bitmap has the members of a set, and as many of them. -/
structure Represents (s : LabelSet) (members : Finset Label) : Prop where
  has : forall l, s.has l = true <-> l ∈ members
  size : s.size = members.card

variable {s : LabelSet} {members : Finset Label}

theorem represents_empty : Represents empty ∅ :=
  ⟨fun l => by simp, size_empty⟩

theorem represents_withRoom (count : Nat) : Represents (withRoom count) ∅ :=
  ⟨fun l => by simp, size_withRoom count⟩

namespace Represents

theorem has_eq (h : Represents s members) (l : Label) : s.has l = decide (l ∈ members) := by
  rw [Bool.eq_iff_iff, h.has, decide_eq_true_eq]

/-- More words neither lose a member nor make one. -/
theorem grow (h : Represents s members) (n : Nat) :
    Represents ⟨LabelSet.grow s.words n⟩ members where
  has := by
    intro l
    rw [← h.has, has_eq_testBit, has_eq_testBit, getD_grow]
  size := (size_grow s.words n).trans h.size

theorem insert {l : Label} (h : Represents s members) (hl : l ∉ members) :
    Represents (s.insert l) (Insert.insert l members) where
  has := by
    intro m
    rw [has_insert_iff, Finset.mem_insert, h.has]
  size := by
    have habsent : s.has l = false := by
      rw [h.has_eq, decide_eq_false_iff_not]
      exact hl
    rw [size_insert habsent, h.size, Finset.card_insert_of_notMem hl]

theorem perform (h : Represents s members) (op : Operation) :
    (s.perform op).1 = (performOn members op).1 ∧
      Represents (s.perform op).2 (performOn members op).2 := by
  cases op with
  | add l =>
      dsimp only [LabelSet.perform, performOn, LabelSet.add]
      rw [h.has_eq]
      by_cases hl : l ∈ members
      · simpa [hl] using h
      · simpa [hl] using h.insert hl
  | has l =>
      refine ⟨?_, h⟩
      dsimp only [LabelSet.perform, performOn]
      rw [h.has_eq]
  | size =>
      refine ⟨?_, h⟩
      dsimp only [LabelSet.perform, performOn]
      rw [h.size]

theorem performAll (h : Represents s members) (ops : List Operation) :
    (s.performAll ops).1 = (performAllOn members ops).1 ∧
      Represents (s.performAll ops).2 (performAllOn members ops).2 := by
  induction ops generalizing s members with
  | nil => exact ⟨rfl, h⟩
  | cons op ops ih =>
      rcases h.perform op with ⟨hanswer, hnext⟩
      rcases ih hnext with ⟨hanswers, hend⟩
      refine ⟨?_, hend⟩
      dsimp only [LabelSet.performAll, performAllOn]
      rw [hanswer, hanswers]

end Represents

/-!
## Sets with room
-/

theorem withRoom?_natCast (count : Nat) : withRoom? count = some (withRoom count) := by
  have hwords : 0 ≤ ((count : Int) + 63).tdiv 64 := Int.tdiv_nonneg (by omega) (by decide)
  rw [withRoom?, if_neg (Int.not_lt.mpr hwords), Int.toNat_natCast]

/-- Whatever is done with a bitmap that has room for a number of labels, or none, its answers
are those of a set that is empty at first, and it represents that set also when words are
added to it. -/
theorem performAll_answers_of_set :
    (forall count : Nat, withRoom? count = some (withRoom count)) ∧
    forall s : LabelSet, (s = empty ∨ exists count : Nat, s = withRoom count) ->
      forall ops : List Operation,
        (s.performAll ops).1 = (performAllOn ∅ ops).1 ∧
        Represents (s.performAll ops).2 (performAllOn ∅ ops).2 ∧
        forall words : Nat,
          Represents ⟨grow (s.performAll ops).2.words words⟩ (performAllOn ∅ ops).2 := by
  refine ⟨withRoom?_natCast, ?_⟩
  intro s hs ops
  have hstart : Represents s ∅ := by
    rcases hs with rfl | ⟨count, rfl⟩
    · exact represents_empty
    · exact represents_withRoom count
  rcases hstart.performAll ops with ⟨hanswers, hend⟩
  exact ⟨hanswers, hend, hend.grow⟩

/-- Labels inside and beyond the words of a bitmap for ten labels. -/
def scattered : List Operation :=
  [.add 3, .add 3, .add 1000, .has 3, .has 4, .has 4294967295, .add 63, .add 64, .size]

theorem performAll_answers_of_set_scattered :
    withRoom? 10 = some (withRoom 10) ∧
      ((withRoom 10).performAll scattered).1 =
        [.truth true, .truth false, .truth true, .truth true, .truth false, .truth false,
          .truth true, .truth true, .number 4] ∧
      Represents ((withRoom 10).performAll scattered).2 {3, 63, 64, 1000} := by
  have hroom : withRoom? 10 = some (withRoom 10) := performAll_answers_of_set.1 10
  rcases performAll_answers_of_set.2 _ (Or.inr ⟨10, rfl⟩) scattered with ⟨hanswers, hend, _⟩
  have hset : (performAllOn ∅ scattered).2 = {3, 63, 64, 1000} := by decide
  rw [hset] at hend
  exact ⟨hroom, hanswers.trans (by decide), hend⟩

end LabelSet
end TaintTrace
