import Mathlib
import TaintTrace.Flow.ByteMap
import TaintTrace.Proofs.Sorting

/-!
# Maps of pairs of bytes

The map of some pairs has an entry for each input byte of the pairs, in strict order, and
in the entry the output bytes that the input byte has in the pairs, in strict order as
well.  Bytes are ordered by the identifiers of their files, so the order is strict where an
identifier stands for one file only.
-/

namespace TaintTrace

/-!
## The order of bytes
-/

namespace ByteOffset

def Before (a b : ByteOffset) : Prop :=
  a.file.id < b.file.id ∨ (a.file.id = b.file.id ∧ a.offset < b.offset)

theorem Before.trans {a b c : ByteOffset} (hab : a.Before b) (hbc : b.Before c) : a.Before c := by
  unfold Before at *
  rw [UInt64.lt_iff_toNat_lt] at *
  omega

theorem Before.ne {a b : ByteOffset} (h : a.Before b) : a ≠ b := by
  intro heq
  subst heq
  unfold Before at h
  rw [UInt64.lt_iff_toNat_lt] at h
  omega

theorem le_iff {a b : ByteOffset} :
    a.le b = true <-> a.file.id < b.file.id ∨
      (a.file.id = b.file.id ∧ a.offset.toNat ≤ b.offset.toNat) := by
  unfold le
  split
  · rename_i hid
    simp [hid, UInt64.le_iff_toNat_le]
  · rename_i hid
    simp [hid]

theorem le_total (a b : ByteOffset) : a.le b = true ∨ b.le a = true := by
  rw [le_iff, le_iff]
  omega

theorem le_trans {a b c : ByteOffset} (hab : a.le b = true) (hbc : b.le c = true) :
    a.le c = true := by
  rw [le_iff] at *
  omega

/-- An identifier stands for one file among the bytes with a property. -/
def Uniform (P : ByteOffset -> Prop) : Prop :=
  forall a b, P a -> P b -> a.file.id = b.file.id -> a.file = b.file

variable {P : ByteOffset -> Prop}

theorem Uniform.antisymm (h : Uniform P) {a b : ByteOffset} (ha : P a) (hb : P b)
    (hab : a.le b = true) (hba : b.le a = true) : a = b := by
  rw [le_iff] at hab hba
  have hfile : a.file = b.file := h a b ha hb (by omega)
  have hoffset : a.offset = b.offset := UInt64.toNat_inj.mp (by omega)
  rcases a with ⟨file, offset⟩
  rcases b with ⟨file', offset'⟩
  dsimp only at hfile hoffset
  rw [hfile, hoffset]

theorem Uniform.before (h : Uniform P) {a b : ByteOffset} (ha : P a) (hb : P b)
    (hab : a.le b = true) (hne : a ≠ b) : a.Before b := by
  have hba : ¬ b.le a = true := fun hba => hne (h.antisymm ha hb hab hba)
  rw [le_iff] at hab hba
  unfold Before
  rw [UInt64.lt_iff_toNat_lt]
  omega

end ByteOffset

/-!
## Sorted pairs
-/

namespace ByteMap

open ByteOffset

/-- The order of pairs that looks at the places of bytes only. -/
def placeLe (p q : ByteOffset × ByteOffset) : Bool :=
  if p.1.le q.1 && q.1.le p.1 then p.2.le q.2 else p.1.le q.1

theorem placeLe_iff {p q : ByteOffset × ByteOffset} :
    placeLe p q = true <->
      p.1.le q.1 = true ∧ (q.1.le p.1 = true -> p.2.le q.2 = true) := by
  unfold placeLe
  cases p.1.le q.1 <;> cases q.1.le p.1 <;> simp

theorem placeLe_trans (p q r : ByteOffset × ByteOffset) (hpq : placeLe p q = true)
    (hqr : placeLe q r = true) : placeLe p r = true := by
  rw [placeLe_iff] at *
  refine ⟨ByteOffset.le_trans hpq.1 hqr.1, ?_⟩
  intro hrp
  exact ByteOffset.le_trans (hpq.2 (ByteOffset.le_trans hqr.1 hrp))
    (hqr.2 (ByteOffset.le_trans hrp hpq.1))

theorem placeLe_total (p q : ByteOffset × ByteOffset) :
    (placeLe p q || placeLe q p) = true := by
  rw [Bool.or_eq_true, placeLe_iff, placeLe_iff]
  have hfirst := ByteOffset.le_total p.1 q.1
  have hsecond := ByteOffset.le_total p.2 q.2
  tauto

variable {P : ByteOffset -> Prop} {pairs : List (ByteOffset × ByteOffset)}

theorem pairLe_eq_placeLe (hP : Uniform P) {p q : ByteOffset × ByteOffset} (hp : P p.1)
    (hq : P q.1) : pairLe p q = placeLe p q := by
  unfold pairLe placeLe
  by_cases heq : p.1 = q.1
  · have hself : q.1.le q.1 = true := (ByteOffset.le_total q.1 q.1).elim id id
    simp [heq, hself]
  · have hone : (p.1.le q.1 && q.1.le p.1) = false := by
      rw [Bool.eq_false_iff]
      intro hboth
      rw [Bool.and_eq_true] at hboth
      exact heq (hP.antisymm hp hq hboth.1 hboth.2)
    rw [if_neg heq, hone]
    rfl

/-- Sorting pairs whose bytes have the files of their identifiers gives a strict order: by
input bytes first, then by output bytes. -/
theorem distinct_pairs_pairwise (hP : Uniform P)
    (hpairs : forall p, p ∈ pairs -> P p.1 ∧ P p.2) :
    (Sorting.distinct pairLe pairs).Pairwise fun p q =>
      (p.1 = q.1 ∧ p.2.Before q.2) ∨ p.1.Before q.1 := by
  have hsort : pairs.mergeSort pairLe = pairs.mergeSort placeLe := by
    have hmap := List.map_mergeSort (r := pairLe) (s := placeLe) (f := id) (l := pairs)
      fun p hp q hq => pairLe_eq_placeLe hP (hpairs p hp).1 (hpairs q hq).1
    simpa using hmap
  have hmem : forall p, p ∈ pairs.mergeSort placeLe -> P p.1 ∧ P p.2 :=
    fun p hp => hpairs p (List.mem_mergeSort.mp hp)
  have hsorted : (pairs.mergeSort placeLe).Pairwise fun p q => placeLe p q = true :=
    List.pairwise_mergeSort placeLe_trans placeLe_total pairs
  have hanti : forall p q, p ∈ pairs.mergeSort placeLe -> q ∈ pairs.mergeSort placeLe ->
      placeLe p q = true -> placeLe q p = true -> p = q := by
    intro p q hp hq hpq hqp
    rw [placeLe_iff] at hpq hqp
    exact Prod.ext (hP.antisymm (hmem p hp).1 (hmem q hq).1 hpq.1 hqp.1)
      (hP.antisymm (hmem p hp).2 (hmem q hq).2 (hpq.2 hqp.1) (hqp.2 hpq.1))
  unfold Sorting.distinct
  rw [hsort]
  refine (Sorting.dropRepeats_pairwise hanti hsorted).imp_of_mem ?_
  intro p q hp hq hpq
  have hpP := hmem p (Sorting.mem_dropRepeats.mp hp)
  have hqP := hmem q (Sorting.mem_dropRepeats.mp hq)
  rcases hpq with ⟨hle, hne⟩
  rw [placeLe_iff] at hle
  by_cases heq : p.1 = q.1
  · have hself : q.1.le p.1 = true := by
      rw [heq]
      exact (ByteOffset.le_total q.1 q.1).elim id id
    refine Or.inl ⟨heq, hP.before hpP.2 hqP.2 (hle.2 hself) ?_⟩
    intro heq'
    exact hne (Prod.ext heq heq')
  · exact Or.inr (hP.before hpP.1 hqP.1 hle.1 heq)

/-!
## Entries
-/

theorem entry?_eq_some_iff {g : List (ByteOffset × ByteOffset)} {a : ByteOffset}
    {outs : List ByteOffset} :
    entry? g = some (a, outs) <-> (exists p rest, g = p :: rest ∧ p.1 = a) ∧
      g.map Prod.snd = outs := by
  cases g with
  | nil => simp [ entry?]
  | cons p rest => simp [ entry?]

theorem mem_ofPairs {a b : ByteOffset} :
    (exists outs, (a, outs) ∈ ofPairs pairs ∧ b ∈ outs) <-> (a, b) ∈ pairs := by
  have hdistinct : (a, b) ∈ Sorting.distinct pairLe pairs <-> (a, b) ∈ pairs :=
    Sorting.mem_distinct
  rw [← hdistinct]
  unfold ofPairs
  generalize Sorting.distinct pairLe pairs = sorted
  constructor
  · intro h
    rcases h with ⟨outs, hentry, hb⟩
    rcases List.mem_filterMap.mp hentry with ⟨g, hg, hgentry⟩
    rcases entry?_eq_some_iff.mp hgentry with ⟨⟨p, rest, hcons, hkey⟩, houts⟩
    rw [← houts] at hb
    rcases List.mem_map.mp hb with ⟨q, hq, hqb⟩
    have hsame : p.1 = q.1 :=
      Sorting.key_eq_of_mem_splitBy hg (by rw [hcons]; exact List.mem_cons_self) hq
    rw [← List.flatten_splitBy (fun p q => p.1 == q.1) sorted]
    refine List.mem_flatten.mpr ⟨g, hg, ?_⟩
    rw [← hkey, hsame, ← hqb]
    exact hq
  · intro h
    rw [← List.flatten_splitBy (fun p q => p.1 == q.1) sorted] at h
    rcases List.mem_flatten.mp h with ⟨g, hg, hab⟩
    refine ⟨g.map Prod.snd, List.mem_filterMap.mpr ⟨g, hg, ?_⟩, List.mem_map.mpr ⟨_, hab, rfl⟩⟩
    cases g with
    | nil => cases hab
    | cons p rest =>
        have hsame : p.1 = a := Sorting.key_eq_of_mem_splitBy hg List.mem_cons_self hab
        exact entry?_eq_some_iff.mpr ⟨⟨p, rest, rfl, hsame⟩, rfl⟩

theorem ofPairs_outputs_ne_nil {a : ByteOffset} {outs : List ByteOffset}
    (h : (a, outs) ∈ ofPairs pairs) : outs ≠ [] := by
  rcases List.mem_filterMap.mp h with ⟨g, _, hentry⟩
  rcases entry?_eq_some_iff.mp hentry with ⟨⟨p, rest, hcons, _⟩, houts⟩
  rw [← houts, hcons, List.map_cons]
  exact List.cons_ne_nil _ _

theorem ofPairs_ordered (hP : Uniform P) (hpairs : forall p, p ∈ pairs -> P p.1 ∧ P p.2) :
    ((ofPairs pairs).Pairwise fun e e' => e.1.Before e'.1) ∧
      forall a outs, (a, outs) ∈ ofPairs pairs -> outs.Pairwise Before := by
  have hsorted := distinct_pairs_pairwise hP hpairs
  unfold ofPairs
  generalize Sorting.distinct pairLe pairs = sorted at hsorted
  constructor
  · have hkeys : sorted.Pairwise fun p q => p.1 = q.1 ∨ p.1.Before q.1 :=
      hsorted.imp fun h => h.imp And.left id
    have hruns : (sorted.splitBy fun p q => p.1 == q.1).Pairwise
        (Sorting.RunBefore Prod.fst Before) := by
      refine Sorting.splitBy_pairwise ?_ hkeys
      intro a b c hab hbc
      exact hab.trans hbc
    refine List.Pairwise.filterMap entry? ?_ hruns
    intro g g' hbefore e he e' he'
    rcases entry?_eq_some_iff.mp he with ⟨⟨p, rest, hcons, hp⟩, _⟩
    rcases entry?_eq_some_iff.mp he' with ⟨⟨q, rest', hcons', hq⟩, _⟩
    rw [← hp, ← hq]
    apply hbefore.2
    · rw [hcons]
      exact List.mem_cons_self
    · rw [hcons']
      exact List.mem_cons_self
  · intro a outs h
    rcases List.mem_filterMap.mp h with ⟨g, hg, hentry⟩
    have houts := entry?_eq_some_iff.mp hentry
    rw [← houts.2, List.pairwise_map]
    rw [← List.flatten_splitBy (fun p q => p.1 == q.1) sorted, List.pairwise_flatten] at hsorted
    refine (hsorted.1 g hg).imp_of_mem ?_
    intro p q hp hq hpq
    rcases hpq with hpq | hbefore
    · exact hpq.2
    · exact absurd (Sorting.key_eq_of_mem_splitBy hg hp hq) hbefore.ne

end ByteMap
end TaintTrace
