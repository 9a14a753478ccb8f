import Mathlib
import TaintTrace.Flow.Runs

/-!
# Runs of zeros are exact

The ranges of the zeros of a list are non-empty, in order and never adjacent, and they
cover exactly the zeros.  Offsets have 64 bits, so the list must be shorter than that.
There is one such list of ranges only, so marks that are made from the ranges have the same
ranges again.  Under the rule of older reports only the end of the last range differs.
-/

namespace TaintTrace

def OffsetRange.Covers (r : OffsetRange) (i : Nat) : Prop :=
  r.first.toNat ≤ i ∧ i < r.stop.toNat

instance (r : OffsetRange) (i : Nat) : Decidable (r.Covers i) :=
  inferInstanceAs (Decidable (_ ∧ _))

namespace Runs

/-- Non-empty ranges between two bounds, in order and with gaps between them. -/
structure Separated (lower upper : Nat) (rs : List OffsetRange) : Prop where
  nonempty : forall r, r ∈ rs -> r.first.toNat < r.stop.toNat
  lower : forall r, r ∈ rs -> lower ≤ r.first.toNat
  upper : forall r, r ∈ rs -> r.stop.toNat ≤ upper
  gaps : rs.Pairwise fun a b => a.stop.toNat < b.first.toNat

theorem separated_nil (lower upper : Nat) : Separated lower upper [] := by
  constructor <;> simp

theorem Separated.weaken {lower lower' upper : Nat} {rs : List OffsetRange}
    (h : Separated lower upper rs) (hle : lower' ≤ lower) : Separated lower' upper rs :=
  { h with lower := fun r hr => Nat.le_trans hle (h.lower r hr) }

theorem Separated.cons {lower gap upper : Nat} {r : OffsetRange} {rs : List OffsetRange}
    (h : Separated gap upper rs) (hlower : lower ≤ r.first.toNat)
    (hr : r.first.toNat < r.stop.toNat) (hgap : r.stop.toNat < gap) (hupper : gap ≤ upper) :
    Separated lower upper (r :: rs) := by
  constructor
  · intro q hq
    rcases List.mem_cons.mp hq with rfl | hq
    · exact hr
    · exact h.nonempty q hq
  · intro q hq
    rcases List.mem_cons.mp hq with rfl | hq
    · exact hlower
    · have := h.lower q hq
      omega
  · intro q hq
    rcases List.mem_cons.mp hq with rfl | hq
    · omega
    · exact h.upper q hq
  · refine List.pairwise_cons.mpr ⟨?_, h.gaps⟩
    intro q hq
    exact Nat.lt_of_lt_of_le hgap (h.lower q hq)

/-- Where the run that is open at an index began; the index itself if none is open. -/
def beginning (index : Nat) : Option UInt64 -> Nat
  | none => index
  | some first => first.toNat

def OpenBefore (open? : Option UInt64) (index : Nat) : Prop :=
  forall first, open? = some first -> first.toNat < index

theorem openBefore_none (index : Nat) : OpenBefore none index := by
  intro first hfirst
  cases hfirst

theorem openBefore_ofNat {index : Nat} (h : index < UInt64.size) :
    OpenBefore (some (UInt64.ofNat index)) (index + 1) := by
  intro first hfirst
  cases hfirst
  rw [UInt64.toNat_ofNat_of_lt' h]
  exact Nat.lt_succ_self index

theorem OpenBefore.succ {open? : Option UInt64} {index : Nat} (h : OpenBefore open? index) :
    OpenBefore open? (index + 1) := by
  intro first hfirst
  exact Nat.lt_succ_of_lt (h first hfirst)

theorem add_length_cons (index : Nat) (m : UInt8) (marks : List UInt8) :
    index + (m :: marks).length = index + 1 + marks.length := by
  rw [List.length_cons, Nat.add_comm marks.length 1, Nat.add_assoc]

theorem runsFrom_separated (marks : List UInt8) (index : Nat) (open? : Option UInt64)
    (hopen : OpenBefore open? index) (hsize : index + marks.length < UInt64.size) :
    Separated (beginning index open?) (index + marks.length)
      (runsFrom (UInt64.ofNat (index + marks.length)) index open? marks) := by
  induction marks generalizing index open? with
  | nil =>
      cases open? with
      | none => exact separated_nil _ _
      | some first =>
          have hstop : (UInt64.ofNat (index + ([] : List UInt8).length)).toNat = index :=
            UInt64.toNat_ofNat_of_lt' hsize
          have hlt := hopen first rfl
          rw [runsFrom]
          refine ⟨?_, ?_, ?_, List.pairwise_singleton _ _⟩
          · intro r hr
            rw [List.mem_singleton.mp hr, hstop]
            exact hlt
          · intro r hr
            rw [List.mem_singleton.mp hr]
            exact Nat.le_refl _
          · intro r hr
            rw [List.mem_singleton.mp hr, hstop]
            exact Nat.le_refl _
  | cons m marks ih =>
      rw [add_length_cons] at hsize ⊢
      have hindex : index < UInt64.size := by omega
      have hclosed := ih (index + 1) none (openBefore_none _) hsize
      cases open? with
      | none =>
          rw [runsFrom]
          split
          · have h := ih (index + 1) (some (UInt64.ofNat index)) (openBefore_ofNat hindex) hsize
            rw [beginning, UInt64.toNat_ofNat_of_lt' hindex] at h
            exact h
          · exact hclosed.weaken (Nat.le_succ index)
      | some first =>
          have hlt := hopen first rfl
          rw [runsFrom]
          split
          · exact ih (index + 1) (some first) hopen.succ hsize
          · refine hclosed.cons (Nat.le_refl _) ?_ ?_ ?_
            · simpa only [UInt64.toNat_ofNat_of_lt' hindex] using hlt
            · simp only [UInt64.toNat_ofNat_of_lt' hindex, beginning]
              omega
            · simp only [beginning]
              omega

theorem exists_zero_cons {i index : Nat} {m : UInt8} {marks : List UInt8} :
    (exists j, i = index + j ∧ (m :: marks)[j]? = some 0) <->
      (i = index ∧ m = 0) ∨ exists j, i = index + 1 + j ∧ marks[j]? = some 0 := by
  constructor
  · rintro ⟨j, hij, hj⟩
    cases j with
    | zero => exact Or.inl ⟨hij, by simpa using hj⟩
    | succ j => exact Or.inr ⟨j, by omega, by simpa using hj⟩
  · rintro (⟨hi, hm⟩ | ⟨j, hij, hj⟩)
    · exact ⟨0, hi, by simpa using hm⟩
    · exact ⟨j + 1, by omega, by simpa using hj⟩

theorem runsFrom_covers (marks : List UInt8) (index : Nat) (open? : Option UInt64)
    (hopen : OpenBefore open? index) (hsize : index + marks.length < UInt64.size) (i : Nat) :
    (exists r, r ∈ runsFrom (UInt64.ofNat (index + marks.length)) index open? marks
        ∧ r.Covers i) <->
      (beginning index open? ≤ i ∧ i < index) ∨ exists j, i = index + j ∧ marks[j]? = some 0 := by
  induction marks generalizing index open? with
  | nil =>
      cases open? with
      | none => simp [runsFrom, beginning]
      | some first =>
          have hstop : (UInt64.ofNat (index + ([] : List UInt8).length)).toNat = index :=
            UInt64.toNat_ofNat_of_lt' hsize
          rw [runsFrom]
          simp only [List.mem_singleton, exists_eq_left, OffsetRange.Covers, hstop, beginning]
          simp
  | cons m marks ih =>
      rw [add_length_cons] at hsize ⊢
      rw [exists_zero_cons]
      have hindex : index < UInt64.size := by omega
      have hclosed := ih (index + 1) none (openBefore_none _) hsize
      cases open? with
      | none =>
          rw [runsFrom]
          split
          · rename_i hm
            rw [ih (index + 1) (some (UInt64.ofNat index)) (openBefore_ofNat hindex) hsize,
              beginning, beginning, UInt64.toNat_ofNat_of_lt' hindex]
            generalize (exists j, i = index + 1 + j ∧ marks[j]? = some 0) = later
            grind
          · rename_i hm
            rw [hclosed, beginning, beginning]
            generalize (exists j, i = index + 1 + j ∧ marks[j]? = some 0) = later
            grind
      | some first =>
          have hlt := hopen first rfl
          rw [runsFrom]
          split
          · rename_i hm
            rw [ih (index + 1) (some first) hopen.succ hsize, beginning, beginning]
            generalize (exists j, i = index + 1 + j ∧ marks[j]? = some 0) = later
            grind
          · rename_i hm
            rw [List.exists_mem_cons_iff, hclosed, OffsetRange.Covers, beginning, beginning,
              UInt64.toNat_ofNat_of_lt' hindex]
            generalize (exists j, i = index + 1 + j ∧ marks[j]? = some 0) = later
            grind

/-- The runs of a list are non-empty, inside the list, in order and never adjacent. -/
theorem zeroRuns_separated (marks : List UInt8) (hsize : marks.length < UInt64.size) :
    Separated 0 marks.length (zeroRuns marks) := by
  have h := runsFrom_separated marks 0 none (openBefore_none 0) (by simpa using hsize)
  rw [Nat.zero_add] at h
  exact h

theorem zeroRuns_covers (marks : List UInt8) (hsize : marks.length < UInt64.size) (i : Nat) :
    (exists r, r ∈ zeroRuns marks ∧ r.Covers i) <-> marks[i]? = some 0 := by
  have h := runsFrom_covers marks 0 none (openBefore_none 0) (by simpa using hsize) i
  simpa [zeroRuns, beginning] using h

/-!
## Separated ranges are determined by what they cover
-/

def Covered (rs : List OffsetRange) (i : Nat) : Prop :=
  exists r, r ∈ rs ∧ r.Covers i

instance (rs : List OffsetRange) (i : Nat) : Decidable (Covered rs i) :=
  inferInstanceAs (Decidable (exists r, r ∈ rs ∧ r.Covers i))

variable {lower upper : Nat} {rs rs' : List OffsetRange} {q r : OffsetRange}

theorem Separated.apart (h : Separated lower upper rs) (hq : q ∈ rs) (hr : r ∈ rs) (hne : q ≠ r) :
    q.stop.toNat < r.first.toNat ∨ r.stop.toNat < q.first.toNat := by
  have hsymm : Std.Symm fun a b : OffsetRange =>
      a.stop.toNat < b.first.toNat ∨ b.stop.toNat < a.first.toNat := ⟨fun _ _ => Or.symm⟩
  have hapart : rs.Pairwise fun a b =>
      a.stop.toNat < b.first.toNat ∨ b.stop.toNat < a.first.toNat := h.gaps.imp Or.inl
  exact hapart.forall hq hr hne

theorem Separated.covers_of_touches (h : Separated lower upper rs) (hr : r ∈ rs) {i : Nat}
    (hcovered : Covered rs i) (hfirst : r.first.toNat ≤ i + 1) (hstop : i ≤ r.stop.toNat) :
    r.Covers i := by
  rcases hcovered with ⟨q, hq, hqfirst, hqstop⟩
  by_cases hqr : q = r
  · exact hqr ▸ ⟨hqfirst, hqstop⟩
  · have hapart := h.apart hq hr hqr
    omega

theorem Separated.maximal (h : Separated lower upper rs) (hr : r ∈ rs) :
    ¬ Covered rs r.stop.toNat ∧
      forall i, i + 1 = r.first.toNat -> ¬ Covered rs i := by
  have hnonempty := h.nonempty r hr
  constructor
  · intro hcovered
    have hcovers := h.covers_of_touches hr hcovered (by omega) le_rfl
    exact absurd hcovers.2 (Nat.lt_irrefl _)
  · intro i hi hcovered
    have hcovers := h.covers_of_touches hr hcovered hi.ge (by omega)
    exact absurd hcovers.1 (by omega)

/-- Ranges that cover the same indices are the same ranges: each of them begins and ends
where the other one does, or one would go on where the other one is not covered. -/
theorem Separated.mem_of_covered (h : Separated lower upper rs) (h' : Separated lower upper rs')
    (hsame : forall i, Covered rs i <-> Covered rs' i) (hr : r ∈ rs) : r ∈ rs' := by
  have hnonempty := h.nonempty r hr
  have hcovers : r.Covers r.first.toNat := ⟨le_rfl, hnonempty⟩
  rcases (hsame r.first.toNat).mp ⟨r, hr, hcovers⟩ with ⟨q, hq, hfirst, hstop⟩
  have hrmax := h.maximal hr
  have hqmax := h'.maximal hq
  have hbegin : q.first.toNat = r.first.toNat := by
    by_contra hne
    refine hrmax.2 (r.first.toNat - 1) (by omega) ((hsame _).mpr ⟨q, hq, ?_, ?_⟩)
    · omega
    · omega
  have hend : q.stop.toNat = r.stop.toNat := by
    rcases Nat.lt_trichotomy q.stop.toNat r.stop.toNat with hlt | heq | hgt
    · have hcovered : Covered rs q.stop.toNat := ⟨r, hr, by omega, hlt⟩
      exact absurd ((hsame _).mp hcovered) hqmax.1
    · exact heq
    · have hcovered : Covered rs' r.stop.toNat := ⟨q, hq, by omega, hgt⟩
      exact absurd ((hsame _).mpr hcovered) hrmax.1
  have hqr : q = r := by
    rcases q with ⟨first, stop⟩
    rcases r with ⟨first', stop'⟩
    rw [OffsetRange.mk.injEq]
    exact ⟨UInt64.toNat_inj.mp hbegin, UInt64.toNat_inj.mp hend⟩
  exact hqr ▸ hq

theorem Separated.pairwise_first (h : Separated lower upper rs) :
    rs.Pairwise fun a b => a.first.toNat < b.first.toNat := by
  refine h.gaps.imp_of_mem ?_
  intro a b ha _ hab
  exact (h.nonempty a ha).trans hab

theorem Separated.eq_of_covered (h : Separated lower upper rs) (h' : Separated lower upper rs')
    (hsame : forall i, Covered rs i <-> Covered rs' i) : rs = rs' := by
  have hirrefl : Std.Irrefl fun a b : OffsetRange => a.first.toNat < b.first.toNat :=
    ⟨fun a => Nat.lt_irrefl a.first.toNat⟩
  have hantisymm : Std.Antisymm fun a b : OffsetRange => a.first.toNat < b.first.toNat :=
    ⟨fun a b hab hba => absurd hab (Nat.lt_asymm hba)⟩
  refine h.pairwise_first.eq_of_mem_iff h'.pairwise_first ?_
  intro r
  exact ⟨h.mem_of_covered h' hsame, h'.mem_of_covered h fun i => (hsame i).symm⟩

/-!
## Marks made from ranges
-/

/-- Marks that are zero where one of some ranges covers them, and one elsewhere. -/
def marksOf (length : Nat) (rs : List OffsetRange) : List UInt8 :=
  (List.range length).map fun i => if Covered rs i then 0 else 1

@[simp]
theorem length_marksOf (length : Nat) (rs : List OffsetRange) :
    (marksOf length rs).length = length := by
  simp [marksOf]

theorem marksOf_eq_zero_iff {length i : Nat} :
    (marksOf length rs)[i]? = some 0 <-> i < length ∧ Covered rs i := by
  unfold marksOf
  by_cases hi : i < length
  · by_cases hcovered : Covered rs i <;> simp [hi, hcovered]
  · simp [hi]

theorem zeroRuns_marksOf {length : Nat} (h : Separated 0 length rs)
    (hsize : length < UInt64.size) : zeroRuns (marksOf length rs) = rs := by
  have hlength := length_marksOf length rs
  have hruns := zeroRuns_separated (marksOf length rs) (by rwa [hlength])
  rw [hlength] at hruns
  refine hruns.eq_of_covered h ?_
  intro i
  refine (zeroRuns_covers _ (by rwa [hlength]) i).trans (marksOf_eq_zero_iff.trans ?_)
  constructor
  · exact And.right
  · intro hcovered
    rcases hcovered with ⟨r, hr, hcovers⟩
    exact ⟨hcovers.2.trans_le (h.upper r hr), r, hr, hcovers⟩

/-!
## The end of the last range
-/

/-- Where the run at the end is closed concerns this run only, and there is one if the last
mark is zero; `before` stands for the mark in front of the list, zero while a run is open. -/
theorem runsFrom_trailing (marks : List UInt8) (index : Nat) (open? : Option UInt64)
    (before : UInt8) (hbefore : open?.isSome = true <-> before = 0) :
    exists (closed : List OffsetRange) (last? : Option UInt64),
      (last?.isSome = true <-> marks.getLastD before = 0) ∧
      forall trailing, runsFrom trailing index open? marks =
        closed ++ (last?.map fun first => ⟨first, trailing⟩).toList := by
  induction marks generalizing index open? before with
  | nil =>
      refine ⟨[], open?, hbefore, ?_⟩
      intro trailing
      cases open? with
      | none => rfl
      | some first => rfl
  | cons m marks ih =>
      rw [List.getLastD_cons]
      by_cases hm : m = 0
      · rcases ih (index + 1) (some (open?.getD (UInt64.ofNat index))) m (by simp [hm]) with
          ⟨closed, last?, hlast, hruns⟩
        refine ⟨closed, last?, hlast, ?_⟩
        intro trailing
        rw [← hruns]
        cases open? with
        | none => rw [runsFrom, if_pos hm, Option.getD_none]
        | some first => rw [runsFrom, if_pos hm, Option.getD_some]
      · rcases ih (index + 1) none m (by simp [hm]) with ⟨closed, last?, hlast, hruns⟩
        cases open? with
        | none =>
            refine ⟨closed, last?, hlast, ?_⟩
            intro trailing
            rw [← hruns, runsFrom, if_neg hm]
        | some first =>
            refine ⟨⟨first, UInt64.ofNat index⟩ :: closed, last?, hlast, ?_⟩
            intro trailing
            rw [List.cons_append, ← hruns, runsFrom, if_neg hm]

/-- The two rules give the same runs, but for the end of a run that reaches the end. -/
theorem legacyZeroRuns_cases (marks : List UInt8) :
    (marks.getLast? ≠ some 0 ∧ legacyZeroRuns marks = zeroRuns marks) ∨
    (marks.getLast? = some 0 ∧ exists closed first,
      zeroRuns marks = closed ++ [⟨first, UInt64.ofNat marks.length⟩] ∧
      legacyZeroRuns marks = closed ++ [⟨first, UInt64.ofNat (marks.length - 1)⟩]) := by
  rcases runsFrom_trailing marks 0 none 1 (by decide) with ⟨closed, last?, hlast, hruns⟩
  have hzero : marks.getLastD 1 = 0 <-> marks.getLast? = some 0 := by
    rw [List.getLastD_eq_getLast?]
    cases marks.getLast? <;> simp
  rw [hzero] at hlast
  unfold zeroRuns legacyZeroRuns
  cases last? with
  | none =>
      refine Or.inl ⟨by simpa using hlast, ?_⟩
      rw [hruns, hruns]
      rfl
  | some first =>
      refine Or.inr ⟨by simpa using hlast, closed, first, ?_, ?_⟩
      · rw [hruns]
        rfl
      · rw [hruns]
        rfl

/-- The ranges of a list of marks are non-empty, inside the list, in order and never adjacent,
and an index is covered if and only if its mark is zero, so each of them is as long as it can
be.  Under the rule of older reports the list is the same, except that a range which reaches
the end stops one mark earlier.  Marks made from the ranges have these ranges again. -/
theorem zeroRuns_exact (marks : List UInt8) (hsize : marks.length < UInt64.size) :
    Separated 0 marks.length (zeroRuns marks) ∧
    (forall i, Covered (zeroRuns marks) i <-> marks[i]? = some 0) ∧
    (forall r, r ∈ zeroRuns marks -> marks[r.stop.toNat]? ≠ some 0 ∧
      forall i, i + 1 = r.first.toNat -> marks[i]? ≠ some 0) ∧
    (marks.getLast? ≠ some 0 -> legacyZeroRuns marks = zeroRuns marks) ∧
    (marks.getLast? = some 0 -> exists closed first,
      zeroRuns marks = closed ++ [⟨first, UInt64.ofNat marks.length⟩] ∧
      legacyZeroRuns marks = closed ++ [⟨first, UInt64.ofNat (marks.length - 1)⟩]) ∧
    zeroRuns (marksOf marks.length (zeroRuns marks)) = zeroRuns marks := by
  have hseparated := zeroRuns_separated marks hsize
  have hcovered : forall i, Covered (zeroRuns marks) i <-> marks[i]? = some 0 :=
    zeroRuns_covers marks hsize
  refine ⟨hseparated, hcovered, ?_, ?_, ?_, zeroRuns_marksOf hseparated hsize⟩
  · intro r hr
    have hmaximal := hseparated.maximal hr
    simpa only [hcovered] using hmaximal
  · intro hlast
    rcases legacyZeroRuns_cases marks with ⟨_, hsame⟩ | ⟨hzero, _⟩
    · exact hsame
    · exact absurd hzero hlast
  · intro hlast
    rcases legacyZeroRuns_cases marks with ⟨hother, _⟩ | ⟨_, hruns⟩
    · exact absurd hlast hother
    · exact hruns

def fringes : List UInt8 := [0, 7, 0, 0]

theorem zeroRuns_exact_fringes :
    fringes.length < UInt64.size ∧ Separated 0 4 (zeroRuns fringes) ∧
      zeroRuns fringes = [⟨0, 1⟩, ⟨2, 4⟩] ∧ legacyZeroRuns fringes = [⟨0, 1⟩, ⟨2, 3⟩] ∧
      zeroRuns (marksOf 4 (zeroRuns fringes)) = zeroRuns fringes := by
  have hsize : fringes.length < UInt64.size := by decide
  have hexact := zeroRuns_exact fringes hsize
  exact ⟨hsize, hexact.1, rfl, rfl, hexact.2.2.2.2.2⟩

end Runs
end TaintTrace
