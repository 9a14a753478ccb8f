import Mathlib
import TaintTrace.Proofs.Cavity
import TaintTrace.Proofs.Node
import TaintTrace.Trace.Validity

/-!
# Traces without problems

All problems of a trace can be listed at once, and a check with a limit gives the first ones
of that list.  There are none if and only if the trace is consistent: a property of its
tables that mentions neither the order of the checks nor the neighbours of a sorted list.
-/

namespace TaintTrace

/-- Whether no label was set aside for both of two files. -/
def Header.Disjoint (a b : Header) : Prop :=
  forall l, ¬ (a.contains l = true ∧ b.contains l = true)

namespace Trace

variable {t : Trace}

def HasLabel (t : Trace) (l : Label) : Prop :=
  l ≠ 0 ∧ l.toNat < t.labelCount

theorem HasLabel.mem_labels {l : Label} (h : t.HasLabel l) : l ∈ t.labels := by
  have hpositive : l.toNat ≠ 0 := fun hzero => h.1 (UInt32.toNat_inj.mp hzero)
  refine List.mem_map.mpr ⟨l.toNat, ?_, UInt32.ofNat_toNat⟩
  rw [List.mem_range'_1]
  have hlt := h.2
  omega

theorem toNat_lt_of_mem_labels {l : Label} (h : l ∈ t.labels) : l.toNat < t.labelCount := by
  rcases List.mem_map.mp h with ⟨k, hk, rfl⟩
  rw [List.mem_range'_1] at hk
  have hle : (UInt32.ofNat k).toNat ≤ k := by
    rw [UInt32.toNat_ofNat']
    exact Nat.mod_le _ _
  omega

/-- What the node of a label may refer to: a file that has a header, or earlier labels. -/
structure Fits (t : Trace) (l : Label) (n : Node) : Prop where
  file : forall file offset, n.origin = .source file offset -> file.toNat < t.headers.length
  children : forall c, c ∈ n.children -> c ≠ 0 ∧ c < l

structure Consistent (t : Trace) : Prop where
  ordered : forall h, h ∈ t.headers -> h.labelBegin ≤ h.labelEnd
  disjoint : t.headers.Pairwise Header.Disjoint
  nodes : forall l, l ∈ t.labels -> exists n, t.decode l = .ok n ∧ t.Fits l n
  sinks : forall s, s ∈ t.sinks -> t.HasLabel s.label ∧ s.output.toNat < t.headers.length
  taints : forall o, o ∈ t.taints ->
    t.HasLabel o.label ∧ 0 ≤ o.output ∧ o.output < t.headers.length

end Trace

namespace Validity

variable {t : Trace}

/-!
## Reports one after the other

A list of problems can be reported up to the one that ends the check.  Reports do not look at
what was found before, so what a limit leaves is the beginning of the list.
-/

namespace Signal

variable {s : Signal}

theorem andThen_of_stop (h : s.stop = true) (next : Findings -> Signal) : s.andThen next = s :=
  if_pos h

theorem andThen_of_not_stop (h : s.stop = false) (next : Findings -> Signal) :
    s.andThen next = next s.findings := by
  rw [andThen, h]
  rfl

theorem andThen_assoc (s : Signal) (next last : Findings -> Signal) :
    (s.andThen next).andThen last = s.andThen fun f => (next f).andThen last := by
  cases h : s.stop with
  | true => rw [andThen_of_stop h, andThen_of_stop h, andThen_of_stop h]
  | false => rw [andThen_of_not_stop h, andThen_of_not_stop h]

theorem andThen_congr {next next' : Findings -> Signal} (h : forall f, next f = next' f)
    (s : Signal) : s.andThen next = s.andThen next' := by
  rw [funext h]

theorem eq_goOn (h : s.stop = false) : s = s.findings.goOn := by
  rcases s with ⟨stop, findings⟩
  cases h
  rfl

end Signal

namespace Findings

variable {f : Findings}

def reportAll : Findings -> List Problem -> Signal
  | f, [] => f.goOn
  | f, p :: ps => (f.report p).andThen fun f => f.reportAll ps

theorem reportAll_append (f : Findings) (ps qs : List Problem) :
    f.reportAll (ps ++ qs) = (f.reportAll ps).andThen fun f => f.reportAll qs := by
  induction ps generalizing f with
  | nil => rfl
  | cons p ps ih =>
      rw [List.cons_append, reportAll, reportAll, Signal.andThen_assoc]
      exact Signal.andThen_congr ih _

theorem reportAll_singleton (f : Findings) (p : Problem) : f.reportAll [p] = f.report p := by
  rw [reportAll]
  cases h : (f.report p).stop with
  | true => rw [Signal.andThen_of_stop h]
  | false =>
      rw [Signal.andThen_of_not_stop h]
      exact (Signal.eq_goOn h).symm

theorem length_le_reportAll (f : Findings) (ps : List Problem) :
    f.found.length ≤ (f.reportAll ps).findings.found.length := by
  induction ps generalizing f with
  | nil => exact Nat.le_refl _
  | cons p ps ih =>
      have hone : f.found.length ≤ (f.report p).findings.found.length := Nat.le_succ _
      rw [reportAll]
      cases h : (f.report p).stop with
      | true => rwa [Signal.andThen_of_stop h]
      | false =>
          rw [Signal.andThen_of_not_stop h]
          exact hone.trans (ih _)

theorem reportAll_eq_goOn_iff {ps : List Problem} : f.reportAll ps = f.goOn <-> ps = [] := by
  constructor
  · intro heq
    cases ps with
    | nil => rfl
    | cons p ps =>
        have hrest := length_le_reportAll (f.report p).findings ps
        have hlength : (f.report p).findings.found.length = f.found.length + 1 := rfl
        rw [reportAll] at heq
        cases h : (f.report p).stop with
        | true =>
            rw [Signal.andThen_of_stop h] at heq
            rw [heq] at h
            cases h
        | false =>
            rw [Signal.andThen_of_not_stop h] at heq
            rw [heq, hlength] at hrest
            exact absurd hrest (Nat.not_succ_le_self _)
  · rintro rfl
    rfl

def wanted (f : Findings) (ps : List Problem) : List Problem :=
  if 0 < f.limit then ps.take (f.limit.toNat - f.found.length) else ps

/-- A check that goes on has not reached its limit. -/
def Open (f : Findings) : Prop :=
  0 < f.limit -> (f.found.length : Int) < f.limit

theorem open_start (limit : Int) : (start limit).Open :=
  fun hlimit => hlimit

theorem stop_report_iff {p : Problem} :
    (f.report p).stop = true <-> 0 < f.limit ∧ f.limit ≤ f.found.length + 1 := by
  simp [report]

theorem open_report {p : Problem} (hstop : (f.report p).stop = false) :
    (f.report p).findings.Open := by
  intro hlimit
  change 0 < f.limit at hlimit
  change ((p :: f.found).length : Int) < f.limit
  rw [← Bool.not_eq_true, stop_report_iff] at hstop
  rw [List.length_cons]
  omega

theorem wanted_cons (hopen : f.Open) (p : Problem) (ps : List Problem) :
    f.wanted (p :: ps) = p :: (f.report p).findings.wanted ps := by
  unfold wanted
  change (if 0 < f.limit then _ else _) = p :: (if 0 < f.limit then _ else _)
  split
  · rename_i hlimit
    have hlt := hopen hlimit
    have hroom : f.limit.toNat - f.found.length =
        (f.limit.toNat - (p :: f.found).length) + 1 := by
      rw [List.length_cons]
      omega
    rw [hroom, List.take_succ_cons]
    rfl
  · rfl

theorem wanted_eq_nil_of_stop {p : Problem} (hstop : (f.report p).stop = true)
    (ps : List Problem) : (f.report p).findings.wanted ps = [] := by
  rcases stop_report_iff.mp hstop with ⟨hlimit, hle⟩
  have hroom : f.limit.toNat - (p :: f.found).length = 0 := by
    rw [List.length_cons]
    omega
  exact (if_pos hlimit).trans (List.take_eq_nil_iff.mpr (Or.inl hroom))

theorem found_reportAll (hopen : f.Open) (ps : List Problem) :
    (f.reportAll ps).problems = f.found.reverse ++ f.wanted ps := by
  induction ps generalizing f with
  | nil => simp [reportAll, goOn, Signal.problems, wanted]
  | cons p ps ih =>
      have hfound : (f.report p).findings.found.reverse = f.found.reverse ++ [p] :=
        List.reverse_cons
      rw [reportAll, wanted_cons hopen]
      cases hstop : (f.report p).stop with
      | true =>
          rw [Signal.andThen_of_stop hstop, wanted_eq_nil_of_stop hstop, Signal.problems, hfound]
      | false =>
          rw [Signal.andThen_of_not_stop hstop, ih (open_report hstop), hfound,
            List.append_assoc]
          rfl

/-- A limit on the number of problems is never a limit of none. -/
theorem wanted_start_eq_nil_iff {limit : Int} {ps : List Problem} :
    (start limit).wanted ps = [] <-> ps = [] := by
  unfold wanted
  split
  · rename_i hlimit
    change 0 < limit at hlimit
    change ps.take (limit.toNat - 0) = [] <-> _
    rw [List.take_eq_nil_iff]
    exact or_iff_right (by omega)
  · rfl

end Findings

/-!
## What each part reports

The problems of each part as a list, in the order in which the loop over it reports them.
-/

def reversedHeaders (hs : List Header) : List Problem :=
  (hs.filter fun h => h.labelEnd < h.labelBegin).map .reversedHeader

/-- Neighbours that overlap, in a list sorted by first label. -/
def overlaps : List Header -> List Problem
  | a :: b :: rest =>
      if b.labelBegin < a.labelEnd then .overlap a b :: overlaps (b :: rest)
      else overlaps (b :: rest)
  | _ => []

def headerProblems (hs : List Header) : List Problem :=
  let nonempty := hs.filter fun h => 0 < h.length
  reversedHeaders hs ++ overlaps (nonempty.mergeSort fun a b => a.labelBegin ≤ b.labelBegin)

theorem length_eq_zero_of_reversed {h : Header} (hlt : h.labelEnd < h.labelBegin) :
    h.length = 0 := by
  rw [UInt32.lt_iff_toNat_lt] at hlt
  unfold Header.length
  omega

theorem checkOrder_eq (hs kept : List Header) (f : Findings) :
    (checkOrder hs kept f).1 = f.reportAll (reversedHeaders hs) ∧
      ((checkOrder hs kept f).1.stop = false ->
        (checkOrder hs kept f).2 = kept.reverse ++ hs.filter fun h => 0 < h.length) := by
  induction hs generalizing kept f with
  | nil => simp [checkOrder, reversedHeaders, Findings.reportAll]
  | cons h hs ih =>
      rw [checkOrder]
      split
      · rename_i hlt
        have hlength : h.length = 0 := length_eq_zero_of_reversed hlt
        have hlist : reversedHeaders (h :: hs) = .reversedHeader h :: reversedHeaders hs := by
          simp [reversedHeaders, hlt]
        rw [hlist, Findings.reportAll]
        dsimp only
        cases hstop : (f.report (.reversedHeader h)).stop with
        | true =>
            rw [if_pos rfl, Signal.andThen_of_stop hstop]
            refine ⟨rfl, ?_⟩
            intro hgoes
            rw [hstop] at hgoes
            cases hgoes
        | false =>
            rw [if_neg Bool.false_ne_true, Signal.andThen_of_not_stop hstop]
            rcases ih kept (f.report (.reversedHeader h)).findings with ⟨hsignal, hkept⟩
            refine ⟨hsignal, ?_⟩
            intro hgoes
            rw [hkept hgoes]
            simp [hlength]
      · rename_i hle
        have hlist : reversedHeaders (h :: hs) = reversedHeaders hs := by
          simp [reversedHeaders, hle]
        rw [hlist]
        rcases ih (if 0 < h.length then h :: kept else kept) f with ⟨hsignal, hkept⟩
        refine ⟨hsignal, ?_⟩
        intro hgoes
        rw [hkept hgoes]
        split
        · rename_i hlength
          simp [hlength]
        · rename_i hlength
          simp [hlength]

theorem checkNeighbours_eq (hs : List Header) (f : Findings) :
    checkNeighbours hs f = f.reportAll (overlaps hs) := by
  induction hs generalizing f with
  | nil => rfl
  | cons a hs ih =>
      cases hs with
      | nil => rfl
      | cons b hs =>
          rw [checkNeighbours, overlaps]
          split
          · exact Signal.andThen_congr ih _
          · exact ih f

theorem checkHeaders_eq (hs : List Header) (f : Findings) :
    checkHeaders hs f = f.reportAll (headerProblems hs) := by
  rcases checkOrder_eq hs [] f with ⟨hsignal, hkept⟩
  unfold checkHeaders headerProblems
  dsimp only
  rw [Findings.reportAll_append, ← hsignal]
  cases hstop : (checkOrder hs [] f).1.stop with
  | true => rw [Signal.andThen_of_stop hstop, Signal.andThen_of_stop hstop]
  | false =>
      rw [Signal.andThen_of_not_stop hstop, Signal.andThen_of_not_stop hstop, checkNeighbours_eq,
        hkept hstop]
      rfl

def nodeProblems (t : Trace) (l : Label) : Except InvalidLabel Node -> List Problem
  | .error e => [.undecodable l e]
  | .ok n =>
      match n.origin with
      | .source file _ =>
          if t.headers.length ≤ file.toNat then [.unknownFile l file t.headers.length] else []
      | _ => n.children.filterMap (childProblem? t.labelCount l n)

theorem checkChildren_eq (count : Nat) (l : Label) (n : Node) (remaining i : Nat) (f : Findings) :
    checkChildren count l n remaining i f =
      f.reportAll (((List.range' i remaining).map n.child).filterMap (childProblem? count l n)) := by
  induction remaining generalizing i f with
  | zero => rfl
  | succ remaining ih =>
      rw [checkChildren, List.range'_succ, List.map_cons]
      cases hchild : childProblem? count l n (n.child i) with
      | none => rw [List.filterMap_cons_none hchild, ih]
      | some p =>
          rw [List.filterMap_cons_some hchild]
          exact Signal.andThen_congr (ih (i + 1)) _

theorem checkNode_eq (t : Trace) (l : Label) (r : Except InvalidLabel Node) (f : Findings) :
    checkNode t l r f = f.reportAll (nodeProblems t l r) := by
  cases r with
  | error e => exact (Findings.reportAll_singleton f _).symm
  | ok n =>
      rcases n with ⟨origin, controlFlow⟩
      cases origin with
      | source file offset =>
          dsimp only [checkNode, nodeProblems]
          split
          · exact (Findings.reportAll_singleton f _).symm
          · rfl
      | union left right =>
          dsimp only [checkNode, nodeProblems]
          rw [checkChildren_eq, Node.children_eq]
      | range first last =>
          dsimp only [checkNode, nodeProblems]
          rw [checkChildren_eq, Node.children_eq]

theorem checkLabels_eq (t : Trace) (nodes : Label -> Except InvalidLabel Node)
    (count label : Nat) (f : Findings) :
    (checkLabels t count label f).answer nodes =
      f.reportAll (((List.range' label count).map UInt32.ofNat).flatMap fun l =>
        nodeProblems t l (nodes l)) := by
  induction count generalizing label f with
  | zero => rfl
  | succ count ih =>
      rw [checkLabels, List.range'_succ, List.map_cons, List.flatMap_cons, Lookup.answer_decode,
        Findings.reportAll_append, ← checkNode_eq]
      dsimp only
      cases hstop : (checkNode t (UInt32.ofNat label) (nodes (UInt32.ofNat label)) f).stop with
      | true =>
          rw [if_pos rfl, Signal.andThen_of_stop hstop]
          rfl
      | false =>
          rw [if_neg Bool.false_ne_true, Signal.andThen_of_not_stop hstop]
          exact ih _ _

/-- A visitor keeps the signal of its last report, which is to go on as long as it is called. -/
theorem visit_eq {α : Type} (problem? : Nat -> α -> Option Problem) (i : Nat) (xs : List α)
    (f : Findings) :
    visit problem? i xs f.goOn =
      f.reportAll ((xs.mapIdx fun j => problem? (i + j)).filterMap id) := by
  induction xs generalizing i f with
  | nil => rfl
  | cons x xs ih =>
      have hrest : (xs.mapIdx fun j => problem? (i + (j + 1))) =
          xs.mapIdx fun j => problem? (i + 1 + j) := by
        congr 1
        funext j
        rw [Nat.add_assoc, Nat.add_comm 1]
      rw [visit, List.mapIdx_cons, hrest, Nat.add_zero]
      cases hx : problem? i x with
      | none =>
          rw [List.filterMap_cons_none (by rfl)]
          exact ih (i + 1) f
      | some p =>
          rw [List.filterMap_cons_some (by rfl), Findings.reportAll]
          dsimp only
          cases hstop : (f.report p).stop with
          | true =>
              rw [Signal.andThen_of_stop hstop]
              exact if_pos hstop
          | false =>
              rw [Signal.andThen_of_not_stop hstop, ← ih, ← Signal.eq_goOn hstop]
              exact if_neg (by rw [Findings.goOn, hstop]; exact Bool.false_ne_true)

def outputProblems (t : Trace) : List Problem :=
  (t.sinks.mapIdx (sinkProblem? t)).filterMap id
    ++ (t.taints.mapIdx (taintProblem? t)).filterMap id

theorem checkOutputs_eq (t : Trace) (f : Findings) :
    checkOutputs t f = f.reportAll (outputProblems t) := by
  have hvisit : forall {α : Type} (problem? : Nat -> α -> Option Problem) (xs : List α)
      (f : Findings),
      visit problem? 0 xs f.goOn = f.reportAll ((xs.mapIdx problem?).filterMap id) := by
    intro α problem? xs f
    simpa using visit_eq problem? 0 xs f
  unfold checkOutputs outputProblems
  dsimp only
  rw [Findings.reportAll_append, ← hvisit (sinkProblem? t)]
  cases hstop : (visit (sinkProblem? t) 0 t.sinks f.goOn).stop with
  | true => rw [if_pos rfl, Signal.andThen_of_stop hstop]
  | false =>
      rw [if_neg Bool.false_ne_true, Signal.andThen_of_not_stop hstop, ← hvisit (taintProblem? t),
        ← Signal.eq_goOn hstop]

def allProblems (t : Trace) : List Problem :=
  headerProblems t.headers ++ ((t.labels.flatMap fun l => nodeProblems t l (t.decode l)) ++
    outputProblems t)

theorem problems_run_eq_reportAll (t : Trace) (limit : Int) :
    (t.problems limit).run t = ((Findings.start limit).reportAll (allProblems t)).problems := by
  unfold Trace.problems allProblems Lookup.run
  dsimp only
  rw [Findings.reportAll_append, ← checkHeaders_eq]
  cases hstop : (checkHeaders t.headers (Findings.start limit)).stop with
  | true => rw [if_pos rfl, Signal.andThen_of_stop hstop, Lookup.answer_done]
  | false =>
      rw [if_neg Bool.false_ne_true, Signal.andThen_of_not_stop hstop, Lookup.answer_bind,
        Lookup.answer_done, checkLabels_eq, Findings.reportAll_append,
        Signal.andThen_congr (checkOutputs_eq t)]
      rfl

/-- A check gives the first problems of all, as many as are wanted. -/
theorem problems_run (t : Trace) (limit : Int) :
    (t.problems limit).run t = (Findings.start limit).wanted (allProblems t) := by
  rw [problems_run_eq_reportAll, Findings.found_reportAll (Findings.open_start limit)]
  rfl

/-!
## Headers
-/

theorem reversedHeaders_eq_nil_iff {hs : List Header} :
    reversedHeaders hs = [] <-> forall h, h ∈ hs -> h.labelBegin ≤ h.labelEnd := by
  rw [reversedHeaders, List.map_eq_nil_iff, List.filter_eq_nil_iff]
  refine forall₂_congr fun h _ => ?_
  rw [decide_eq_true_eq, UInt32.not_lt]

theorem overlaps_eq_nil_iff {hs : List Header} :
    overlaps hs = [] <-> hs.IsChain fun a b => a.labelEnd ≤ b.labelBegin := by
  induction hs with
  | nil => simp [overlaps]
  | cons a hs ih =>
      cases hs with
      | nil => simp [overlaps]
      | cons b hs =>
          rw [overlaps, List.isChain_cons_cons, ← ih, ← UInt32.not_lt]
          split
          · rename_i hlt
            simp [hlt]
          · rename_i hlt
            simp [hlt]

theorem length_pos_iff {h : Header} : 0 < h.length <-> h.labelBegin.toNat < h.labelEnd.toNat := by
  unfold Header.length
  omega

/-- Files without labels of their own share none with others. -/
theorem pairwise_disjoint_filter {hs : List Header} :
    (hs.filter fun h => 0 < h.length).Pairwise Header.Disjoint <-> hs.Pairwise Header.Disjoint := by
  rw [List.pairwise_filter]
  constructor
  · refine List.Pairwise.imp ?_
    intro a b h l hboth
    have ha := Header.contains_iff.mp hboth.1
    have hb := Header.contains_iff.mp hboth.2
    refine h ?_ ?_ l hboth
    · rw [decide_eq_true_eq, length_pos_iff]
      omega
    · rw [decide_eq_true_eq, length_pos_iff]
      omega
  · refine List.Pairwise.imp ?_
    intro a b h _ _
    exact h

/-- Of headers in the order of their first labels, each ends before the next one begins if and
only if no two of them have a label in common. -/
theorem isChain_iff_disjoint {hs : List Header} (hlength : forall h, h ∈ hs -> 0 < h.length)
    (hsorted : hs.Pairwise fun a b => a.labelBegin ≤ b.labelBegin) :
    (hs.IsChain fun a b => a.labelEnd ≤ b.labelBegin) <-> hs.Pairwise Header.Disjoint := by
  constructor
  · intro hchain
    have htrans : Trans (fun a b : Header => a.labelEnd ≤ b.labelBegin ∧ 0 < b.length)
        (fun a b : Header => a.labelEnd ≤ b.labelBegin ∧ 0 < b.length)
        (fun a b : Header => a.labelEnd ≤ b.labelBegin ∧ 0 < b.length) := by
      refine ⟨?_⟩
      intro a b c hab hbc
      refine ⟨?_, hbc.2⟩
      have hb := length_pos_iff.mp hab.2
      have hab := UInt32.le_iff_toNat_le.mp hab.1
      have hbc := UInt32.le_iff_toNat_le.mp hbc.1
      rw [UInt32.le_iff_toNat_le]
      omega
    have hapart : hs.IsChain fun a b => a.labelEnd ≤ b.labelBegin ∧ 0 < b.length :=
      hchain.imp_of_mem_imp fun a b _ hb hle => ⟨hle, hlength b hb⟩
    refine hapart.pairwise.imp ?_
    intro a b hab l hboth
    have ha := Header.contains_iff.mp hboth.1
    have hb := Header.contains_iff.mp hboth.2
    have hab := UInt32.le_iff_toNat_le.mp hab.1
    omega
  · intro hdisjoint
    refine ((hdisjoint.and hsorted).imp_of_mem ?_).isChain
    intro a b ha hb hab
    -- If the first one went on, the first label of the second one would be in both.
    by_contra hover
    refine hab.1 b.labelBegin ⟨Header.contains_iff.mpr ?_, Header.contains_iff.mpr ?_⟩
    · have hle := UInt32.le_iff_toNat_le.mp hab.2
      have hlt := UInt32.lt_iff_toNat_lt.mp (UInt32.not_le.mp hover)
      exact ⟨hle, hlt⟩
    · exact ⟨le_rfl, length_pos_iff.mp (hlength b hb)⟩

/-- It makes no difference in which order a sort leaves headers that begin alike. -/
theorem overlaps_eq_nil_iff_disjoint {hs sorted : List Header}
    (hperm : sorted.Perm (hs.filter fun h => 0 < h.length))
    (hsorted : sorted.Pairwise fun a b => a.labelBegin ≤ b.labelBegin) :
    overlaps sorted = [] <-> (hs.filter fun h => 0 < h.length).Pairwise Header.Disjoint := by
  have hlength : forall h, h ∈ sorted -> 0 < h.length := by
    intro h hh
    rw [hperm.mem_iff, List.mem_filter, decide_eq_true_eq] at hh
    exact hh.2
  rw [overlaps_eq_nil_iff, isChain_iff_disjoint hlength hsorted]
  refine hperm.pairwise_iff ?_
  intro a b hab l hboth
  exact hab l hboth.symm

theorem mergeSort_labelBegin_pairwise (hs : List Header) :
    (hs.mergeSort fun a b => a.labelBegin ≤ b.labelBegin).Pairwise fun a b =>
      a.labelBegin ≤ b.labelBegin := by
  refine (List.pairwise_mergeSort ?_ ?_ hs).imp ?_
  · intro a b c hab hbc
    rw [decide_eq_true_eq] at hab hbc ⊢
    exact UInt32.le_trans hab hbc
  · intro a b
    rw [Bool.or_eq_true, decide_eq_true_eq, decide_eq_true_eq]
    exact UInt32.le_total a.labelBegin b.labelBegin
  · intro a b hab
    exact decide_eq_true_eq.mp hab

theorem headerProblems_eq_nil_iff {hs : List Header} :
    headerProblems hs = [] <->
      (forall h, h ∈ hs -> h.labelBegin ≤ h.labelEnd) ∧ hs.Pairwise Header.Disjoint := by
  unfold headerProblems
  rw [List.append_eq_nil_iff, reversedHeaders_eq_nil_iff, ← pairwise_disjoint_filter,
    overlaps_eq_nil_iff_disjoint (List.mergeSort_perm _ _) (mergeSort_labelBegin_pairwise _)]

/-!
## Nodes and outputs
-/

theorem find?_eq_none_iff {l : Label} :
    InvalidLabel.find? l t.labelCount = none <-> t.HasLabel l := by
  unfold InvalidLabel.find? Trace.HasLabel
  split
  · rename_i hinvalid
    refine iff_of_false (by simp) ?_
    intro hhas
    rcases hinvalid with hzero | hlarge
    · exact hhas.1 hzero
    · exact absurd hhas.2 (Nat.not_lt.mpr hlarge)
  · rename_i hvalid
    rw [not_or, Nat.not_le] at hvalid
    exact iff_of_true rfl hvalid

theorem childProblem?_eq_none_iff {l c : Label} {n : Node} (hl : l ∈ t.labels) :
    childProblem? t.labelCount l n c = none <-> c ≠ 0 ∧ c < l := by
  have hlabel := Trace.toNat_lt_of_mem_labels hl
  unfold childProblem?
  split
  · rename_i hinvalid
    refine iff_of_false (by simp) ?_
    rintro ⟨hzero, hlt⟩
    have hlt := UInt32.lt_iff_toNat_lt.mp hlt
    rcases hinvalid with hinvalid | hinvalid
    · exact hzero hinvalid
    · omega
  · rename_i hvalid
    rw [not_or] at hvalid
    split
    · rename_i hle
      exact iff_of_false (by simp) fun hc => UInt32.not_le.mpr hc.2 hle
    · rename_i hle
      exact iff_of_true rfl ⟨hvalid.1, UInt32.not_le.mp hle⟩

theorem nodeProblems_eq_nil_iff {l : Label} {r : Except InvalidLabel Node} (hl : l ∈ t.labels) :
    nodeProblems t l r = [] <-> exists n, r = .ok n ∧ t.Fits l n := by
  cases r with
  | error e => simp [nodeProblems]
  | ok n =>
      have hok : (exists m, Except.ok (ε := InvalidLabel) n = .ok m ∧ t.Fits l m) <->
          t.Fits l n := by
        simp
      have hchildren : n.children.filterMap (childProblem? t.labelCount l n) = [] <->
          forall c, c ∈ n.children -> c ≠ 0 ∧ c < l := by
        rw [List.filterMap_eq_nil_iff]
        exact forall₂_congr fun c _ => childProblem?_eq_none_iff hl
      rw [hok]
      rcases n with ⟨origin, controlFlow⟩
      cases origin with
      | source file offset =>
          dsimp only [nodeProblems]
          constructor
          · intro hnone
            split at hnone
            · cases hnone
            · rename_i hfile
              refine ⟨?_, ?_⟩
              · intro file' offset' heq
                cases heq
                exact Nat.not_le.mp hfile
              · intro c hc
                cases hc
          · intro hfits
            exact if_neg (Nat.not_le.mpr (hfits.file file offset rfl))
      | union left right =>
          refine hchildren.trans ⟨fun h => ⟨?_, h⟩, Trace.Fits.children⟩
          intro file offset heq
          cases heq
      | range first last =>
          refine hchildren.trans ⟨fun h => ⟨?_, h⟩, Trace.Fits.children⟩
          intro file offset heq
          cases heq

theorem filterMap_mapIdx_eq_nil_iff {α : Type} {xs : List α} {f : Nat -> α -> Option Problem}
    {P : α -> Prop} (hf : forall i x, f i x = none <-> P x) :
    (xs.mapIdx f).filterMap id = [] <-> forall x, x ∈ xs -> P x := by
  rw [List.filterMap_eq_nil_iff, List.forall_mem_iff_getElem, List.forall_mem_iff_getElem]
  simp only [List.getElem_mapIdx, List.length_mapIdx, id_eq, hf]

theorem sinkProblem?_eq_none_iff (i : Nat) (s : Sink) :
    sinkProblem? t i s = none <-> t.HasLabel s.label ∧ s.output.toNat < t.headers.length := by
  rw [← find?_eq_none_iff]
  unfold sinkProblem?
  cases InvalidLabel.find? s.label t.labelCount with
  | some e => simp
  | none => simp

theorem taintProblem?_eq_none_iff (i : Nat) (o : OutputTaint) :
    taintProblem? t i o = none <->
      t.HasLabel o.label ∧ 0 ≤ o.output ∧ o.output < t.headers.length := by
  rw [← find?_eq_none_iff]
  unfold taintProblem?
  cases InvalidLabel.find? o.label t.labelCount with
  | some e => simp
  | none => simp

/-!
## Consistency
-/

theorem allProblems_eq_nil_iff : allProblems t = [] <-> t.Consistent := by
  unfold allProblems outputProblems
  rw [List.append_eq_nil_iff, List.append_eq_nil_iff, List.append_eq_nil_iff,
    headerProblems_eq_nil_iff, List.flatMap_eq_nil_iff,
    filterMap_mapIdx_eq_nil_iff sinkProblem?_eq_none_iff,
    filterMap_mapIdx_eq_nil_iff taintProblem?_eq_none_iff]
  constructor
  · rintro ⟨⟨hordered, hdisjoint⟩, hnodes, hsinks, htaints⟩
    exact ⟨hordered, hdisjoint, fun l hl => (nodeProblems_eq_nil_iff hl).mp (hnodes l hl), hsinks,
      htaints⟩
  · intro h
    exact ⟨⟨h.ordered, h.disjoint⟩, fun l hl => (nodeProblems_eq_nil_iff hl).mpr (h.nodes l hl),
      h.sinks, h.taints⟩

theorem problems_eq_nil_iff {limit : Int} : (t.problems limit).run t = [] <-> t.Consistent := by
  rw [problems_run, Findings.wanted_start_eq_nil_iff, allProblems_eq_nil_iff]

theorem problems_without_limit (t : Trace) : (t.problems 0).run t = allProblems t :=
  problems_run t 0

end Validity

/-!
## What a check tells

Consistency is spelled out here label by label, with the numbers of labels as they are
counted.
-/

namespace Trace

theorem forall_mem_labels_iff {t : Trace} {P : Label -> Prop} :
    (forall l, l ∈ t.labels -> P l) <->
      forall k, 1 ≤ k -> k < t.labelCount -> P (UInt32.ofNat k) := by
  unfold labels
  simp only [List.mem_map, List.mem_range'_1]
  constructor
  · intro h k hone hlt
    exact h _ ⟨k, by omega, rfl⟩
  · intro h l hl
    rcases hl with ⟨k, hk, rfl⟩
    exact h k hk.1 (by omega)

theorem exists_fits_iff {t : Trace} {l : Label} :
    (exists n, t.decode l = .ok n ∧ t.Fits l n) <->
      (exists file offset controlFlow, t.decode l = .ok ⟨.source file offset, controlFlow⟩ ∧
        file.toNat < t.headers.length) ∨
      exists n, t.decode l = .ok n ∧ n.isSource = false ∧
        forall c, c ∈ n.children -> 1 ≤ c ∧ c < l := by
  have hpos : forall c : Label, 1 ≤ c <-> c ≠ 0 := by
    intro c
    rw [UInt32.le_iff_toNat_le, ne_eq, ← UInt32.toNat_inj]
    exact Nat.one_le_iff_ne_zero
  constructor
  · intro h
    rcases h with ⟨⟨origin, controlFlow⟩, hn, hfits⟩
    have hchildren : forall c, c ∈ Node.children ⟨origin, controlFlow⟩ -> 1 ≤ c ∧ c < l := by
      intro c hc
      rw [hpos]
      exact hfits.children c hc
    cases origin with
    | source file offset => exact Or.inl ⟨file, offset, controlFlow, hn, hfits.file _ _ rfl⟩
    | union left right => exact Or.inr ⟨_, hn, rfl, hchildren⟩
    | range first last => exact Or.inr ⟨_, hn, rfl, hchildren⟩
  · intro h
    rcases h with ⟨file, offset, controlFlow, hn, hfile⟩ | ⟨n, hn, hinner, hchildren⟩
    · refine ⟨_, hn, ?_, ?_⟩
      · intro file' offset' heq
        cases heq
        exact hfile
      · intro c hc
        cases hc
    · refine ⟨n, hn, ?_, ?_⟩
      · intro file offset heq
        rw [Node.isSource, heq] at hinner
        cases hinner
      · intro c hc
        rw [← hpos]
        exact hchildren c hc

/-- A check without limit finds nothing exactly if no header is reversed, no two headers
share a label, every label has a node that refers to a file or to smaller labels, and all
sinks and output taints have labels and files of the trace.  That neighbours do not overlap
says as much as that no two headers do, whatever the sort does with headers that begin
alike. -/
theorem no_problems_iff (t : Trace) :
    ((t.problems 0).run t = [] <->
      (forall h, h ∈ t.headers -> h.labelBegin ≤ h.labelEnd) ∧
      (t.headers.filter fun h => 0 < h.length).Pairwise Header.Disjoint ∧
      (forall k, 1 ≤ k -> k < t.labelCount ->
        (exists file offset controlFlow,
          t.decode (UInt32.ofNat k) = .ok ⟨.source file offset, controlFlow⟩ ∧
            file.toNat < t.headers.length) ∨
        exists n, t.decode (UInt32.ofNat k) = .ok n ∧ n.isSource = false ∧
          forall c, c ∈ n.children -> 1 ≤ c ∧ c < UInt32.ofNat k) ∧
      (forall s, s ∈ t.sinks -> t.HasLabel s.label ∧ s.output.toNat < t.headers.length) ∧
      forall o, o ∈ t.taints ->
        t.HasLabel o.label ∧ 0 ≤ o.output ∧ o.output < t.headers.length) ∧
    forall sorted : List Header, sorted.Perm (t.headers.filter fun h => 0 < h.length) ->
      (sorted.Pairwise fun a b => a.labelBegin ≤ b.labelBegin) ->
      (Validity.overlaps sorted = [] <->
        (t.headers.filter fun h => 0 < h.length).Pairwise Header.Disjoint) ∧
      forall f : Validity.Findings, Validity.checkNeighbours sorted f = f.goOn <->
        (t.headers.filter fun h => 0 < h.length).Pairwise Header.Disjoint := by
  constructor
  · rw [Validity.problems_eq_nil_iff, Validity.pairwise_disjoint_filter]
    constructor
    · intro h
      refine ⟨h.ordered, h.disjoint, ?_, h.sinks, h.taints⟩
      intro k hone hlt
      exact exists_fits_iff.mp (forall_mem_labels_iff.mp h.nodes k hone hlt)
    · intro h
      rcases h with ⟨hordered, hdisjoint, hnodes, hsinks, htaints⟩
      refine ⟨hordered, hdisjoint, ?_, hsinks, htaints⟩
      rw [forall_mem_labels_iff]
      intro k hone hlt
      exact exists_fits_iff.mpr (hnodes k hone hlt)
  · intro sorted hperm hsorted
    have hoverlaps := Validity.overlaps_eq_nil_iff_disjoint hperm hsorted
    refine ⟨hoverlaps, ?_⟩
    intro f
    rw [Validity.checkNeighbours_eq, Validity.Findings.reportAll_eq_goOn_iff, hoverlaps]

/-- A check with a limit finds the first problems of a check without one, as many as the
limit allows. -/
theorem problems_limited (t : Trace) (limit : Int) (hlimit : 0 < limit) :
    (t.problems limit).run t =
      ((t.problems 0).run t).take (min limit.toNat ((t.problems 0).run t).length) := by
  rw [Validity.problems_without_limit, Validity.problems_run]
  exact (if_pos hlimit).trans List.take_eq_take_min

/-- A trace with two problems of its headers, four of its nodes, and two each of its sinks
and output taints. -/
def tatters : Trace where
  headers := [⟨[0x61], 3, 1, 3⟩, ⟨[0x62], 4, 2, 5⟩, ⟨[0x63], 5, 4, 1⟩]
  labelCount := 5
  sinks := [⟨100, 0, 0⟩, ⟨1, 0, 42⟩]
  taints := [⟨77, 0, 1⟩, ⟨0, 0, 0⟩]
  decode := fun l =>
    match l.toNat with
    | 1 => .ok ⟨.source 0 0, false⟩
    | 2 => .ok ⟨.source 9 1, false⟩
    | 3 => .ok ⟨.union 3 7, false⟩
    | _ => .error ⟨l, 4⟩

-- The limit is reached between the two children of a node.
theorem problems_limited_tatters :
    (tatters.problems 4).run tatters = ((tatters.problems 0).run tatters).take 4 ∧
      ((tatters.problems 0).run tatters).length = 10 := by
  have hlength : ((tatters.problems 0).run tatters).length = 10 := by cbv
  have hlimited := problems_limited tatters 4 (by decide)
  rw [hlength] at hlimited
  exact ⟨hlimited, hlength⟩

end Trace
end TaintTrace
