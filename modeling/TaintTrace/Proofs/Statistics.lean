import Mathlib
import TaintTrace.Proofs.Cavity
import TaintTrace.Proofs.Recording
import TaintTrace.Proofs.Validity
import TaintTrace.Trace.Statistics

/-!
# Statistics add up

The labels of a trace are counted by the kinds of their nodes, and its sinks, output taints and
marked labels once for the whole trace and once for each file.  What is counted for each file
adds up to the whole where the trace has no problems.  The cavities of a file have as many bytes
as the search for them left unmarked, and it marks all bytes that affect control flow.
-/

namespace TaintTrace

/-!
## Counting in two ways
-/

namespace Statistics

section

variable {ι α : Type} {m : ι -> α -> Bool} {is : List ι} {xs : List α}

theorem sum_map_ite (p : ι -> Bool) (is : List ι) :
    (is.map fun i => if p i = true then 1 else 0).sum = is.countP p := by
  induction is with
  | nil => rfl
  | cons i is ih => rw [List.map_cons, List.sum_cons, ih, List.countP_cons, Nat.add_comm]

theorem sum_countP_comm (m : ι -> α -> Bool) (is : List ι) (xs : List α) :
    (is.map fun i => xs.countP (m i)).sum = (xs.map fun x => is.countP fun i => m i x).sum := by
  induction xs with
  | nil => simp
  | cons x xs ih =>
      simp only [List.countP_cons, List.sum_map_add, sum_map_ite fun i => m i x, ih,
        List.map_cons, List.sum_cons]
      exact Nat.add_comm _ _

theorem sum_countP_eq_length (h : forall x, x ∈ xs -> is.countP (fun i => m i x) = 1) :
    (is.map fun i => xs.countP (m i)).sum = xs.length := by
  rw [sum_countP_comm, List.map_congr_left h]
  simp

theorem sum_countP_le_length (h : forall x, x ∈ xs -> is.countP (fun i => m i x) ≤ 1) :
    (is.map fun i => xs.countP (m i)).sum ≤ xs.length := by
  rw [sum_countP_comm]
  refine (List.sum_le_card_nsmul _ 1 ?_).trans_eq (by simp)
  simpa using h

theorem countP_range_eq_one {n k : Nat} {p : Nat -> Bool} (hk : k < n)
    (hp : forall i, p i = true <-> i = k) : (List.range n).countP p = 1 := by
  have hbeq : forall i, p i = (i == k) := by
    intro i
    rw [Bool.eq_iff_iff, hp, beq_iff_eq]
  rw [funext hbeq]
  exact List.count_eq_one_of_mem List.nodup_range (List.mem_range.mpr hk)

end

end Statistics

/-!
## What is counted
-/

namespace Trace

def kindOf? (t : Trace) (l : Label) : Option Text :=
  (t.decode l).toOption.map Node.kind

def affects (t : Trace) (l : Label) : Bool :=
  (t.decode l).toOption.any Node.controlFlow

def affecting (t : Trace) : List Label :=
  t.labels.filter t.affects

theorem mem_affecting {t : Trace} {l : Label} :
    l ∈ t.affecting <-> l ∈ t.labels ∧ Cavities.Affects t.decode l := by
  rw [affecting, List.mem_filter, affects, Option.any_eq_true, Cavities.Affects]
  refine and_congr_right fun _ => exists_congr fun n => and_congr_left fun _ => ?_
  cases t.decode l <;> simp [Except.toOption]

end Trace

namespace Trace

/-- The number of labels that the node of a label covers, if it is a range. -/
def widthOf (t : Trace) (l : Label) : Nat :=
  match (t.decode l).toOption.map Node.origin with
  | some (.range first last) => last.toNat + 1 - first.toNat
  | _ => 0

end Trace

namespace Statistics

structure Counts (t : Trace) (s : Statistics) : Prop where
  labels : s.labels = t.labelCount - 1
  kinds : forall kind k, (kind, k) ∈ s.nodesByKind ->
    k = t.labels.countP fun l => t.kindOf? l == some kind
  invalid : s.invalid = t.labels.countP fun l => t.kindOf? l == none
  controlFlow : s.controlFlow = t.affecting.length
  widestRange : s.widestRange = (t.labels.map t.widthOf).foldl max 0
  files : s.files = t.headers.mapIdx fun i h =>
    { header := h
      controlFlow := t.affecting.countP h.contains
      sinks := t.sinks.countP fun k => k.output.toNat == i
      taints := t.taints.countP fun o => o.output == (i : Int) }
  sinks : s.sinks = t.sinks.length
  taints : s.taints = t.taints.length

variable {t : Trace} {s s' s'' : Statistics}

/-!
## The pass over the labels

What a pass adds to statistics is told by the labels it has gone over, so the numbers of two
passes after each other add up.
-/

structure CountsLabels (t : Trace) (ls : List Label) (s s' : Statistics) : Prop where
  labels : s'.labels = s.labels
  sources : s'.sources = s.sources + ls.countP fun l => t.kindOf? l == some ("source" : Text)
  unions : s'.unions = s.unions + ls.countP fun l => t.kindOf? l == some ("union" : Text)
  ranges : s'.ranges = s.ranges + ls.countP fun l => t.kindOf? l == some ("range" : Text)
  invalid : s'.invalid = s.invalid + ls.countP fun l => t.kindOf? l == none
  controlFlow : s'.controlFlow = s.controlFlow + (ls.filter t.affects).length
  widestRange : s'.widestRange = (ls.map t.widthOf).foldl max s.widestRange
  files : s'.files = s.files.map fun f =>
    { f with controlFlow := f.controlFlow + (ls.filter t.affects).countP f.header.contains }
  sinks : s'.sinks = s.sinks
  taints : s'.taints = s.taints

theorem CountsLabels.nil (t : Trace) (s : Statistics) : CountsLabels t [] s s := by
  constructor <;> simp

theorem CountsLabels.append {ls ks : List Label} (h : CountsLabels t ls s s')
    (h' : CountsLabels t ks s' s'') : CountsLabels t (ls ++ ks) s s'' where
  labels := h'.labels.trans h.labels
  sources := by rw [h'.sources, h.sources, List.countP_append, Nat.add_assoc]
  unions := by rw [h'.unions, h.unions, List.countP_append, Nat.add_assoc]
  ranges := by rw [h'.ranges, h.ranges, List.countP_append, Nat.add_assoc]
  invalid := by rw [h'.invalid, h.invalid, List.countP_append, Nat.add_assoc]
  controlFlow := by
    rw [h'.controlFlow, h.controlFlow, List.filter_append, List.length_append, Nat.add_assoc]
  widestRange := by rw [h'.widestRange, h.widestRange, List.map_append, List.foldl_append]
  files := by
    rw [h'.files, h.files, List.map_map]
    refine List.map_congr_left fun f _ => ?_
    simp only [Function.comp_apply, List.filter_append, List.countP_append, Nat.add_assoc]
  sinks := h'.sinks.trans h.sinks
  taints := h'.taints.trans h.taints

theorem countLabel_eq (l : Label) (f : FileStatistics) :
    f.countLabel l =
      { f with controlFlow := f.controlFlow + [l].countP f.header.contains } := by
  unfold FileStatistics.countLabel
  split
  · rename_i hl
    simp [hl]
  · rename_i hl
    simp [hl]

theorem countsLabels_countNode (t : Trace) (s : Statistics) (l : Label) :
    CountsLabels t [l] s (s.countNode l (t.decode l)) := by
  cases hl : t.decode l with
  | error e =>
      constructor <;>
        simp +decide [countNode, Trace.kindOf?, Trace.affects, Trace.widthOf, hl, Except.toOption]
  | ok n =>
      rcases n with ⟨origin, controlFlow⟩
      cases controlFlow with
      | false =>
          cases origin <;> constructor <;>
            simp +decide [countNode, countKind, Trace.kindOf?, Trace.affects, Trace.widthOf, hl,
              Except.toOption, Node.kind, Node.childCount]
      | true =>
          cases origin <;> constructor <;>
            simp +decide [countNode, countKind, countControlFlow, Trace.kindOf?, Trace.affects,
              Trace.widthOf, hl, Except.toOption, Node.kind, Node.childCount, countLabel_eq]

theorem countsLabels_countLabels (t : Trace) (ls : List Label) (s : Statistics) :
    CountsLabels t ls s ((countLabels ls s).answer t.decode) := by
  induction ls generalizing s with
  | nil => exact .nil t s
  | cons l ls ih => exact (countsLabels_countNode t s l).append (ih _)

/-!
## The passes over sinks and output taints
-/

section

variable {α β : Type}

theorem modify_eq_mapIdx (xs : List β) (j : Nat) (g : β -> β) :
    xs.modify j g = xs.mapIdx fun i x => if j = i then g x else x := by
  apply List.ext_getElem?
  intro i
  rw [List.getElem?_modify, List.getElem?_mapIdx]
  cases xs[i]? <;> rfl

theorem mapIdx_eq_self {f : Nat -> β -> β} (h : forall i x, f i x = x) (xs : List β) :
    xs.mapIdx f = xs := by
  apply List.ext_getElem?
  intro i
  rw [List.getElem?_mapIdx]
  cases xs[i]? with
  | none => rfl
  | some x => exact congrArg some (h i x)

theorem mapIdx_countP_cons (add : Nat -> β -> β) (p : Nat -> α -> Bool)
    (hadd : forall a b x, add a (add b x) = add (a + b) x) (e : α) (es : List α) (xs : List β) :
    (xs.mapIdx fun i x => add (if p i e then 1 else 0) x).mapIdx
        (fun i x => add (es.countP (p i)) x) =
      xs.mapIdx fun i x => add ((e :: es).countP (p i)) x := by
  rw [List.mapIdx_mapIdx]
  refine congrArg (fun f => xs.mapIdx f) (funext fun i => funext fun x => ?_)
  rw [Function.comp_apply, hadd, List.countP_cons]

end

theorem foldl_countSink (ks : List Sink) (s : Statistics) :
    ks.foldl countSink s =
      { s with
        sinks := s.sinks + ks.length
        files := s.files.mapIdx fun i f =>
          { f with sinks := f.sinks + ks.countP fun k => k.output.toNat == i } } := by
  induction ks generalizing s with
  | nil => simp [mapIdx_eq_self]
  | cons k ks ih =>
      have hone : (countSink s k).files = s.files.mapIdx fun i f =>
          { f with sinks := f.sinks + if k.output.toNat == i then 1 else 0 } := by
        refine (modify_eq_mapIdx _ _ _).trans ?_
        refine congrArg (fun f => s.files.mapIdx f) (funext fun i => funext fun f => ?_)
        by_cases hi : k.output.toNat = i
        · simp [hi, FileStatistics.countSink]
        · simp [hi]
      have hcount := mapIdx_countP_cons
        (fun a (f : FileStatistics) => { f with sinks := f.sinks + a })
        (fun i (k : Sink) => k.output.toNat == i)
        (fun a b f => by rw [Nat.add_assoc, Nat.add_comm b]) k ks s.files
      rw [List.foldl_cons, ih, hone, hcount, List.length_cons, ← Nat.add_assoc, Nat.add_right_comm]
      rfl

theorem foldl_countTaint (os : List OutputTaint) (s : Statistics) :
    os.foldl countTaint s =
      { s with
        taints := s.taints + os.length
        files := s.files.mapIdx fun i f =>
          { f with taints := f.taints + os.countP fun o => o.output == (i : Int) } } := by
  induction os generalizing s with
  | nil => simp [mapIdx_eq_self]
  | cons o os ih =>
      have hone : (countTaint s o).files = s.files.mapIdx fun i f =>
          { f with taints := f.taints + if o.output == (i : Int) then 1 else 0 } := by
        unfold countTaint
        dsimp only
        split
        · rename_i hpos
          rw [modify_eq_mapIdx]
          refine congrArg (fun f => s.files.mapIdx f) (funext fun i => funext fun f => ?_)
          have hiff : o.output.toNat = i <-> o.output = (i : Int) := by omega
          by_cases hi : o.output = (i : Int)
          · simp [hi, FileStatistics.countTaint]
          · simp [hiff, hi]
        · rename_i hneg
          refine (mapIdx_eq_self ?_ _).symm
          intro i f
          have hne : o.output ≠ (i : Int) := by omega
          simp [hne]
      have hcount := mapIdx_countP_cons
        (fun a (f : FileStatistics) => { f with taints := f.taints + a })
        (fun i (o : OutputTaint) => o.output == (i : Int))
        (fun a b f => by rw [Nat.add_assoc, Nat.add_comm b]) o os s.files
      rw [List.foldl_cons, ih, hone, hcount, List.length_cons, ← Nat.add_assoc, Nat.add_right_comm]
      rfl

theorem statistics_run (t : Trace) :
    exists s, CountsLabels t t.labels (start t) s ∧
      t.statistics.run t = t.taints.foldl countTaint (t.sinks.foldl countSink s) := by
  refine ⟨_, countsLabels_countLabels t t.labels (start t), ?_⟩
  rw [Lookup.run, Trace.statistics, Lookup.answer_bind]
  rfl

theorem counts_statistics (t : Trace) : Counts t (t.statistics.run t) := by
  rcases statistics_run t with ⟨s, hs, hrun⟩
  rw [hrun, foldl_countTaint, foldl_countSink]
  constructor
  · exact hs.labels
  · intro kind k hk
    rcases (List.mem_filter.mp hk).1 with _ | ⟨_, _ | ⟨_, _ | ⟨_, hnil⟩⟩⟩
    · exact hs.ranges.trans (Nat.zero_add _)
    · exact hs.sources.trans (Nat.zero_add _)
    · exact hs.unions.trans (Nat.zero_add _)
    · cases hnil
  · exact hs.invalid.trans (Nat.zero_add _)
  · exact hs.controlFlow.trans (Nat.zero_add _)
  · exact hs.widestRange
  · dsimp only
    rw [hs.files]
    apply List.ext_getElem?
    intro i
    simp only [start, List.getElem?_mapIdx, List.getElem?_map, Option.map_map]
    congr 1
    funext h
    simp [Trace.affecting]
  · simp [hs.sinks, start]
  · simp [hs.taints, start]

/-!
## Labels
-/

theorem sum_filter_occurring (ps : List (Text × Nat)) :
    ((ps.filter fun p => 0 < p.2).map Prod.snd).sum = (ps.map Prod.snd).sum := by
  induction ps with
  | nil => rfl
  | cons p ps ih =>
      rw [List.filter_cons]
      split
      · rw [List.map_cons, List.sum_cons, ih, List.map_cons, List.sum_cons]
      · rename_i hzero
        rw [decide_eq_true_eq] at hzero
        rw [ih, List.map_cons, List.sum_cons]
        omega

theorem sum_nodesByKind (s : Statistics) :
    (s.nodesByKind.map Prod.snd).sum = s.sources + s.unions + s.ranges := by
  refine (sum_filter_occurring _).trans ?_
  simp only [List.map_cons, List.map_nil, List.sum_cons, List.sum_nil]
  omega

theorem countP_kinds (t : Trace) (ls : List Label) :
    ls.countP (fun l => t.kindOf? l == some ("source" : Text)) +
      ls.countP (fun l => t.kindOf? l == some ("union" : Text)) +
      ls.countP (fun l => t.kindOf? l == some ("range" : Text)) +
      ls.countP (fun l => t.kindOf? l == none) = ls.length := by
  induction ls with
  | nil => rfl
  | cons l ls ih =>
      have hone : (if t.kindOf? l == some ("source" : Text) then 1 else 0) +
          (if t.kindOf? l == some ("union" : Text) then 1 else 0) +
          (if t.kindOf? l == some ("range" : Text) then 1 else 0) +
          (if t.kindOf? l == none then 1 else 0) = 1 := by
        unfold Trace.kindOf?
        cases t.decode l with
        | error e => rfl
        | ok n =>
            rcases n with ⟨origin, controlFlow⟩
            cases origin <;> rfl
      rw [List.countP_cons, List.countP_cons, List.countP_cons, List.countP_cons,
        List.length_cons]
      omega

theorem labels_eq_sum (t : Trace) :
    (t.statistics.run t).labels =
      ((t.statistics.run t).nodesByKind.map Prod.snd).sum + (t.statistics.run t).invalid := by
  rcases statistics_run t with ⟨s, hs, hrun⟩
  have hlength : t.labels.length = t.labelCount - 1 := by
    rw [Trace.labels, List.length_map, List.length_range']
  have hkinds := countP_kinds t t.labels
  have hlabels : s.labels = t.labelCount - 1 := hs.labels
  have hsources := hs.sources
  have hunions := hs.unions
  have hranges := hs.ranges
  have hinvalid := hs.invalid
  rw [sum_nodesByKind, hrun, foldl_countTaint, foldl_countSink]
  dsimp only [start] at *
  omega

/-!
## Files
-/

theorem sum_sinks (hs : Counts t s) (ht : t.Consistent) :
    (s.files.map FileStatistics.sinks).sum = s.sinks := by
  have hmap : s.files.map FileStatistics.sinks =
      (List.range t.headers.length).map fun i => t.sinks.countP fun k => k.output.toNat == i := by
    rw [hs.files]
    apply List.ext_getElem <;> simp
  rw [hmap, hs.sinks]
  apply sum_countP_eq_length
  intro k hk
  refine countP_range_eq_one (ht.sinks k hk).2 ?_
  intro i
  rw [beq_iff_eq]
  exact eq_comm

theorem sum_taints (hs : Counts t s) (ht : t.Consistent) :
    (s.files.map FileStatistics.taints).sum = s.taints := by
  have hmap : s.files.map FileStatistics.taints =
      (List.range t.headers.length).map fun i : Nat =>
        t.taints.countP fun o => o.output == (i : Int) := by
    rw [hs.files]
    apply List.ext_getElem <;> simp
  rw [hmap, hs.taints]
  apply sum_countP_eq_length
  intro o ho
  rcases ht.taints o ho with ⟨_, hlow, hhigh⟩
  refine countP_range_eq_one (k := o.output.toNat) (by omega) ?_
  intro i
  rw [beq_iff_eq]
  omega

theorem countP_contains_le_one {hs : List Header} (hdisjoint : hs.Pairwise Header.Disjoint)
    (l : Label) : hs.countP (fun h => h.contains l) ≤ 1 := by
  induction hs with
  | nil => simp
  | cons h hs ih =>
      rcases List.pairwise_cons.mp hdisjoint with ⟨hfirst, hrest⟩
      rw [List.countP_cons]
      split
      · rename_i hl
        have hothers : hs.countP (fun h' => h'.contains l) = 0 := by
          rw [List.countP_eq_zero]
          intro h' hh' hl'
          exact hfirst h' hh' l ⟨hl, hl'⟩
        omega
      · exact ih hrest

theorem sum_controlFlow_le (hs : Counts t s) (ht : t.Consistent) :
    (s.files.map FileStatistics.controlFlow).sum ≤ s.controlFlow := by
  have hmap : s.files.map FileStatistics.controlFlow =
      t.headers.map fun h => t.affecting.countP h.contains := by
    rw [hs.files]
    apply List.ext_getElem <;> simp
  rw [hmap, hs.controlFlow]
  apply sum_countP_le_length
  intro l _
  exact countP_contains_le_one ht.disjoint l

end Statistics

/-!
## Lengths of cavities
-/

namespace Runs

theorem sum_length_runsFrom (marks : List UInt8) (index : Nat) (open? : Option UInt64)
    (hopen : OpenBefore open? index) (hsize : index + marks.length < UInt64.size) :
    ((runsFrom (UInt64.ofNat (index + marks.length)) index open? marks).map fun r =>
      r.stop.toNat - r.first.toNat).sum = (index - beginning index open?) + marks.count 0 := by
  induction marks generalizing index open? with
  | nil =>
      cases open? with
      | none => simp [runsFrom, beginning]
      | some first =>
          have hstop : (UInt64.ofNat (index + ([] : List UInt8).length)).toNat = index :=
            UInt64.toNat_ofNat_of_lt' hsize
          rw [runsFrom, List.map_singleton, List.sum_singleton, hstop]
          rfl
  | cons m marks ih =>
      rw [add_length_cons] at hsize ⊢
      have hindex : index < UInt64.size := by omega
      have hclosed := ih (index + 1) none (openBefore_none _) hsize
      rw [beginning, Nat.sub_self] at hclosed
      cases open? with
      | none =>
          rw [runsFrom]
          split
          · rename_i hm
            rw [ih (index + 1) _ (openBefore_ofNat hindex) hsize, beginning, beginning,
              UInt64.toNat_ofNat_of_lt' hindex, hm, List.count_cons_self]
            omega
          · rename_i hm
            rw [hclosed, List.count_cons_of_ne hm, beginning, Nat.sub_self]
      | some first =>
          have hlt := hopen first rfl
          rw [runsFrom]
          split
          · rename_i hm
            rw [ih (index + 1) _ hopen.succ hsize, beginning, beginning, hm, List.count_cons_self]
            omega
          · rename_i hm
            rw [List.map_cons, List.sum_cons, hclosed, List.count_cons_of_ne hm, beginning,
              UInt64.toNat_ofNat_of_lt' hindex, Nat.zero_add]

end Runs

theorem Cavity.toNat_length (c : Cavity) : c.length.toNat = c.stop.toNat - c.first.toNat := by
  unfold Cavity.length
  split
  · rename_i hlt
    rw [UInt64.lt_iff_toNat_lt] at hlt
    rw [UInt64.toNat_zero]
    omega
  · rename_i hle
    exact UInt64.toNat_sub_of_le _ _ (UInt64.not_lt.mp hle)

namespace Cavities

open Unhindered

variable {t : Trace} {h : Header} {marks : Marks} {P : Label -> Prop}

theorem sum_length_ofMarks (hsize : marks.size = h.length) :
    ((ofMarks false h marks).map fun c => c.length.toNat).sum = marks.toList.count 0 := by
  have hlength : 0 + marks.toList.length < UInt64.size := by
    rw [Nat.zero_add, Array.length_toList, hsize]
    exact length_lt_size h
  have hruns := Runs.sum_length_runsFrom marks.toList 0 none (Runs.openBefore_none 0) hlength
  rw [Nat.zero_add] at hruns
  have hmap : (ofMarks false h marks).map (fun c => c.length.toNat) =
      (Runs.zeroRuns marks.toList).map fun r => r.stop.toNat - r.first.toNat := by
    unfold ofMarks
    simp [Function.comp_def, Cavity.toNat_length]
  rw [hmap]
  refine hruns.trans ?_
  rw [Runs.beginning, Nat.sub_self, Nat.zero_add]

/-- If all labels that affect control flow are marked, at least as many bytes are marked as such
labels are in the file. -/
theorem countP_affecting_le (hlabels : t.labels.Nodup) (hmarks : MarkedBy h marks P)
    (haffects : forall l, Affects t.decode l -> P l) :
    t.affecting.countP h.contains ≤ marks.toList.countP (· != 0) := by
  have hplaces : ((t.affecting.filter h.contains).map fun l =>
      l.toNat - h.labelBegin.toNat).Nodup := by
    refine List.Nodup.map_on ?_ ((hlabels.filter _).filter _)
    intro l hl m hm heq
    have hl := Header.contains_iff.mp (List.mem_filter.mp hl).2
    have hm := Header.contains_iff.mp (List.mem_filter.mp hm).2
    exact UInt32.toNat_inj.mp (by omega)
  have hmarked : ((t.affecting.filter h.contains).map fun l => l.toNat - h.labelBegin.toNat) ⊆
      marks.toList.findIdxs (· != 0) := by
    intro i hi
    rcases List.mem_map.mp hi with ⟨l, hl, rfl⟩
    rcases List.mem_filter.mp hl with ⟨hl, hcontains⟩
    have hone := hmarks.one l hcontains (haffects l (Trace.mem_affecting.mp hl).2)
    rw [← Array.getElem?_toList] at hone
    rcases List.getElem?_eq_some_iff.mp hone with ⟨hlt, hone⟩
    rw [List.mem_findIdxs_iff_pos_getElem hlt, hone]
    rfl
  have hle := (hplaces.subperm hmarked).length_le
  rwa [List.length_map, ← List.countP_eq_length_filter, List.length_findIdxs] at hle

/-- The bytes of a file that affect control flow and those of its cavities are different
bytes. -/
theorem countP_affecting_add_le {options : CavityOptions} {cs : List Cavity}
    (hlabels : t.labels.Nodup) (hlegacy : options.legacyTrailing = false)
    (hok : ((ofHeader t options h).run t).2 = .ok cs) :
    t.affecting.countP h.contains + (cs.map fun c => c.length.toNat).sum ≤ h.length := by
  by_cases hlength : h.length = 0
  · -- Without labels a file has neither bytes that are counted nor cavities.
    rw [Lookup.run, ofHeader, if_pos hlength] at hok
    cases hok
    have hnone : t.affecting.countP h.contains = 0 := by
      rw [List.countP_eq_zero]
      intro l _ hl
      rw [Header.contains_iff] at hl
      unfold Header.length at hlength
      omega
    rw [hnone]
    exact Nat.zero_le _
  rcases ofHeader_ok hlength hok with ⟨marks, begun, flows, hmarks, hflows, hcs⟩
  rw [hlegacy] at hcs
  subst hcs
  rcases markControlFlow_header_ok hmarks with ⟨_, haffecting⟩
  rcases markFlows_ok t.sinks 0 begun _ marks flows _
      (settled_of_forall_not_has (LabelSet.has_withRoom t.labelCount)) (by simp) haffecting
      hflows with ⟨hmarked, _⟩
  have hle := countP_affecting_le hlabels hmarked fun l hl => Or.inr hl
  have hsplit := List.length_eq_countP_add_countP (· != 0) (l := flows.toList)
  rw [sum_length_ofMarks hmarked.size, List.count_eq_countP]
  rw [Array.length_toList, hmarked.size] at hsplit
  have hzeros : flows.toList.countP (fun a => decide ¬ (a != 0) = true) =
      flows.toList.countP (· == 0) := List.countP_congr fun a _ => by simp
  omega

end Cavities

theorem Recording.decode_zero_ne_ok (r : Recording) (n : Node) : r.trace.decode 0 ≠ .ok n := by
  intro hn
  change r.decode 0 = .ok n at hn
  exact absurd (decode_eq_ok_iff.mp hn).1 (by decide)

namespace Trace

variable {t : Trace}

theorem nodup_labels (h : t.labelCount ≤ Label.total) : t.labels.Nodup := by
  refine List.Nodup.map_on ?_ (List.nodup_range' 1)
  intro a ha b hb hab
  rw [List.mem_range'_1] at ha hb
  unfold Label.total at h
  rw [← UInt32.toNat_inj, UInt32.toNat_ofNat_of_lt' (by change a < 4294967296; omega),
    UInt32.toNat_ofNat_of_lt' (by change b < 4294967296; omega)] at hab
  exact hab

theorem Consistent.labelCount_le (ht : t.Consistent) (hzero : forall n, t.decode 0 ≠ .ok n) :
    t.labelCount ≤ Label.total := by
  by_contra hlarge
  rcases forall_mem_labels_iff.mp ht.nodes Label.total (by decide) (by omega) with ⟨n, hn, _⟩
  exact hzero n hn

/-- The labels of a trace are those with nodes, by kind, and those without.  In a trace without
problems, the sinks and output taints of all files are those of the trace, and no more labels of
files affect control flow than labels of the trace.  If all labels are different numbers of 32
bits, or label zero names no node, as in all recordings, the bytes of a file that affect control
flow and those of its cavities together are no more than the file has. -/
theorem statistics_add_up (t : Trace) :
    let s := t.statistics.run t
    Statistics.Counts t s ∧
    s.labels = (s.nodesByKind.map Prod.snd).sum + s.invalid ∧
    ((t.problems 0).run t = [] ->
      s.sinks = (s.files.map FileStatistics.sinks).sum ∧
      s.taints = (s.files.map FileStatistics.taints).sum ∧
      (s.files.map FileStatistics.controlFlow).sum ≤ s.controlFlow ∧
      (t.labelCount ≤ Label.total ∨ (forall n, t.decode 0 ≠ .ok n) ->
        forall f, f ∈ s.files -> forall options cs, options.legacyTrailing = false ->
          ((Cavities.ofHeader t options f.header).run t).2 = .ok cs ->
          f.controlFlow + (cs.map fun c => c.length.toNat).sum ≤ f.header.length)) := by
  intro s
  have hcounts : Statistics.Counts t s := Statistics.counts_statistics t
  refine ⟨hcounts, Statistics.labels_eq_sum t, ?_⟩
  intro hcheck
  have ht : t.Consistent := Validity.problems_eq_nil_iff.mp hcheck
  refine ⟨(Statistics.sum_sinks hcounts ht).symm, (Statistics.sum_taints hcounts ht).symm,
    Statistics.sum_controlFlow_le hcounts ht, ?_⟩
  intro hlabels f hf options cs hlegacy hok
  have hcount : t.labelCount ≤ Label.total := hlabels.elim id ht.labelCount_le
  rw [hcounts.files] at hf
  rcases List.mem_mapIdx.mp hf with ⟨i, hi, rfl⟩
  exact Cavities.countP_affecting_add_le (nodup_labels hcount) hlegacy hok

/-- A file of four bytes, of which the second one affects control flow and the last one flows to
a sink.  The other sink, a union of the last byte with the range of the others, affects control
flow itself. -/
def survey : Recording where
  headers := #[⟨"in", 3, 1, 5⟩, ⟨"out", 4, 5, 5⟩]
  words := #[0, 0x8000000000000000, 0xc000000000000001, 0x8000000000000002, 0x8000000000000003,
    0x80000003, 0x4000000280000004]
  sinks := #[⟨6, 0, 1⟩, ⟨4, 1, 1⟩]
  taints := #[⟨1, 0, 6⟩, ⟨1, 1, 4⟩]

theorem statistics_add_up_survey :
    (survey.trace.problems 0).run survey.trace = [] ∧
    ((Cavities.ofHeader survey.trace ⟨fun _ => true, false, 0⟩ ⟨"in", 3, 1, 5⟩).run
      survey.trace).2 = .ok [⟨"in", 0, 1⟩, ⟨"in", 2, 3⟩] ∧
    (survey.trace.statistics.run survey.trace).sinks =
      ((survey.trace.statistics.run survey.trace).files.map FileStatistics.sinks).sum ∧
    exists f, f ∈ (survey.trace.statistics.run survey.trace).files ∧ f.header.length = 4 ∧
      f.controlFlow = 1 ∧ f.controlFlow + 2 ≤ f.header.length := by
  have hcheck : (survey.trace.problems 0).run survey.trace = [] := by decide +kernel
  have hok : ((Cavities.ofHeader survey.trace ⟨fun _ => true, false, 0⟩ ⟨"in", 3, 1, 5⟩).run
      survey.trace).2 = .ok [⟨"in", 0, 1⟩, ⟨"in", 2, 3⟩] := rfl
  rcases statistics_add_up survey.trace with ⟨_, _, hsums⟩
  rcases hsums hcheck with ⟨hsinks, _, _, hcavities⟩
  refine ⟨hcheck, hok, hsinks, ⟨⟨"in", 3, 1, 5⟩, 1, 0, 0⟩, List.mem_cons_self, rfl, rfl, ?_⟩
  exact hcavities (Or.inr survey.decode_zero_ne_ok) _ List.mem_cons_self _ _ rfl hok

end Trace
end TaintTrace
