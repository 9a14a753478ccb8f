import Mathlib
import TaintTrace.Proofs.Consistency
import TaintTrace.Proofs.Coverage
import TaintTrace.Proofs.Mapping

/-!
# Cavities and the map of bytes agree

Cavities are found by following sinks up to nodes that affect control flow, the map by
following output taints through all nodes.  In a recording whose bytes are written as both,
a byte outside of the cavities affects control flow or is in the map, and without control
flow the cavities are what the map leaves out.
-/

namespace TaintTrace
namespace Recording

open Cavities Sources Unhindered

variable {r s : Recording} {ops : List Operation}

/-!
## Two ways to follow labels
-/

section

variable {nodes : Label -> Except InvalidLabel Node} {l m : Label}

theorem depends_of_reaches (h : Reaches nodes l m) : Depends nodes l m := by
  refine Relation.ReflTransGen.mono ?_ l m h
  intro a b hleads
  rcases hleads with ⟨n, hn, _, hb⟩
  exact ⟨n, hn, hb⟩

theorem reaches_of_depends (hplain : forall l n, nodes l = .ok n -> n.controlFlow = false)
    (h : Depends nodes l m) : Reaches nodes l m := by
  refine Relation.ReflTransGen.mono ?_ l m h
  intro a b hrefers
  rcases hrefers with ⟨n, hn, hb⟩
  exact ⟨n, hn, hplain a n hn, hb⟩

end

theorem has_iff {l : Label} : r.Has l <-> exists n, r.decode l = .ok n :=
  (r.decode_ok_iff l).symm

theorem Earlier.has_of_depends (hr : Earlier r) {l m : Label} (hl : r.Has l)
    (h : Depends r.decode l m) : r.Has m := by
  induction h with
  | refl => exact hl
  | @tail a b _ hrefers _ =>
      rcases hrefers with ⟨n, hn, hb⟩
      have ha : r.Has a := has_iff.mpr ⟨n, hn⟩
      rcases decode_eq_ok_iff_nodes.mp hn with ⟨hpositive, hnode⟩
      have hearlier := hr a.toNat n hpositive hnode b hb
      exact ⟨hearlier.1, hearlier.2.trans ha.2⟩

/-!
## Operations of a traced run
-/

/-- The operations of a run that only writes labels to files, where both are there at the
latest when the run has ended with a recording. -/
def Operation.Traced (r : Recording) : Operation -> Prop
  | .file _ _ => True
  | .output _ => True
  | .union _ _ => True
  | .range _ _ => True
  | .controlFlow _ => True
  | .write index _ ls => (0 ≤ index ∧ index < r.headers.size) ∧ forall l, l ∈ ls -> r.Has l
  | _ => False

namespace Operation

variable {op : Operation}

theorem Traced.filed (h : op.Traced r) : op.Filed := by
  cases op with
  | node n => cases h
  | source file offset => cases h
  | _ => trivial

theorem Traced.labels_eq (h : op.Traced r) :
    op.sinks.map Sink.label = op.taints.map OutputTaint.label := by
  cases op with
  | sink output offset l => cases h
  | taint output offset l => cases h
  | write output offset ls =>
      apply List.ext_getElem?
      intro k
      rw [List.getElem?_map, List.getElem?_map, sinks, taints, List.getElem?_mapIdx,
        List.getElem?_mapIdx, Option.map_map, Option.map_map]
      rfl
  | _ => rfl

theorem Traced.taint (h : op.Traced r) {o : OutputTaint} (ho : o ∈ op.taints) :
    (0 ≤ o.output ∧ o.output < r.headers.size) ∧ r.Has o.label := by
  cases op with
  | taint output offset l => cases h
  | write output offset ls =>
      rcases List.mem_mapIdx.mp ho with ⟨i, hi, rfl⟩
      exact ⟨h.1, h.2 _ (List.getElem_mem hi)⟩
  | _ => cases ho

theorem Traced.unmarked (h : op.Traced s) {n : Node} (hn : n ∈ op.nodes r) :
    n.controlFlow = false := by
  cases op with
  | file name size =>
      rcases List.mem_map.mp hn with ⟨o, _, rfl⟩
      rfl
  | union left right =>
      cases List.mem_singleton.mp hn
      rfl
  | range first last =>
      cases List.mem_singleton.mp hn
      rfl
  | node n => cases h
  | source file offset => cases h
  | _ => cases hn

end Operation

/-- What is known of the recording that a traced run ends with. -/
structure Coherent (r : Recording) : Prop where
  earlier : Earlier r
  filed : Filed r
  allotted : forall i h, r.headers.toList[i]? = some h -> Allotted r i h
  labels : r.sinks.toList.map Sink.label = r.taints.toList.map OutputTaint.label
  taints : forall o, o ∈ r.taints.toList ->
    (0 ≤ o.output ∧ o.output < r.headers.size) ∧ r.Has o.label

theorem coherent_performAll (htraced : forall op, op ∈ ops -> op.Traced s)
    (h : empty.performAll ops = .ok s) : Coherent s where
  earlier := earlier_performAll (fun op hop => (htraced op hop).filed.checked) h
  filed := filed_performAll (fun op hop => (htraced op hop).filed) h
  allotted := allotted_performAll h
  labels := by
    refine performAll_induction (P := fun r =>
      r.sinks.toList.map Sink.label = r.taints.toList.map OutputTaint.label) ?_ bounded_empty rfl h
    intro op r s' hop _ _ hgrown hr
    rw [hgrown.sinks, hgrown.taints, List.map_append, List.map_append, hr,
      (htraced op hop).labels_eq]
  taints := by
    refine performAll_induction (P := fun r => forall o, o ∈ r.taints.toList ->
      (0 ≤ o.output ∧ o.output < s.headers.size) ∧ s.Has o.label) ?_ bounded_empty ?_ h
    · intro op r s' hop _ _ hgrown hr o ho
      rw [hgrown.taints, List.mem_append] at ho
      cases ho with
      | inl hold => exact hr o hold
      | inr hnew => exact (htraced op hop).taint hnew
    · intro o ho
      cases ho

theorem unmarked_performAll (htraced : forall op, op ∈ ops -> op.Traced s)
    (hplain : forall ls, .controlFlow ls ∉ ops) (h : empty.performAll ops = .ok s)
    {l : Label} {n : Node} (hn : s.decode l = .ok n) : n.controlFlow = false := by
  have hnodes : forall n, n ∈ s.nodes -> n.controlFlow = false := by
    refine performAll_induction (P := fun r => forall n, n ∈ r.nodes -> n.controlFlow = false)
      ?_ bounded_empty ?_ h
    · intro op r s' hop _ _ hgrown hr n hn
      have hother : forall ls, op ≠ .controlFlow ls := by
        intro ls heq
        exact hplain ls (heq ▸ hop)
      rw [hgrown.unmarked hother, List.mem_append] at hn
      cases hn with
      | inl hold => exact hr n hold
      | inr hnew => exact (htraced op hop).unmarked hnew
    · intro n hn
      cases List.mem_singleton.mp hn
      rfl
  exact hnodes n (List.mem_of_getElem? (decode_eq_ok_iff_nodes.mp hn).2)

/-!
## Bytes of files
-/

theorem Allotted.isSource {i o : Nat} {h : Header} (hr : Allotted r i h) (ho : o < h.length) :
    IsSource r.decode ⟨h.labelBegin + UInt32.ofNat o, UInt8.ofNat i, UInt64.ofNat o⟩ := by
  have hlabel := Header.toNat_labelAt ho
  have hpositive := hr.positive
  rcases getElem?_origins.mp (hr.bytes o ho) with ⟨⟨origin, affects⟩, hnode, horigin⟩
  dsimp only at horigin
  subst horigin
  refine ⟨affects, decode_eq_ok_iff_nodes.mpr ?_⟩
  rw [hlabel]
  exact ⟨by omega, hnode⟩

theorem Filed.source_cases (hr : Filed r) {found : FoundSource}
    (hsource : IsSource r.decode found) :
    exists h : Header, r.headers.toList[found.file.toNat]? = some h ∧
      found.offset.toNat < h.length ∧
      found.label.toNat = h.labelBegin.toNat + found.offset.toNat := by
  rcases hsource with ⟨affects, hdecode⟩
  rcases decode_eq_ok_iff_nodes.mp hdecode with ⟨_, hnode⟩
  exact hr _ _ _ (getElem?_origins.mpr ⟨_, hnode, rfl⟩)

theorem Filed.eq_labelAt (hr : Filed r) {i o : Nat} {h : Header} {found : FoundSource}
    (hheader : r.headers.toList[i]? = some h) (ho : o < h.length)
    (hsource : IsSource r.decode found) (hfile : found.file.toNat = i)
    (hoffset : found.offset = UInt64.ofNat o) :
    found.label = h.labelBegin + UInt32.ofNat o := by
  rcases hr.source_cases hsource with ⟨h', hheader', _, hlabel⟩
  rw [hfile, hheader] at hheader'
  cases hheader'
  have hsize := length_lt_size h
  rw [hoffset, UInt64.toNat_ofNat_of_lt' (ho.trans hsize)] at hlabel
  rw [← UInt32.toNat_inj, Header.toNat_labelAt ho, hlabel]

namespace Coherent

theorem mappable (hr : Coherent r) {o : OutputTaint} (ho : o ∈ r.trace.taints) :
    r.trace.Mappable o := by
  rcases hr.taints o ho with ⟨houtput, hlabel⟩
  refine ⟨?_, ?_, ?_⟩
  · change 0 ≤ o.output ∧ o.output < r.headers.toList.length
    rw [Array.length_toList]
    exact houtput
  · intro m hm
    exact has_iff.mp (hr.earlier.has_of_depends hlabel hm)
  · intro found _ hsource
    rcases hr.filed.source_cases hsource with ⟨h, hheader, _⟩
    exact (List.getElem?_eq_some_iff.mp hheader).fst

theorem exists_taint (hr : Coherent r) {sink : Sink} (hsink : sink ∈ r.trace.sinks) :
    exists taint, taint ∈ r.trace.taints ∧ taint.label = sink.label := by
  have hlabel : sink.label ∈ r.taints.toList.map OutputTaint.label := by
    rw [← hr.labels]
    exact List.mem_map_of_mem hsink
  exact List.mem_map.mp hlabel

theorem exists_sink (hr : Coherent r) {taint : OutputTaint} (htaint : taint ∈ r.trace.taints) :
    exists sink, sink ∈ r.trace.sinks ∧ sink.label = taint.label := by
  have hlabel : taint.label ∈ r.sinks.toList.map Sink.label := by
    rw [hr.labels]
    exact List.mem_map_of_mem htaint
  exact List.mem_map.mp hlabel

theorem cavities_succeed (hr : Coherent r) (options : CavityOptions) {i : Nat} {h : Header}
    (hheader : r.trace.headers[i]? = some h) :
    exists cs, ((Cavities.ofHeader r.trace options h).run r.trace).2 = .ok cs := by
  have hallotted := hr.allotted i h hheader
  refine ofHeader_succeeds options hallotted.inside ?_ ?_
  · intro m hm
    rw [Header.contains_iff] at hm
    have hpositive := hallotted.positive
    have hinside := hallotted.inside
    exact has_iff.mp ⟨by omega, by omega⟩
  · intro sink hsink m hm
    rcases hr.exists_taint hsink with ⟨taint, htaint, heq⟩
    refine has_iff.mp (hr.earlier.has_of_depends (hr.taints taint htaint).2 ?_)
    rw [heq]
    exact depends_of_reaches hm

theorem comesFrom_of_flowsTo (hr : Coherent r) {i o : Nat} {h : Header}
    (hheader : r.trace.headers[i]? = some h) (ho : o < h.length)
    (hflows : FlowsTo r.trace.decode r.trace.sinks (h.labelBegin + UInt32.ofNat o)) :
    exists taint, taint ∈ r.trace.taints ∧
      r.trace.ComesFrom taint.label ⟨⟨i, h.name⟩, UInt64.ofNat o⟩ := by
  have hallotted := hr.allotted i h hheader
  have hfile : (UInt8.ofNat i).toNat = i := UInt8.toNat_ofNat_of_lt' hallotted.file
  rcases hflows with ⟨_, sink, hsink, hreaches⟩
  rcases hr.exists_taint hsink with ⟨taint, htaint, heq⟩
  refine ⟨taint, htaint, ⟨_, _, _⟩, ?_, hallotted.isSource ho, ?_, rfl⟩
  · rw [heq]
    exact depends_of_reaches hreaches
  · rw [hfile]

theorem flowsTo_of_comesFrom (hr : Coherent r)
    (hplain : forall l n, r.decode l = .ok n -> n.controlFlow = false) {i o : Nat} {h : Header}
    (hheader : r.trace.headers[i]? = some h) (ho : o < h.length) {taint : OutputTaint}
    (htaint : taint ∈ r.trace.taints)
    (hfrom : r.trace.ComesFrom taint.label ⟨⟨i, h.name⟩, UInt64.ofNat o⟩) :
    FlowsTo r.trace.decode r.trace.sinks (h.labelBegin + UInt32.ofNat o) := by
  rcases hfrom with ⟨found, hdepends, hsource, hfile, hoffset⟩
  rcases hr.exists_sink htaint with ⟨sink, hsink, heq⟩
  rw [← hr.filed.eq_labelAt hheader ho hsource (Int.ofNat.inj hfile) hoffset]
  rcases hsource with ⟨affects, hdecode⟩
  refine ⟨⟨_, hdecode, hplain _ _ hdecode, rfl⟩, sink, hsink, ?_⟩
  rw [heq]
  exact reaches_of_depends hplain hdepends

end Coherent

/-- Both analyses of a traced run succeed and agree.  A byte of a file that is in no cavity
affects control flow or is in the map, and if nothing affects control flow the bytes in
cavities are exactly those that are not in the map. -/
theorem cavities_agree_with_byteMap (ops : List Operation) (r : Recording)
    (options : CavityOptions) (interval : Int) (i : Nat) (h : Header)
    (hrun : empty.performAll ops = .ok r) (htraced : forall op, op ∈ ops -> op.Traced r)
    (hlegacy : options.legacyTrailing = false) (hheader : r.trace.headers[i]? = some h) :
    exists cs m,
      ((Cavities.ofHeader r.trace options h).run r.trace).2 = .ok cs ∧
      ((r.trace.byteMap interval).run r.trace).2 = .ok m ∧
      (forall o, o < h.length -> (¬ exists c, c ∈ cs ∧ c.Covers o) ->
        Affects r.trace.decode (h.labelBegin + UInt32.ofNat o) ∨
          (⟨⟨i, h.name⟩, UInt64.ofNat o⟩ : ByteOffset) ∈ m.map Prod.fst) ∧
      ((forall ls, .controlFlow ls ∉ ops) -> forall o,
        (exists c, c ∈ cs ∧ c.Covers o) <->
          o < h.length ∧ (⟨⟨i, h.name⟩, UInt64.ofNat o⟩ : ByteOffset) ∉ m.map Prod.fst) := by
  have hr := coherent_performAll htraced hrun
  rcases hr.cavities_succeed options hheader with ⟨cs, hcs⟩
  rcases Trace.byteMap_cases r.trace interval with ⟨m, hm, hall, hmapped⟩ | ⟨_, o, ho, hbad⟩
  · have hkey : forall o, (⟨⟨i, h.name⟩, UInt64.ofNat o⟩ : ByteOffset) ∈ m.map Prod.fst <->
        exists taint, taint ∈ r.trace.taints ∧
          r.trace.ComesFrom taint.label ⟨⟨i, h.name⟩, UInt64.ofNat o⟩ := by
      intro o
      rw [hmapped.mem_keys_iff hall, and_iff_right]
      exact ⟨i, h, hheader, rfl⟩
    refine ⟨cs, m, hcs, hm, ?_, ?_⟩
    · intro o ho hfree
      rw [ofHeader_covers hlegacy hcs, not_and, not_not] at hfree
      cases hfree ho with
      | inl hflows => exact Or.inr ((hkey o).mpr (hr.comesFrom_of_flowsTo hheader ho hflows))
      | inr haffects => exact Or.inl haffects
    · intro hunmarked o
      have hplain : forall l n, r.decode l = .ok n -> n.controlFlow = false :=
        fun _ _ hn => unmarked_performAll htraced hunmarked hrun hn
      rw [ofHeader_covers hlegacy hcs, hkey]
      refine and_congr_right fun ho => not_congr ?_
      constructor
      · intro hmarked
        cases hmarked with
        | inl hflows => exact hr.comesFrom_of_flowsTo hheader ho hflows
        | inr haffects =>
            rcases haffects with ⟨n, hn, haffects⟩
            rw [hplain _ n hn] at haffects
            cases haffects
      · intro hfrom
        rcases hfrom with ⟨taint, htaint, hfrom⟩
        exact Or.inl (hr.flowsTo_of_comesFrom hplain hheader ho htaint hfrom)
  · exact absurd (hr.mappable ho) hbad

/-- A file of four bytes, of which the second one is not written. -/
def weave : List Operation :=
  [.file [0x66] 4, .output [0x6f], .union 1 3, .range 5 5, .write 1 7 [6, 4]]

theorem cavities_agree_with_byteMap_weave :
    exists r h m, empty.performAll weave = .ok r ∧ (forall op, op ∈ weave -> op.Traced r) ∧
      r.trace.headers[0]? = some h ∧ ((r.trace.byteMap 0).run r.trace).2 = .ok m ∧
      ⟨⟨0, [0x66]⟩, 1⟩ ∉ m.map Prod.fst ∧ ⟨⟨0, [0x66]⟩, 2⟩ ∈ m.map Prod.fst := by
  have hrun : exists r, empty.performAll weave = .ok r ∧ r.headers.size = 2 ∧ r.words.size = 7 ∧
      r.trace.headers[0]? = some ⟨[0x66], 3, 1, 5⟩ ∧
      ((Cavities.ofHeader r.trace ⟨fun _ => true, false, 0⟩ ⟨[0x66], 3, 1, 5⟩).run
        r.trace).2 = .ok [⟨[0x66], 1, 2⟩] := ⟨_, rfl, rfl, rfl, rfl, rfl⟩
  rcases hrun with ⟨r, hrun, hfiles, hsize, hheader, hcavities⟩
  have htraced : forall op, op ∈ weave -> op.Traced r := by
    simp [weave, Operation.Traced, Has, hfiles, hsize]
  rcases cavities_agree_with_byteMap weave r ⟨fun _ => true, false, 0⟩ 0 0 _ hrun htraced rfl
    hheader with ⟨cs, m, hcs, hm, _, hagree⟩
  rw [hcavities] at hcs
  cases hcs
  have hplain : forall ls, Operation.controlFlow ls ∉ weave := by
    simp [weave]
  refine ⟨r, _, m, hrun, htraced, hheader, hm, ?_, ?_⟩
  · exact ((hagree hplain 1).mp ⟨_, List.mem_singleton.mpr rfl, by decide, by decide⟩).2
  · by_contra hmem
    rcases (hagree hplain 2).mpr ⟨by decide, hmem⟩ with ⟨c, hc, hcovers⟩
    cases List.mem_singleton.mp hc
    exact absurd hcovers.2 (by decide)

end Recording
end TaintTrace
