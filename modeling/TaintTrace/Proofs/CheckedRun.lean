import Mathlib
import TaintTrace.Proofs.Safety

/-!
# Recordings without problems

A run of operations that check what they are given, or are given files and labels that
exist, ends with a consistent trace: files get labels one after the other, sources refer to
files that are there, and nothing of this changes when nodes are marked.  The labels of files
are labels of the trace besides, so that cavities are found.
-/

namespace TaintTrace
namespace Recording

variable {r s : Recording} {op : Operation} {ops : List Operation}

/-!
## Supported operations
-/

def HasFile (r : Recording) (index : Int) : Prop :=
  0 ≤ index ∧ index < r.headers.size

/-- The operations of a run in which the files and labels that are not looked at are there, at
the latest when the run has ended with a recording. -/
def Operation.Supported (r : Recording) : Operation -> Prop
  | .node _ => False
  | .source index _ => r.HasFile index
  | .sink index _ l => r.HasFile index ∧ r.Has l
  | .taint index _ l => r.HasFile index ∧ r.Has l
  | .write index _ ls => r.HasFile index ∧ forall l, l ∈ ls -> r.Has l
  | _ => True

namespace Operation

theorem Supported.checked (h : op.Supported r) : op.Checked := by
  cases op with
  | node n => cases h
  | _ => trivial

theorem Supported.sink (h : op.Supported r) {k : Sink} (hk : k ∈ op.sinks) :
    r.Has k.label ∧ exists index, r.HasFile index ∧ k.output = UInt8.ofInt index := by
  cases op with
  | sink index offset l =>
      cases List.mem_singleton.mp hk
      exact ⟨h.2, index, h.1, rfl⟩
  | write index offset ls =>
      rcases List.mem_mapIdx.mp hk with ⟨i, hi, rfl⟩
      exact ⟨h.2 _ (List.getElem_mem hi), index, h.1, rfl⟩
  | _ => cases hk

theorem Supported.taint (h : op.Supported r) {o : OutputTaint} (ho : o ∈ op.taints) :
    r.Has o.label ∧ r.HasFile o.output := by
  cases op with
  | taint index offset l =>
      cases List.mem_singleton.mp ho
      exact ⟨h.2, h.1⟩
  | write index offset ls =>
      rcases List.mem_mapIdx.mp ho with ⟨i, hi, rfl⟩
      exact ⟨h.2 _ (List.getElem_mem hi), h.1⟩
  | _ => cases ho

theorem headers_cases (op : Operation) (r : Recording) :
    op.headers r = [] ∨ exists h, op.headers r = [h] := by
  cases op <;> simp [headers]

end Operation

/-!
## Files
-/

theorem size_headers_le (h : empty.performAll ops = .ok s) : s.headers.size ≤ maxFiles := by
  by_contra hmany
  have hsome : maxFiles < s.headers.toList.length := by
    rw [Array.length_toList]
    omega
  have hfile := (allotted_performAll h maxFiles _ (List.getElem?_eq_getElem hsome)).file
  omega

theorem HasFile.toNat_lt {index : Int} (h : r.HasFile index) (hfiles : r.headers.size ≤ maxFiles) :
    (UInt8.ofInt index).toNat < r.headers.size := by
  rcases h with ⟨hlow, hhigh⟩
  rcases Int.eq_ofNat_of_zero_le hlow with ⟨k, rfl⟩
  have hk : (UInt8.ofInt k).toNat = k := by
    unfold maxFiles at hfiles
    rw [UInt8.ofInt, UInt8.toNat_ofNat_of_lt'] <;> simp <;> omega
  omega

/-- The file of each source has a header, or will have one when there are enough of them. -/
def SourcesBelow (count : Nat) (r : Recording) : Prop :=
  forall (k : Nat) (file : UInt8) (offset : UInt64),
    r.origins[k]? = some (.source file offset) -> file.toNat < max count r.headers.size

/-- The sources that an operation adds refer to a file which is added along with them, or is
one of those at the end of the run. -/
theorem Grown.source_lt {u : Recording} (h : Grown op r s) (hop : op.Supported u)
    (hfiles : u.headers.size ≤ maxFiles) {n : Node} (hn : n ∈ op.nodes r) {file : UInt8}
    {offset : UInt64} (hsource : n.origin = .source file offset) :
    file.toNat < max u.headers.size s.headers.size := by
  cases op with
  | file name size =>
      rcases List.mem_map.mp hn with ⟨o, _, rfl⟩
      cases hsource
      have hsize := congrArg List.length h.headers
      simp only [Operation.headers, Array.length_toList, List.length_append,
        List.length_singleton] at hsize
      have hle : (UInt8.ofNat r.headers.size).toNat ≤ r.headers.size := by
        rw [UInt8.toNat_ofNat']
        exact Nat.mod_le _ _
      omega
  | source index offset =>
      cases List.mem_singleton.mp hn
      cases hsource
      exact lt_max_of_lt_left (HasFile.toNat_lt hop hfiles)
  | union left right =>
      cases List.mem_singleton.mp hn
      exact absurd hsource (stored_union_ne_source left right file offset)
  | range first last =>
      cases List.mem_singleton.mp hn
      cases hsource
  | node n => cases hop
  | _ => cases hn

theorem Grown.size_headers_le (h : Grown op r s) : r.headers.size ≤ s.headers.size := by
  have hsize := congrArg List.length h.headers
  simp only [Array.length_toList, List.length_append] at hsize
  omega

theorem sourcesBelow_performAll (hsupported : forall op, op ∈ ops -> op.Supported s)
    (h : empty.performAll ops = .ok s) : SourcesBelow s.headers.size s := by
  refine performAll_induction (P := SourcesBelow s.headers.size) ?_ bounded_empty ?_ h
  · intro op r s' hop _ _ hgrown hr k file offset hk
    rcases hgrown.origin_cases hk with hold | ⟨_, n, hn, hsource⟩
    · exact (hr k file offset hold).trans_le (max_le_max le_rfl hgrown.size_headers_le)
    · exact hgrown.source_lt (hsupported op hop) (Recording.size_headers_le h)
        (List.mem_of_getElem? hn) hsource
  · intro k file offset hk
    cases k with
    | zero => cases hk
    | succ k => cases hk

/-!
## Labels of files
-/

theorem labelBegin_of_headers (hr : Bounded r) {header : Header}
    (hheader : op.headers r = [header]) : header.labelBegin.toNat = r.words.size := by
  cases op with
  | file name size =>
      cases List.singleton_inj.mp hheader
      exact hr.nextLabel_toNat
  | output name =>
      cases List.singleton_inj.mp hheader
      exact hr.nextLabel_toNat
  | _ => cases hheader

/-- The labels of each file come before those of the files after it, and before the labels
that are not given yet. -/
structure Stacked (r : Recording) : Prop where
  inside : forall h, h ∈ r.headers.toList -> h.labelEnd.toNat ≤ r.words.size
  ordered : r.headers.toList.Pairwise fun a b => a.labelEnd.toNat ≤ b.labelBegin.toNat

theorem Stacked.grow (hstacked : Stacked r) (hr : Bounded r) (hs : Bounded s)
    (h : Grown op r s) : Stacked s := by
  have hsize : r.words.size ≤ s.words.size := by
    rw [h.size_eq]
    exact Nat.le_add_right _ _
  have hold : forall a, a ∈ r.headers.toList -> a.labelEnd.toNat ≤ s.words.size :=
    fun a ha => (hstacked.inside a ha).trans hsize
  rcases op.headers_cases r with hnone | ⟨header, hheader⟩
  · have hsame : s.headers.toList = r.headers.toList := by
      rw [h.headers, hnone, List.append_nil]
    exact ⟨hsame ▸ hold, hsame ▸ hstacked.ordered⟩
  · have hnew : s.headers.toList = r.headers.toList ++ [header] := by
      rw [h.headers, hheader]
    constructor
    · rw [hnew, List.forall_mem_append, List.forall_mem_singleton]
      exact ⟨hold, (h.allotted hr hs hheader).inside⟩
    · rw [hnew, List.pairwise_append]
      refine ⟨hstacked.ordered, List.pairwise_singleton _ _, ?_⟩
      intro a ha b hb
      rw [List.mem_singleton.mp hb, labelBegin_of_headers hr hheader]
      exact hstacked.inside a ha

theorem stacked_performAll (h : empty.performAll ops = .ok s) : Stacked s :=
  performAll_induction (fun _ _ _ _ hr hs hgrown hstacked => hstacked.grow hr hs hgrown)
    bounded_empty ⟨by simp [empty], List.Pairwise.nil⟩ h

theorem Stacked.disjoint (h : Stacked r) : r.headers.toList.Pairwise Header.Disjoint := by
  refine h.ordered.imp ?_
  rintro a b hle l ⟨ha, hb⟩
  rw [Header.contains_iff] at ha hb
  omega

/-!
## Sinks and output taints
-/

theorem sinks_performAll (hsupported : forall op, op ∈ ops -> op.Supported s)
    (h : empty.performAll ops = .ok s) {k : Sink} (hk : k ∈ s.sinks.toList) :
    s.Has k.label ∧ k.output.toNat < s.headers.size := by
  refine performAll_induction (P := fun r => forall k, k ∈ r.sinks.toList ->
    s.Has k.label ∧ k.output.toNat < s.headers.size) ?_ bounded_empty (by simp [empty]) h k hk
  intro op r s' hop _ _ hgrown hr k hk
  rw [hgrown.sinks, List.mem_append] at hk
  cases hk with
  | inl hold => exact hr k hold
  | inr hnew =>
      rcases (hsupported op hop).sink hnew with ⟨hlabel, index, hindex, houtput⟩
      rw [houtput]
      exact ⟨hlabel, hindex.toNat_lt (size_headers_le h)⟩

theorem taints_performAll (hsupported : forall op, op ∈ ops -> op.Supported s)
    (h : empty.performAll ops = .ok s) {o : OutputTaint} (ho : o ∈ s.taints.toList) :
    s.Has o.label ∧ s.HasFile o.output := by
  refine performAll_induction (P := fun r => forall o, o ∈ r.taints.toList ->
    s.Has o.label ∧ s.HasFile o.output) ?_ bounded_empty (by simp [empty]) h o ho
  intro op r s' hop _ _ hgrown hr o ho
  rw [hgrown.taints, List.mem_append] at ho
  cases ho with
  | inl hold => exact hr o hold
  | inr hnew => exact (hsupported op hop).taint hnew

/-!
## Consistency
-/

theorem hasLabel_iff {l : Label} : r.trace.HasLabel l <-> r.Has l := by
  rw [Trace.HasLabel, ← toNat_pos_iff]
  rfl

theorem Bounded.has_of_mem_labels (hr : Bounded r) {l : Label} (hl : l ∈ r.trace.labels) :
    r.Has l := by
  have hfits := hr.fits
  simp only [NodeWord.labelSpan, Label.max] at hfits
  rcases List.mem_map.mp hl with ⟨k, hk, rfl⟩
  rw [List.mem_range'_1] at hk
  change 1 ≤ k ∧ k < 1 + (r.words.size - 1) at hk
  rw [Has, UInt32.toNat_ofNat_of_lt' (by change k < 4294967296; omega)]
  omega

theorem fits_of_decode (hearlier : Earlier s) (hsources : SourcesBelow s.headers.size s)
    {l : Label} {n : Node} (hn : s.decode l = .ok n) : s.trace.Fits l n := by
  rcases decode_eq_ok_iff_nodes.mp hn with ⟨hpositive, hnode⟩
  constructor
  · intro file offset hsource
    have hlt := hsources _ file offset (getElem?_origins.mpr ⟨n, hnode, hsource⟩)
    rw [max_self, ← Array.length_toList] at hlt
    exact hlt
  · intro c hc
    rcases hearlier l.toNat n hpositive hnode c hc with ⟨hc0, hlt⟩
    exact ⟨toNat_pos_iff.mp hc0, UInt32.lt_iff_toNat_lt.mpr hlt⟩

theorem consistent_performAll (hsupported : forall op, op ∈ ops -> op.Supported s)
    (h : empty.performAll ops = .ok s) : s.trace.Consistent where
  ordered := by
    intro header hheader
    rcases List.getElem?_of_mem hheader with ⟨i, hi⟩
    exact UInt32.le_iff_toNat_le.mpr (allotted_performAll h i header hi).ordered
  disjoint := (stacked_performAll h).disjoint
  nodes := by
    intro l hl
    have hhas := (bounded_performAll bounded_empty h).has_of_mem_labels hl
    rcases has_iff.mp hhas with ⟨n, hn⟩
    have hearlier := earlier_performAll (fun op hop => (hsupported op hop).checked) h
    exact ⟨n, hn, fits_of_decode hearlier (sourcesBelow_performAll hsupported h) hn⟩
  sinks := by
    intro k hk
    rcases sinks_performAll hsupported h hk with ⟨hlabel, houtput⟩
    rw [← Array.length_toList] at houtput
    exact ⟨hasLabel_iff.mpr hlabel, houtput⟩
  taints := by
    intro o ho
    rcases taints_performAll hsupported h ho with ⟨hlabel, houtput⟩
    rw [HasFile, ← Array.length_toList] at houtput
    exact ⟨hasLabel_iff.mpr hlabel, houtput⟩

theorem Allotted.decode {i o : Nat} {h : Header} (hr : Allotted r i h) (ho : o < h.length) :
    exists file offset affects, r.decode (h.labelBegin + UInt32.ofNat o) =
      .ok ⟨.source file offset, affects⟩ ∧ file.toNat = i ∧ offset.toNat = o := by
  rcases hr.isSource ho with ⟨affects, hdecode⟩
  have hsize := Cavities.length_lt_size h
  exact ⟨_, _, affects, hdecode, UInt8.toNat_ofNat_of_lt' hr.file,
    UInt64.toNat_ofNat_of_lt' (ho.trans hsize)⟩

/-- A run of supported operations ends with a trace without problems.  The labels of each file
are labels of the trace and have the bytes of the file in order, and both the map of bytes and
the cavities are found. -/
theorem no_problems_of_supported (ops : List Operation) (r : Recording)
    (hrun : empty.performAll ops = .ok r) (hsupported : forall op, op ∈ ops -> op.Supported r) :
    (forall limit, (r.trace.problems limit).run r.trace = []) ∧
    (forall i h, r.trace.headers[i]? = some h ->
      1 ≤ h.labelBegin.toNat ∧ h.labelBegin.toNat ≤ h.labelEnd.toNat ∧
      h.labelEnd.toNat ≤ r.trace.labelCount ∧
      forall o, o < h.length -> exists file offset affects,
        r.trace.decode (h.labelBegin + UInt32.ofNat o) = .ok ⟨.source file offset, affects⟩ ∧
          file.toNat = i ∧ offset.toNat = o) ∧
    (forall interval, exists m, ((r.trace.byteMap interval).run r.trace).2 = .ok m) ∧
    forall options, exists cs, ((r.trace.cavities options).run r.trace).2 = .ok cs := by
  have hconsistent := consistent_performAll hsupported hrun
  have hallotted := allotted_performAll hrun
  refine ⟨fun limit => Validity.problems_eq_nil_iff.mpr hconsistent, ?_,
    hconsistent.byteMap_succeeds, ?_⟩
  · intro i h hi
    have hi := hallotted i h hi
    exact ⟨hi.positive, hi.ordered, hi.inside, fun o ho => hi.decode ho⟩
  · intro options
    refine hconsistent.cavities_ok_iff.mpr ?_
    intro h hh _ _
    rcases List.getElem?_of_mem hh with ⟨i, hi⟩
    have hi := hallotted i h hi
    refine ⟨hi.inside, ?_⟩
    intro hzero
    have hpositive := hi.positive
    rw [hzero] at hpositive
    cases hpositive

/-- A run with every kind of supported operation.  The source has no label set aside. -/
def errands : List Operation :=
  [.file "in" 2, .output "out", .sourceLabel 0 1, .source 0 7, .union 2 1, .range 1 4,
    .controlFlow [1, 5], .sink 1 0 4, .taint 1 5 2, .write 1 0 [4, 5]]

theorem no_problems_of_supported_errands :
    exists r, empty.performAll errands = .ok r ∧
      (forall op, op ∈ errands -> op.Supported r) ∧
      (r.trace.problems 0).run r.trace = [] ∧
      (exists file offset affects,
        r.trace.decode 2 = .ok ⟨.source file offset, affects⟩ ∧ offset.toNat = 1) ∧
      (exists m, ((r.trace.byteMap 0).run r.trace).2 = .ok m) ∧
      exists cs, ((r.trace.cavities ⟨fun _ => true, true, 0⟩).run r.trace).2 = .ok cs := by
  have hrun : exists r, empty.performAll errands = .ok r ∧ r.headers.size = 2 ∧
      r.words.size = 6 ∧ r.trace.headers[0]? = some ⟨"in", 3, 1, 3⟩ := ⟨_, rfl, rfl, rfl, rfl⟩
  rcases hrun with ⟨r, hrun, hfiles, hsize, hheader⟩
  have hsupported : forall op, op ∈ errands -> op.Supported r := by
    simp [errands, Operation.Supported, HasFile, Has, hfiles, hsize]
  rcases no_problems_of_supported errands r hrun hsupported with
    ⟨hproblems, hheaders, hmap, hcavities⟩
  rcases (hheaders 0 _ hheader).2.2.2 1 (by decide) with
    ⟨file, offset, affects, hdecode, _, hoffset⟩
  exact ⟨r, hrun, hsupported, hproblems 0, ⟨file, offset, affects, hdecode, hoffset⟩, hmap 0,
    hcavities _⟩

end Recording
end TaintTrace
