import Mathlib
import TaintTrace.Proofs.Safety

/-!
# The input bytes of an output byte

The sources of an output taint are listed in order, one for each source label that the label
of the output taint depends on.  A byte that is read several times has several source labels,
and it is listed once for each of them that is found.  So the list is strictly increasing
exactly if no two source labels are found that stand for one byte.
-/

namespace TaintTrace
namespace Trace

open Sources

variable {t : Trace} {l : Label}

/-!
## Bytes of found sources
-/

def byteOf (t : Trace) (s : FoundSource) : ByteOffset :=
  ⟨(t.input? s.file.toNat).getD ⟨s.file.toNat, []⟩, s.offset⟩

theorem byteOf_file_id (t : Trace) (s : FoundSource) :
    (t.byteOf s).file.id = s.file.toNat := by
  show ((t.input? s.file.toNat).getD ⟨s.file.toNat, []⟩).id = _
  cases hinput : t.input? s.file.toNat with
  | none => rfl
  | some i => exact (input?_eq_some_iff.mp hinput).2

theorem byteOf_eq_iff {s s' : FoundSource} :
    t.byteOf s = t.byteOf s' <-> s.file = s'.file ∧ s.offset = s'.offset := by
  constructor
  · intro hsame
    have hid := congrArg (fun b : ByteOffset => b.file.id) hsame
    simp only [byteOf_file_id, Int.natCast_inj, UInt8.toNat_inj] at hid
    exact ⟨hid, congrArg ByteOffset.offset hsame⟩
  · intro hsame
    unfold byteOf
    rw [hsame.1, hsame.2]

theorem sourceBytes_eq_map {found : List FoundSource} {bytes : List ByteOffset}
    (h : t.sourceBytes found = .ok bytes) :
    bytes = found.map t.byteOf ∧ forall s, s ∈ found -> t.IsInput (t.byteOf s).file := by
  induction found generalizing bytes with
  | nil =>
      cases h
      exact ⟨rfl, fun s hs => nomatch hs⟩
  | cons s found ih =>
      unfold sourceBytes at h
      rcases input_cases t s.file.toNat with ⟨file, hok, hfile⟩ | ⟨⟨e, herror⟩, _⟩
      · rw [hok] at h
        cases hrest : t.sourceBytes found with
        | error e =>
            rw [hrest] at h
            cases h
        | ok rest =>
            rw [hrest] at h
            cases h
            have hbyte : t.byteOf s = ⟨file, s.offset⟩ := by
              unfold byteOf
              rw [hfile]
              rfl
            rw [List.map_cons, List.forall_mem_cons, hbyte, ← (ih hrest).1]
            exact ⟨rfl, (input?_eq_some_iff.mp hfile).1, (ih hrest).2⟩
      · rw [herror] at h
        cases h

theorem Traceable.exists_found (h : t.Traceable l) :
    exists found, Resolved t.decode l found ∧
      (forall s, s ∈ found -> t.IsInput (t.byteOf s).file) ∧
      (t.outputTaintSources l).run t = .ok (ByteMap.sortBytes (found.map t.byteOf)) := by
  rcases taintSources_cases t l with ⟨bytes, hok, _⟩ | ⟨_, hstuck⟩
  · rcases sources_cases t.decode l with ⟨found, hanswer, hresolved⟩ | ⟨_, m, e, _, hstopped⟩
    · have hbytes : t.sourceBytes found = .ok bytes := by
        unfold taintSources at hok
        rw [Lookup.run_bind, show (Lookup.sources l).run t = (found, none) from hanswer] at hok
        exact hok
      rcases sourceBytes_eq_map hbytes with ⟨rfl, hinputs⟩
      exists found
      refine ⟨hresolved, hinputs, ?_⟩
      unfold outputTaintSources
      rw [Lookup.run_bind, hok]
      rfl
    · rcases h.decodes m hstopped.depends with ⟨n, hn⟩
      rw [hstopped.undecodable] at hn
      cases hn
  · exact absurd h hstuck

/-!
## Sorted bytes
-/

theorem sortBytes_pairwise (bytes : List ByteOffset) :
    (ByteMap.sortBytes bytes).Pairwise fun a b => a.le b = true := by
  apply List.pairwise_mergeSort
  · intro a b c
    exact ByteOffset.le_trans
  · intro a b
    rw [Bool.or_eq_true]
    exact ByteOffset.le_total a b

/-- Where an identifier stands for one file, bytes in order are strictly in order exactly if
none of them is repeated. -/
theorem sortBytes_strict_iff {bytes : List ByteOffset}
    (hinputs : forall b, b ∈ bytes -> t.IsInput b.file) :
    (ByteMap.sortBytes bytes).Pairwise ByteOffset.Before <-> bytes.Nodup := by
  have hperm : (ByteMap.sortBytes bytes).Perm bytes := List.mergeSort_perm _ _
  constructor
  · intro hstrict
    exact hperm.nodup_iff.mp (hstrict.imp ByteOffset.Before.ne)
  · intro hnodup
    have hboth := (sortBytes_pairwise bytes).and (hperm.nodup_iff.mpr hnodup)
    refine hboth.imp_of_mem ?_
    intro a b ha hb hab
    exact (uniform_isInput t).before (hinputs a (hperm.mem_iff.mp ha))
      (hinputs b (hperm.mem_iff.mp hb)) hab.1 hab.2

/-!
## How often a byte is listed
-/

def sourceLabels (t : Trace) (l : Label) (b : ByteOffset) : Set Label :=
  { m | exists s : FoundSource, s.label = m ∧ Depends t.decode l m ∧ IsSource t.decode s ∧
    t.input? s.file.toNat = some b.file ∧ s.offset = b.offset }

theorem byteOf_eq_iff_input? {s : FoundSource} {b : ByteOffset}
    (hinput : t.IsInput (t.byteOf s).file) :
    t.byteOf s = b <-> t.input? s.file.toNat = some b.file ∧ s.offset = b.offset := by
  have hfile : t.input? s.file.toNat = some (t.byteOf s).file :=
    input?_eq_some_iff.mpr ⟨hinput, byteOf_file_id t s⟩
  rw [hfile, Option.some.injEq]
  constructor
  · intro hsame
    rw [← hsame]
    exact ⟨rfl, rfl⟩
  · intro hsame
    rcases b with ⟨file, offset⟩
    dsimp only at hsame
    rw [← hsame.1, ← hsame.2]
    rfl

theorem count_map_byteOf {found : List FoundSource} (hresolved : Resolved t.decode l found)
    (hinputs : forall s, s ∈ found -> t.IsInput (t.byteOf s).file) (b : ByteOffset) :
    (found.map t.byteOf).count b = (t.sourceLabels l b).ncard := by
  have hlabels : ((found.filter fun s => t.byteOf s == b).map FoundSource.label).Nodup :=
    hresolved.distinct.sublist (List.filter_sublist.map FoundSource.label)
  have hmem : forall m, m ∈ (found.filter fun s => t.byteOf s == b).map FoundSource.label <->
      m ∈ t.sourceLabels l b := by
    intro m
    rw [List.mem_map]
    constructor
    · intro hm
      rcases hm with ⟨s, hs, rfl⟩
      rw [List.mem_filter, beq_iff_eq] at hs
      rcases (hresolved.finds s).mp hs.1 with ⟨hdepends, hsource⟩
      exact ⟨s, rfl, hdepends, hsource, (byteOf_eq_iff_input? (hinputs s hs.1)).mp hs.2⟩
    · intro hm
      rcases hm with ⟨s, rfl, hdepends, hsource, hbyte⟩
      have hs := (hresolved.finds s).mpr ⟨hdepends, hsource⟩
      exists s
      rw [List.mem_filter, beq_iff_eq]
      exact ⟨⟨hs, (byteOf_eq_iff_input? (hinputs s hs)).mpr hbyte⟩, rfl⟩
  calc (found.map t.byteOf).count b
      = (found.filter fun s => t.byteOf s == b).length := by
        rw [List.count, List.countP_map, List.countP_eq_length_filter]
        rfl
    _ = ((found.filter fun s => t.byteOf s == b).map FoundSource.label).length := by
        rw [List.length_map]
    _ = (t.sourceLabels l b).ncard := Ancestry.length_eq_ncard hlabels hmem

theorem nodup_map_byteOf_iff {found : List FoundSource}
    (hresolved : Resolved t.decode l found) :
    (found.map t.byteOf).Nodup <->
      forall s s', Depends t.decode l s.label -> IsSource t.decode s ->
        Depends t.decode l s'.label -> IsSource t.decode s' ->
        s.file = s'.file -> s.offset = s'.offset -> s.label = s'.label := by
  rw [List.nodup_map_iff_inj_on hresolved.distinct.of_map]
  constructor
  · intro hinj s s' hdepends hsource hdepends' hsource' hfile hoffset
    rw [hinj s ((hresolved.finds s).mpr ⟨hdepends, hsource⟩) s'
      ((hresolved.finds s').mpr ⟨hdepends', hsource'⟩) (byteOf_eq_iff.mpr ⟨hfile, hoffset⟩)]
  · intro hone s hs s' hs' hsame
    rcases (hresolved.finds s).mp hs with ⟨hdepends, hsource⟩
    rcases (hresolved.finds s').mp hs' with ⟨hdepends', hsource'⟩
    rcases byteOf_eq_iff.mp hsame with ⟨hfile, hoffset⟩
    have hlabel := hone s s' hdepends hsource hdepends' hsource' hfile hoffset
    rcases s with ⟨label, file, offset⟩
    rcases s' with ⟨label', file', offset'⟩
    dsimp only at hlabel hfile hoffset
    rw [hlabel, hfile, hoffset]

theorem label_eq_of_filed {r : Recording} (hr : r.Filed) {s s' : FoundSource}
    (hsource : IsSource r.trace.decode s) (hsource' : IsSource r.trace.decode s')
    (hfile : s.file = s'.file) (hoffset : s.offset = s'.offset) : s.label = s'.label := by
  rcases hr.source_cases hsource with ⟨h, hheader, _, hlabel⟩
  rcases hr.source_cases hsource' with ⟨h', hheader', _, hlabel'⟩
  rw [hfile, hheader'] at hheader
  cases hheader
  rw [← UInt32.toNat_inj, hlabel, hlabel', hoffset]

/-- The input bytes of an output taint of a trace without problems are listed in order, and
each of them as often as there are source labels of it that the output taint depends on.  They
are listed once each, that is in strictly increasing order, exactly if no two such labels are
sources of one byte.  This is so in a recording that was made without sources of its own. -/
theorem outputTaintSources_counted (t : Trace) (hcheck : (t.problems 0).run t = [])
    (o : OutputTaint) (ho : o ∈ t.taints) :
    exists bytes, (t.outputTaintSources o.label).run t = .ok bytes ∧
      (bytes.Pairwise fun a b => a.le b = true) ∧
      (forall b, bytes.count b = (t.sourceLabels o.label b).ncard) ∧
      (bytes.Pairwise ByteOffset.Before <->
        forall s s', Depends t.decode o.label s.label -> IsSource t.decode s ->
          Depends t.decode o.label s'.label -> IsSource t.decode s' ->
          s.file = s'.file -> s.offset = s'.offset -> s.label = s'.label) ∧
      forall ops r, Recording.empty.performAll ops = .ok r -> (forall op, op ∈ ops -> op.Filed) ->
        t = r.trace -> bytes.Pairwise ByteOffset.Before := by
  have ht : t.Consistent := Validity.problems_eq_nil_iff.mp hcheck
  rcases (ht.mappable ho).label.exists_found with ⟨found, hresolved, hinputs, hok⟩
  have hbytes : forall b, b ∈ found.map t.byteOf -> t.IsInput b.file := by
    intro b hb
    rcases List.mem_map.mp hb with ⟨s, hs, rfl⟩
    exact hinputs s hs
  have hstrict := (sortBytes_strict_iff hbytes).trans (nodup_map_byteOf_iff hresolved)
  refine ⟨_, hok, sortBytes_pairwise _, ?_, hstrict, ?_⟩
  · intro b
    rw [← count_map_byteOf hresolved hinputs b]
    exact (List.mergeSort_perm _ _).count_eq b
  · intro ops r hrun hfiled htrace
    rw [hstrict]
    intro s s' _ hsource _ hsource' hfile hoffset
    rw [htrace] at hsource hsource'
    exact label_eq_of_filed (Recording.filed_performAll hfiled hrun) hsource hsource' hfile hoffset

/-- The second byte of a file is read again, and both labels of it are mixed into one that is
written. -/
def echo : List Recording.Operation :=
  [.file [0x69] 2, .output [0x6f], .source 0 1, .union 2 3, .taint 1 0 4]

theorem performAll_echo :
    exists r, Recording.empty.performAll echo = .ok r ∧ (r.trace.problems 0).run r.trace = [] ∧
      ⟨1, 0, 4⟩ ∈ r.trace.taints ∧
      (r.trace.outputTaintSources 4).run r.trace =
        .ok [⟨⟨0, [0x69]⟩, 1⟩, ⟨⟨0, [0x69]⟩, 1⟩] := by
  refine ⟨_, rfl, by decide +kernel, List.mem_singleton.mpr rfl, ?_⟩
  cbv

theorem outputTaintSources_counted_echo :
    exists r, Recording.empty.performAll echo = .ok r ∧ (r.trace.problems 0).run r.trace = [] ∧
      ⟨1, 0, 4⟩ ∈ r.trace.taints ∧ (r.trace.sourceLabels 4 ⟨⟨0, [0x69]⟩, 1⟩).ncard = 2 := by
  rcases performAll_echo with ⟨r, hrun, hcheck, htaint, hlisted⟩
  rcases outputTaintSources_counted r.trace hcheck ⟨1, 0, 4⟩ htaint with
    ⟨bytes, hok, _, hcount, _⟩
  rw [hlisted] at hok
  cases hok
  exact ⟨r, hrun, hcheck, htaint, (hcount _).symm.trans (by decide)⟩

/-- A trace without problems may have an output taint whose sources name a byte twice. -/
theorem outputTaintSources_not_strict :
    exists r, Recording.empty.performAll echo = .ok r ∧ (r.trace.problems 0).run r.trace = [] ∧
      exists o, o ∈ r.trace.taints ∧
        exists bytes, (r.trace.outputTaintSources o.label).run r.trace = .ok bytes ∧
          ¬ bytes.Pairwise ByteOffset.Before := by
  rcases performAll_echo with ⟨r, hrun, hcheck, htaint, hlisted⟩
  refine ⟨r, hrun, hcheck, _, htaint, _, hlisted, ?_⟩
  intro hstrict
  rw [List.pairwise_pair] at hstrict
  exact hstrict.ne rfl

end Trace
end TaintTrace
