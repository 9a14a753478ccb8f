import Mathlib
import TaintTrace.Proofs.ByteMap
import TaintTrace.Proofs.Session
import TaintTrace.Proofs.Sources

/-!
# The map of bytes is exact

An output byte is in the map under an input byte if and only if some output taint of it
depends on a source of the input byte.  The map exists if and only if all files involved
have headers and all labels involved have nodes.  Within a session it is computed once.
-/

namespace TaintTrace

theorem Lookup.run_bind {α β : Type} (t : Trace) (p : Lookup α) (f : α -> Lookup β) :
    (p.bind f).run t = (f (p.run t)).run t :=
  Lookup.answer_bind t.decode p f

namespace Trace

open Sources

variable {t : Trace}

/-!
## Inputs
-/

def IsInput (t : Trace) (i : Input) : Prop :=
  exists (k : Nat) (h : Header), t.headers[k]? = some h ∧ i = ⟨k, h.name⟩

theorem input?_eq_some_iff {id : Int} {i : Input} :
    t.input? id = some i <-> t.IsInput i ∧ i.id = id := by
  unfold input? IsInput
  by_cases hneg : id < 0
  · rw [if_pos hneg]
    constructor
    · intro h
      cases h
    · intro h
      rcases h with ⟨⟨k, header, _, rfl⟩, hid⟩
      dsimp only at hid
      omega
  · rw [if_neg hneg, Option.map_eq_some_iff]
    constructor
    · intro h
      rcases h with ⟨header, hheader, rfl⟩
      refine ⟨⟨id.toNat, header, hheader, ?_⟩, rfl⟩
      rw [Int.toNat_of_nonneg (by omega)]
    · intro h
      rcases h with ⟨⟨k, header, hheader, rfl⟩, hid⟩
      dsimp only at hid
      subst hid
      exact ⟨header, by rwa [Int.toNat_natCast], rfl⟩

theorem input?_eq_none_iff {id : Int} :
    t.input? id = none <-> ¬ (0 ≤ id ∧ id < t.headers.length) := by
  unfold input?
  by_cases hneg : id < 0
  · rw [if_pos hneg]
    simp
    omega
  · rw [if_neg hneg, Option.map_eq_none_iff, List.getElem?_eq_none_iff]
    omega

theorem input_cases (t : Trace) (id : Int) :
    (exists i, t.input id = .ok i ∧ t.input? id = some i) ∨
      (exists e, t.input id = .error e) ∧ t.input? id = none := by
  unfold input
  cases t.input? id with
  | none => exact Or.inr ⟨⟨_, rfl⟩, rfl⟩
  | some i => exact Or.inl ⟨i, rfl, rfl⟩

theorem uniform_isInput (t : Trace) : ByteOffset.Uniform fun b => t.IsInput b.file := by
  intro a b ha hb hid
  have hinput := input?_eq_some_iff.mpr ⟨ha, hid⟩
  rw [input?_eq_some_iff.mpr ⟨hb, rfl⟩] at hinput
  exact (Option.some.inj hinput).symm

/-!
## Sources of one label
-/

theorem sourceBytes_cases (t : Trace) (found : List FoundSource) :
    (exists bytes, t.sourceBytes found = .ok bytes ∧
      (forall s, s ∈ found -> t.input? s.file.toNat ≠ none) ∧
      forall b, b ∈ bytes <-> exists s, s ∈ found ∧ t.input? s.file.toNat = some b.file ∧
        s.offset = b.offset) ∨
    (exists e, t.sourceBytes found = .error e) ∧
      exists s, s ∈ found ∧ t.input? s.file.toNat = none := by
  induction found with
  | nil => exact Or.inl ⟨[], rfl, by simp, by simp⟩
  | cons s found ih =>
      unfold sourceBytes
      rcases input_cases t s.file.toNat with ⟨file, hok, hfile⟩ | ⟨⟨e, herror⟩, hnone⟩
      · rw [hok]
        rcases ih with ⟨bytes, hbytes, hknown, hmem⟩ | ⟨⟨e, herror⟩, s', hs', hnone⟩
        · refine Or.inl ⟨⟨file, s.offset⟩ :: bytes, by rw [hbytes]; rfl, ?_, ?_⟩
          · rw [List.forall_mem_cons]
            exact ⟨by simp [hfile], hknown⟩
          · intro b
            rw [List.mem_cons, hmem, List.exists_mem_cons_iff, hfile]
            refine or_congr ?_ Iff.rfl
            constructor
            · intro hb
              subst hb
              exact ⟨rfl, rfl⟩
            · intro hb
              rcases b with ⟨file', offset⟩
              rcases hb with ⟨hfile', hoffset⟩
              cases hfile'
              cases hoffset
              rfl
        · exact Or.inr ⟨⟨e, by rw [herror]; rfl⟩, s', List.mem_cons_of_mem s hs', hnone⟩
      · rw [herror]
        exact Or.inr ⟨⟨e, rfl⟩, s, List.mem_cons_self, hnone⟩

/-- All that a label depends on has nodes, and its sources are bytes of files. -/
structure Traceable (t : Trace) (l : Label) : Prop where
  decodes : forall m, Depends t.decode l m -> exists n, t.decode m = .ok n
  files : forall s, Depends t.decode l s.label -> IsSource t.decode s ->
    s.file.toNat < t.headers.length

/-- The input bytes that a label depends on. -/
def ComesFrom (t : Trace) (l : Label) (b : ByteOffset) : Prop :=
  exists s, Depends t.decode l s.label ∧ IsSource t.decode s ∧
    (s.file.toNat : Int) = b.file.id ∧ s.offset = b.offset

theorem taintSources_cases (t : Trace) (l : Label) :
    (exists bytes, (t.taintSources l).run t = .ok bytes ∧ t.Traceable l ∧
      forall b, b ∈ bytes <-> t.IsInput b.file ∧ t.ComesFrom l b) ∨
    (exists e, (t.taintSources l).run t = .error e) ∧ ¬ t.Traceable l := by
  unfold taintSources Lookup.run
  rw [Lookup.answer_bind]
  rcases sources_cases t.decode l with ⟨found, hanswer, hall⟩ | ⟨found, m, e, hanswer, hstop⟩
  · rw [hanswer]
    dsimp only
    rcases sourceBytes_cases t found with ⟨bytes, hok, hknown, hmem⟩ | ⟨⟨e, herror⟩, s, hs, hnone⟩
    · refine Or.inl ⟨bytes, hok, ⟨hall.decodes, ?_⟩, ?_⟩
      · intro s hdepends hsource
        have hsome := hknown s ((hall.finds s).mpr ⟨hdepends, hsource⟩)
        rw [Ne, input?_eq_none_iff, not_not] at hsome
        exact Int.ofNat_lt.mp hsome.2
      · intro b
        rw [hmem]
        constructor
        · intro hb
          rcases hb with ⟨s, hs, hfile, hoffset⟩
          rcases input?_eq_some_iff.mp hfile with ⟨hinput, hid⟩
          rcases (hall.finds s).mp hs with ⟨hdepends, hsource⟩
          exact ⟨hinput, s, hdepends, hsource, hid.symm, hoffset⟩
        · intro hb
          rcases hb with ⟨hinput, s, hdepends, hsource, hid, hoffset⟩
          exact ⟨s, (hall.finds s).mpr ⟨hdepends, hsource⟩,
            input?_eq_some_iff.mpr ⟨hinput, hid.symm⟩, hoffset⟩
    · refine Or.inr ⟨⟨e, herror⟩, ?_⟩
      intro htraceable
      rcases (hall.finds s).mp hs with ⟨hdepends, hsource⟩
      have hlt := htraceable.files s hdepends hsource
      rw [input?_eq_none_iff] at hnone
      omega
  · rw [hanswer]
    refine Or.inr ⟨⟨_, rfl⟩, ?_⟩
    intro htraceable
    rcases htraceable.decodes m hstop.depends with ⟨n, hn⟩
    rw [hstop.undecodable] at hn
    cases hn

/-!
## Pairs of all output taints
-/

/-- An output taint whose output has a header and whose label can be traced. -/
structure Mappable (t : Trace) (o : OutputTaint) : Prop where
  output : 0 ≤ o.output ∧ o.output < t.headers.length
  label : t.Traceable o.label

/-- Whether an output taint says that an input byte flows to an output byte. -/
def Carries (t : Trace) (o : OutputTaint) (input output : ByteOffset) : Prop :=
  o.output = output.file.id ∧ o.offset = output.offset ∧ t.ComesFrom o.label input

theorem mem_foldl_pairs {bytes : List ByteOffset} {output : ByteOffset}
    {pairs : List (ByteOffset × ByteOffset)} {a b : ByteOffset} :
    (a, b) ∈ bytes.foldl (fun pairs x => (x, output) :: pairs) pairs <->
      (a ∈ bytes ∧ b = output) ∨ (a, b) ∈ pairs := by
  induction bytes generalizing pairs with
  | nil => simp
  | cons x bytes ih =>
      rw [List.foldl_cons, ih, List.mem_cons, List.mem_cons, Prod.mk.injEq, or_and_right,
        ← or_assoc, or_comm (a := a ∈ bytes ∧ b = output)]

/-- One output taint more adds the pairs that it says, whatever the rest adds. -/
theorem exists_carries_cons {o : OutputTaint} {taints : List OutputTaint} {file : Input}
    {bytes : List ByteOffset} (hfile : t.input? o.output = some file)
    (hbytes : forall x, x ∈ bytes <-> t.IsInput x.file ∧ t.ComesFrom o.label x)
    {a b : ByteOffset} :
    ((t.IsInput a.file ∧ t.IsInput b.file ∧ exists o', o' ∈ o :: taints ∧ t.Carries o' a b) <->
      (a ∈ bytes ∧ b = ⟨file, o.offset⟩) ∨
        (t.IsInput a.file ∧ t.IsInput b.file ∧ exists o', o' ∈ taints ∧ t.Carries o' a b)) := by
  rcases input?_eq_some_iff.mp hfile with ⟨hinput, hid⟩
  rw [List.exists_mem_cons_iff, hbytes]
  constructor
  · intro h
    rcases h with ⟨ha, hb, ⟨houtput, hoffset, hfrom⟩ | hrest⟩
    · refine Or.inl ⟨⟨ha, hfrom⟩, ?_⟩
      have hsame : b.file = file := by
        have hbfile := input?_eq_some_iff.mpr ⟨hb, houtput.symm⟩
        rw [hfile] at hbfile
        exact (Option.some.inj hbfile).symm
      rcases b with ⟨bfile, boffset⟩
      dsimp only at hsame hoffset
      rw [hsame, hoffset]
    · exact Or.inr ⟨ha, hb, hrest⟩
  · intro h
    rcases h with ⟨⟨ha, hfrom⟩, rfl⟩ | ⟨ha, hb, hrest⟩
    · exact ⟨ha, hinput, Or.inl ⟨hid.symm, rfl, hfrom⟩⟩
    · exact ⟨ha, hb, Or.inr hrest⟩

theorem taintPairs_cases (t : Trace) (done : Nat) (taints : List OutputTaint)
    (pairs : List (ByteOffset × ByteOffset)) :
    (exists all, ((t.taintPairs done taints pairs).run t).2 = .ok all ∧
      (forall o, o ∈ taints -> t.Mappable o) ∧
      forall a b, (a, b) ∈ all <->
        (t.IsInput a.file ∧ t.IsInput b.file ∧ exists o, o ∈ taints ∧ t.Carries o a b) ∨
          (a, b) ∈ pairs) ∨
    (exists e, ((t.taintPairs done taints pairs).run t).2 = .error e) ∧
      exists o, o ∈ taints ∧ ¬ t.Mappable o := by
  -- The pairs of the output taints dealt with are carried along, whatever they are.
  induction taints generalizing done pairs with
  | nil => exact Or.inl ⟨pairs, rfl, by simp, by simp⟩
  | cons o taints ih =>
      unfold taintPairs
      rcases input_cases t o.output with ⟨file, hok, hfile⟩ | ⟨⟨e, herror⟩, hnone⟩
      · rw [hok]
        dsimp only
        rw [Lookup.run_bind]
        have houtput : 0 ≤ o.output ∧ o.output < t.headers.length := by
          by_contra hbad
          rw [input?_eq_none_iff.mpr hbad] at hfile
          cases hfile
        rcases taintSources_cases t o.label with
          ⟨bytes, hbytes, htraceable, hmem⟩ | ⟨⟨e, herror⟩, hstuck⟩
        · rw [hbytes]
          rcases ih (done + 1) (bytes.foldl (fun pairs x => (x, ⟨file, o.offset⟩) :: pairs) pairs)
            with ⟨all, hall, hrest, hpairs⟩ | ⟨herror, o', ho', hbad⟩
          · refine Or.inl ⟨all, hall, ?_, ?_⟩
            · rw [List.forall_mem_cons]
              exact ⟨⟨houtput, htraceable⟩, hrest⟩
            · intro a b
              rw [hpairs, mem_foldl_pairs, exists_carries_cons hfile hmem, or_left_comm, or_assoc]
          · exact Or.inr ⟨herror, o', List.mem_cons_of_mem o ho', hbad⟩
        · rw [herror]
          exact Or.inr ⟨⟨_, rfl⟩, o, List.mem_cons_self, fun hmap => hstuck hmap.label⟩
      · rw [herror]
        refine Or.inr ⟨⟨_, rfl⟩, o, List.mem_cons_self, ?_⟩
        intro hmap
        exact input?_eq_none_iff.mp hnone hmap.output

/-!
## The map
-/

/-- What the map of a trace is, where it has one. -/
structure Mapped (t : Trace) (m : ByteMap) : Prop where
  flows : forall a b, (exists outs, (a, outs) ∈ m ∧ b ∈ outs) <->
    t.IsInput a.file ∧ t.IsInput b.file ∧ exists o, o ∈ t.taints ∧ t.Carries o a b
  ordered : m.Pairwise fun e e' => e.1.Before e'.1
  outputs : forall a outs, (a, outs) ∈ m -> outs ≠ [] ∧ outs.Pairwise ByteOffset.Before

theorem byteMap_cases (t : Trace) (interval : Int) :
    (exists m, ((t.byteMap interval).run t).2 = .ok m ∧
      (forall o, o ∈ t.taints -> t.Mappable o) ∧ t.Mapped m) ∨
    (exists e, ((t.byteMap interval).run t).2 = .error e) ∧
      exists o, o ∈ t.taints ∧ ¬ t.Mappable o := by
  unfold byteMap
  dsimp only
  rw [Lookup.run_bind]
  rcases hanswer : (t.taintPairs 0 t.taints []).run t with ⟨done, outcome⟩
  rcases taintPairs_cases t 0 t.taints [] with ⟨pairs, hok, hall, hpairs⟩ | ⟨⟨e, herror⟩, hbad⟩
  · rw [hanswer] at hok
    dsimp only at hok
    subst hok
    have hinputs : forall p, p ∈ pairs -> t.IsInput p.1.file ∧ t.IsInput p.2.file := by
      intro p hp
      rcases (hpairs p.1 p.2).mp hp with ⟨ha, hb, _⟩ | hnil
      · exact ⟨ha, hb⟩
      · cases hnil
    have hordered := ByteMap.ofPairs_ordered (uniform_isInput t) hinputs
    refine Or.inl ⟨ByteMap.ofPairs pairs, rfl, hall, ?_, hordered.1, ?_⟩
    · intro a b
      rw [ByteMap.mem_ofPairs, hpairs]
      simp
    · intro a outs h
      exact ⟨ByteMap.ofPairs_outputs_ne_nil h, hordered.2 a outs h⟩
  · rw [hanswer] at herror
    dsimp only at herror
    subst herror
    exact Or.inr ⟨⟨e, rfl⟩, hbad⟩

theorem Mapped.mem_keys_iff {m : ByteMap} (hmapped : t.Mapped m)
    (hall : forall o, o ∈ t.taints -> t.Mappable o) {a : ByteOffset} :
    a ∈ m.map Prod.fst <->
      t.IsInput a.file ∧ exists o, o ∈ t.taints ∧ t.ComesFrom o.label a := by
  rw [List.mem_map]
  constructor
  · intro hkey
    rcases hkey with ⟨⟨a, outs⟩, hentry, rfl⟩
    rcases List.exists_mem_of_ne_nil outs (hmapped.outputs a outs hentry).1 with ⟨b, hb⟩
    rcases (hmapped.flows a b).mp ⟨outs, hentry, hb⟩ with ⟨ha, _, o, ho, hcarries⟩
    exact ⟨ha, o, ho, hcarries.2.2⟩
  · intro hfrom
    rcases hfrom with ⟨ha, o, ho, hfrom⟩
    cases hfile : t.input? o.output with
    | none => exact absurd (hall o ho).output (input?_eq_none_iff.mp hfile)
    | some file =>
        rcases input?_eq_some_iff.mp hfile with ⟨hinput, hid⟩
        have hflow := (hmapped.flows a ⟨file, o.offset⟩).mpr
          ⟨ha, hinput, o, ho, hid.symm, rfl, hfrom⟩
        rcases hflow with ⟨outs, hentry, _⟩
        exact ⟨(a, outs), hentry, rfl⟩

/-- The map of a trace is exact.  It exists if and only if every output taint has a header
for its output and depends on labels with nodes only, whose sources have headers as well.
A byte is in the map under another one if and only if an output taint carries it there, each
input byte has one entry, and none of them is empty.  A session answers with this map or
fault whenever it is asked first, and later on without reading anything. -/
theorem byteMap_exact (t : Trace) (interval : Int) :
    ((exists m, ((t.byteMap interval).run t).2 = .ok m) <->
      forall o, o ∈ t.taints -> t.Mappable o) ∧
    (forall m, ((t.byteMap interval).run t).2 = .ok m ->
      (forall a b, (exists outs, (a, outs) ∈ m ∧ b ∈ outs) <->
        t.IsInput a.file ∧ t.IsInput b.file ∧ exists o, o ∈ t.taints ∧ t.Carries o a b) ∧
      (m.map Prod.fst).Nodup ∧ forall a outs, (a, outs) ∈ m -> outs ≠ []) ∧
    forall s : Session, s.Opens t interval -> forall before after reader,
      (s.after before).withByteMap.1 = ((t.byteMap interval).run t).2 ∧
      (((s.after before).withByteMap.2.2.after after).reading reader).withByteMap =
        (((t.byteMap interval).run t).2, [],
          ((s.after before).withByteMap.2.2.after after).reading reader) := by
  refine ⟨?_, ?_, ?_⟩
  · rcases byteMap_cases t interval with ⟨m, hok, hall, _⟩ | ⟨⟨e, herror⟩, o, ho, hbad⟩
    · exact iff_of_true ⟨m, hok⟩ hall
    · refine iff_of_false ?_ fun hall => hbad (hall o ho)
      rw [herror]
      simp
  · intro m hm
    rcases byteMap_cases t interval with ⟨m', hok, _, hmapped⟩ | ⟨⟨e, herror⟩, _⟩
    · rw [hm] at hok
      cases hok
      refine ⟨hmapped.flows, ?_, fun a outs h => (hmapped.outputs a outs h).1⟩
      rw [List.Nodup, List.pairwise_map]
      exact hmapped.ordered.imp fun h => h.ne
    · rw [hm] at herror
      cases herror
  · intro s hopens before after reader
    have hfirst := hopens.withByteMap_after before
    refine ⟨hfirst, ?_⟩
    rw [Session.withByteMap_again, hfirst]

def braid : Trace where
  headers := [⟨[0x69], 3, 1, 3⟩, ⟨[0x6f], 4, 0, 0⟩]
  labelCount := 5
  sinks := []
  taints := [⟨1, 7, 4⟩]
  decode := fun l =>
    match l.toNat with
    | 1 => .ok ⟨.source 0 0, false⟩
    | 2 => .ok ⟨.source 0 1, true⟩
    | 3 => .ok ⟨.union 4 2, false⟩
    | 4 => .ok ⟨.union 3 4, true⟩
    | _ => .error ⟨l, 4⟩

theorem byteMap_exact_braid :
    (forall o, o ∈ braid.taints -> braid.Mappable o) ∧
    (exists m, ((braid.byteMap 1000000).run braid).2 = .ok m ∧
      exists outs, (⟨⟨0, [0x69]⟩, 1⟩, outs) ∈ m ∧ ⟨⟨1, [0x6f]⟩, 7⟩ ∈ outs) ∧
    (⟨[], [], [], .default, 80, ⟨braid, some ⟨2, []⟩⟩, none, none⟩ : Session).withByteMap.1 =
      ((braid.byteMap 1000000).run braid).2 := by
  have hexact := byteMap_exact braid 1000000
  have hok : exists m, ((braid.byteMap 1000000).run braid).2 = .ok m := ⟨_, rfl⟩
  have hopens : Session.Opens ⟨[], [], [], .default, 80, ⟨braid, some ⟨2, []⟩⟩, none, none⟩
      braid 1000000 := by
    refine ⟨rfl, rfl, ?_, rfl⟩
    intro c hc
    cases hc
    rfl
  refine ⟨hexact.1.mp hok, ?_, (hexact.2.2 _ hopens [] [] ⟨braid, none⟩).1⟩
  rcases hok with ⟨m, hm⟩
  refine ⟨m, hm, ((hexact.2.1 m hm).1 _ _).mpr ?_⟩
  have hthree : Sources.Refers braid.decode 4 3 := ⟨_, rfl, by decide⟩
  have htwo : Sources.Refers braid.decode 3 2 := ⟨_, rfl, by decide⟩
  exact ⟨⟨0, _, rfl, rfl⟩, ⟨1, _, rfl, rfl⟩, _, List.mem_singleton.mpr rfl, rfl, rfl,
    ⟨2, 0, 1⟩, .head hthree (.single htwo), ⟨true, rfl⟩, rfl, rfl⟩

end Trace
end TaintTrace
