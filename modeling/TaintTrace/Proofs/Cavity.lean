import Mathlib
import TaintTrace.Flow.Cavity
import TaintTrace.Proofs.Runs
import TaintTrace.Proofs.Unhindered

/-!
# Cavities are exact

The marks of a file are described by a property of labels: a byte is marked exactly if
its label has it.  The pass over the bytes of the file adds the labels that affect
control flow, and every sink adds the sources that reach it unhindered.  What is left
are the cavities.
-/

namespace TaintTrace

namespace Header

theorem contains_iff {h : Header} {l : Label} :
    h.contains l = true <-> h.labelBegin.toNat ≤ l.toNat ∧ l.toNat < h.labelEnd.toNat := by
  rw [contains, Bool.and_eq_true, decide_eq_true_eq, decide_eq_true_eq, UInt32.le_iff_toNat_le,
    UInt32.lt_iff_toNat_lt]

theorem toNat_labelAt {h : Header} {i : Nat} (hi : i < h.length) :
    (h.labelBegin + UInt32.ofNat i).toNat = h.labelBegin.toNat + i := by
  have hend := h.labelEnd.toNat_lt
  unfold length at hi
  rw [UInt32.toNat_add, UInt32.toNat_ofNat_of_lt' (by change i < 4294967296; omega)]
  omega

theorem contains_labelAt {h : Header} {i : Nat} (hi : i < h.length) :
    h.contains (h.labelBegin + UInt32.ofNat i) = true := by
  rw [contains_iff, toNat_labelAt hi]
  unfold length at hi
  omega

end Header

def Cavity.Covers (c : Cavity) (i : Nat) : Prop :=
  c.first.toNat ≤ i ∧ i < c.stop.toNat

namespace Cavities

open Unhindered

/-!
## Marks
-/

/-- The bytes of a file whose labels have a property are marked with one, all others
with zero. -/
structure MarkedBy (h : Header) (marks : Marks) (P : Label -> Prop) : Prop where
  size : marks.size = h.length
  one : forall l, h.contains l = true -> P l ->
    marks[l.toNat - h.labelBegin.toNat]? = some 1
  zero : forall l, h.contains l = true -> ¬ P l ->
    marks[l.toNat - h.labelBegin.toNat]? = some 0

variable {h : Header} {marks : Marks} {P Q : Label -> Prop}

theorem markedBy_replicate (h : Header) :
    MarkedBy h (Array.replicate h.length 0) fun _ => False where
  size := Array.size_replicate
  one := by
    intro l _ hfalse
    cases hfalse
  zero := by
    intro l hl _
    rw [Header.contains_iff] at hl
    rw [Array.getElem?_replicate, if_pos]
    unfold Header.length
    omega

theorem MarkedBy.congr (hmarks : MarkedBy h marks P)
    (hiff : forall l, h.contains l = true -> (P l <-> Q l)) : MarkedBy h marks Q where
  size := hmarks.size
  one := fun l hl hq => hmarks.one l hl ((hiff l hl).mpr hq)
  zero := fun l hl hq => hmarks.zero l hl fun hp => hq ((hiff l hl).mp hp)

theorem MarkedBy.mark (hmarks : MarkedBy h marks P) (l : Label) :
    MarkedBy h (Cavities.mark h marks l) fun m => m = l ∨ P m := by
  unfold Cavities.mark
  split
  · rename_i hl
    have hbounds := Header.contains_iff.mp hl
    -- Two labels of the file have the same place only if they are the same.
    have hplace : forall m, h.contains m = true ->
        (l.toNat - h.labelBegin.toNat = m.toNat - h.labelBegin.toNat <-> m = l) := by
      intro m hm
      rw [Header.contains_iff] at hm
      rw [← UInt32.toNat_inj]
      omega
    have hinside : l.toNat - h.labelBegin.toNat < marks.size := by
      rw [hmarks.size]
      unfold Header.length
      omega
    constructor
    · rw [Array.size_setIfInBounds]
      exact hmarks.size
    · intro m hm hp
      rw [Array.getElem?_setIfInBounds, if_pos hinside]
      split
      · rfl
      · rename_i hne
        refine hmarks.one m hm (hp.resolve_left ?_)
        intro heq
        exact hne ((hplace m hm).mpr heq)
    · intro m hm hp
      rw [Array.getElem?_setIfInBounds, if_neg]
      · exact hmarks.zero m hm fun hp' => hp (Or.inr hp')
      · intro heq
        exact hp (Or.inl ((hplace m hm).mp heq))
  · rename_i hl
    refine hmarks.congr ?_
    intro m hm
    constructor
    · exact Or.inr
    · rintro (heq | hp)
      · rw [heq] at hm
        exact absurd hm hl
      · exact hp

theorem MarkedBy.markAll (hmarks : MarkedBy h marks P) (ls : List Label) :
    MarkedBy h (ls.foldl (Cavities.mark h) marks) fun m => m ∈ ls ∨ P m := by
  induction ls generalizing marks P with
  | nil =>
      refine hmarks.congr ?_
      intro m _
      simp
  | cons l ls ih =>
      refine (ih (hmarks.mark l)).congr ?_
      intro m _
      rw [List.mem_cons]
      tauto

theorem MarkedBy.at {i : Nat} (hmarks : MarkedBy h marks P) (hi : i < h.length) :
    (P (h.labelBegin + UInt32.ofNat i) -> marks[i]? = some 1) ∧
      (¬ P (h.labelBegin + UInt32.ofNat i) -> marks[i]? = some 0) := by
  have hplace : (h.labelBegin + UInt32.ofNat i).toNat - h.labelBegin.toNat = i := by
    rw [Header.toNat_labelAt hi]
    omega
  have hone := hmarks.one _ (Header.contains_labelAt hi)
  have hzero := hmarks.zero _ (Header.contains_labelAt hi)
  rw [hplace] at hone hzero
  exact ⟨hone, hzero⟩

theorem MarkedBy.eq_zero_iff {i : Nat} (hmarks : MarkedBy h marks P) (hi : i < h.length) :
    marks[i]? = some 0 <-> ¬ P (h.labelBegin + UInt32.ofNat i) := by
  constructor
  · intro hzero hp
    rw [(hmarks.at hi).1 hp] at hzero
    cases hzero
  · exact (hmarks.at hi).2

theorem MarkedBy.unique {marks' : Marks} (hmarks : MarkedBy h marks P)
    (hmarks' : MarkedBy h marks' P) : marks = marks' := by
  apply Array.ext_getElem?
  intro i
  by_cases hi : i < h.length
  · by_cases hp : P (h.labelBegin + UInt32.ofNat i)
    · rw [(hmarks.at hi).1 hp, (hmarks'.at hi).1 hp]
    · rw [(hmarks.at hi).2 hp, (hmarks'.at hi).2 hp]
  · rw [Array.getElem?_eq_none (by rw [hmarks.size]; omega),
      Array.getElem?_eq_none (by rw [hmarks'.size]; omega)]

/-!
## Control flow
-/

variable {nodes : Label -> Except InvalidLabel Node}

def Affects (nodes : Label -> Except InvalidLabel Node) (l : Label) : Prop :=
  exists n, nodes l = .ok n ∧ n.controlFlow = true

theorem affects_iff {l : Label} {n : Node} (hn : nodes l = .ok n) :
    Affects nodes l <-> n.controlFlow = true := by
  constructor
  · rintro ⟨n', hn', hcf⟩
    rw [hn] at hn'
    cases hn'
    exact hcf
  · intro hcf
    exact ⟨n, hn, hcf⟩

theorem MarkedBy.markAffecting {l : Label} {n : Node} (hmarks : MarkedBy h marks P)
    (hn : nodes l = .ok n) :
    MarkedBy h (if n.controlFlow then Cavities.mark h marks l else marks)
      fun m => (m = l ∧ Affects nodes m) ∨ P m := by
  split
  · rename_i hcf
    refine (hmarks.mark l).congr ?_
    intro m _
    constructor
    · rintro (rfl | hp)
      · exact Or.inl ⟨rfl, n, hn, hcf⟩
      · exact Or.inr hp
    · rintro (⟨heq, _⟩ | hp)
      · exact Or.inl heq
      · exact Or.inr hp
  · rename_i hcf
    refine hmarks.congr ?_
    intro m _
    constructor
    · exact Or.inr
    · rintro (⟨rfl, haffects⟩ | hp)
      · exact absurd ((affects_iff hn).mp haffects) hcf
      · exact hp

theorem markControlFlow_ok (count label : Nat) (marks marks' : Marks) (P : Label -> Prop)
    (hrange : label + count ≤ Label.total) (hmarks : MarkedBy h marks P)
    (hok : (markControlFlow h count label marks).answer nodes = .ok marks') :
    (forall m : Label, label ≤ m.toNat -> m.toNat < label + count -> exists n, nodes m = .ok n) ∧
      MarkedBy h marks' fun m =>
        (label ≤ m.toNat ∧ m.toNat < label + count ∧ Affects nodes m) ∨ P m := by
  induction count generalizing label marks P with
  | zero =>
      cases hok
      refine ⟨fun m hlow hhigh => by omega, hmarks.congr ?_⟩
      intro m _
      constructor
      · exact Or.inr
      · rintro (⟨hlow, hhigh, _⟩ | hp)
        · omega
        · exact hp
  | succ count ih =>
      have hlabel : (UInt32.ofNat label).toNat = label := UInt32.toNat_ofNat_of_lt' (by
        change label < 4294967296
        unfold Label.total at hrange
        omega)
      have hsplit : forall m : Label, label ≤ m.toNat -> m = UInt32.ofNat label ∨
          label + 1 ≤ m.toNat := by
        intro m hlow
        rw [← UInt32.toNat_inj, hlabel]
        omega
      rw [markControlFlow, Lookup.answer_decode] at hok
      cases hn : nodes (UInt32.ofNat label) with
      | error e =>
          rw [hn] at hok
          cases hok
      | ok n =>
          rw [hn] at hok
          have hrest := ih (label + 1) _ _ (by omega) (hmarks.markAffecting hn) hok
          constructor
          · intro m hlow hhigh
            rcases hsplit m hlow with rfl | hlow
            · exact ⟨n, hn⟩
            · exact hrest.1 m hlow (by omega)
          · refine hrest.2.congr ?_
            intro m _
            constructor
            · rintro (⟨hlow, hhigh, haffects⟩ | ⟨rfl, haffects⟩ | hp)
              · exact Or.inl ⟨by omega, by omega, haffects⟩
              · exact Or.inl ⟨by omega, by omega, haffects⟩
              · exact Or.inr hp
            · rintro (⟨hlow, hhigh, haffects⟩ | hp)
              · rcases hsplit m hlow with heq | hlow
                · exact Or.inr (Or.inl ⟨heq, haffects⟩)
                · exact Or.inl ⟨hlow, by omega, haffects⟩
              · exact Or.inr (Or.inr hp)

/-!
## Flows to sinks

A sink adds the open sources that it reaches.  The set of seen labels is shared by all
sinks; every open source in it is marked already, so leaving it out of later searches
loses nothing.
-/

/-- The open sources that a sink of a list reaches. -/
def FlowsTo (nodes : Label -> Except InvalidLabel Node) (sinks : List Sink) (m : Label) : Prop :=
  OpenSource nodes m ∧ exists s, s ∈ sinks ∧ Reaches nodes s.label m

theorem reaches_iff_of_not_leads {l m : Label} (h : forall c, ¬ Leads nodes l c) :
    Reaches nodes l m <-> m = l := by
  constructor
  · intro hm
    rcases Relation.ReflTransGen.cases_head hm with heq | ⟨c, hc, _⟩
    · exact heq.symm
    · exact absurd hc (h c)
  · rintro rfl
    exact Relation.ReflTransGen.refl

theorem flowsTo_nil_or_iff {m : Label} : FlowsTo nodes [] m ∨ P m <-> P m := by
  simp [FlowsTo]

theorem flowsTo_cons_or_iff {s : Sink} {sinks : List Sink} {m : Label} :
    FlowsTo nodes (s :: sinks) m ∨ P m <->
      FlowsTo nodes sinks m ∨ (OpenSource nodes m ∧ Reaches nodes s.label m) ∨ P m := by
  rw [FlowsTo, FlowsTo, List.exists_mem_cons_iff, and_or_left, or_assoc, or_left_comm]

theorem not_flowsTo_or_affects_iff {l : Label} {n : Node} {sinks : List Sink}
    (hn : nodes l = .ok n) :
    ¬ (FlowsTo nodes sinks l ∨ Affects nodes l) <->
      n.controlFlow = false ∧
        ¬ (n.isSource = true ∧ exists s, s ∈ sinks ∧ Reaches nodes s.label l) := by
  rw [not_or, and_comm, affects_iff hn, Bool.not_eq_true]
  refine and_congr_right fun hcf => not_congr ?_
  constructor
  · rintro ⟨⟨n', hn', _, hsource⟩, hsink⟩
    rw [hn] at hn'
    cases hn'
    exact ⟨hsource, hsink⟩
  · rintro ⟨hsource, hsink⟩
    exact ⟨⟨n, hn, hcf, hsource⟩, hsink⟩

theorem MarkedBy.affectingSink {l : Label} {n : Node} (hmarks : MarkedBy h marks P)
    (hn : nodes l = .ok n) (hcf : n.controlFlow = true) :
    MarkedBy h marks fun m => (OpenSource nodes m ∧ Reaches nodes l m) ∨ P m := by
  refine hmarks.congr ?_
  intro m _
  rw [reaches_iff_of_not_leads fun c => not_leads_of_controlFlow hn hcf]
  constructor
  · exact Or.inr
  · rintro (⟨hopen, rfl⟩ | hp)
    · exact absurd hopen (not_openSource hn (Or.inl hcf))
    · exact hp

theorem MarkedBy.sourceSink {l : Label} {n : Node} (hmarks : MarkedBy h marks P)
    (hn : nodes l = .ok n) (hcf : n.controlFlow = false) (hsource : n.isSource = true) :
    MarkedBy h (Cavities.mark h marks l)
      fun m => (OpenSource nodes m ∧ Reaches nodes l m) ∨ P m := by
  refine (hmarks.mark l).congr ?_
  intro m _
  rw [reaches_iff_of_not_leads fun c => not_leads_of_isSource hn hsource]
  constructor
  · rintro (rfl | hp)
    · exact Or.inl ⟨⟨n, hn, hcf, hsource⟩, rfl⟩
    · exact Or.inr hp
  · rintro (⟨_, heq⟩ | hp)
    · exact Or.inl heq
    · exact Or.inr hp

theorem MarkedBy.search {l : Label} {old : LabelSet} {found : UnhinderedSources}
    (hmarks : MarkedBy h marks P) (hfound : Complete nodes old l found)
    (hold : forall m, old.has m = true -> OpenSource nodes m -> P m) :
    MarkedBy h (found.yielded.foldl (Cavities.mark h) marks)
      fun m => (OpenSource nodes m ∧ Reaches nodes l m) ∨ P m := by
  refine (hmarks.markAll found.yielded).congr ?_
  intro m _
  rw [hfound.yields]
  constructor
  · rintro (⟨_, hreaches, hopen⟩ | hp)
    · exact Or.inl ⟨hopen, hreaches⟩
    · exact Or.inr hp
  · rintro (⟨hopen, hreaches⟩ | hp)
    · cases hm : old.has m with
      | false => exact Or.inl ⟨rfl, hreaches, hopen⟩
      | true => exact Or.inr (hold m hm hopen)
    · exact Or.inr hp

theorem not_stuck_of_not_leads {l : Label} {n : Node} (hn : nodes l = .ok n)
    (hleads : forall c, ¬ Leads nodes l c) (old : LabelSet) (e : InvalidLabel) :
    ¬ Stuck nodes old l e := by
  rintro ⟨m, hm, _, he⟩
  rw [(reaches_iff_of_not_leads hleads).mp hm, hn] at he
  cases he

theorem markFlows_ok (sinks : List Sink) (index begun : Nat) (seen : LabelSet)
    (marks marks' : Marks) (P : Label -> Prop) (hsettled : Settled nodes seen)
    (hseen : forall m, seen.has m = true -> OpenSource nodes m -> P m)
    (hmarks : MarkedBy h marks P)
    (hok : (markFlows h index sinks seen marks).answer nodes = (begun, .ok marks')) :
    MarkedBy h marks' (fun m => FlowsTo nodes sinks m ∨ P m) ∧
      forall s, s ∈ sinks -> forall old e, ¬ Stuck nodes old s.label e := by
  induction sinks generalizing index seen marks P with
  | nil =>
      cases hok
      refine ⟨hmarks.congr fun m _ => flowsTo_nil_or_iff.symm, ?_⟩
      intro s hs
      cases hs
  | cons s sinks ih =>
      have hnext : forall seen' marks'', Settled nodes seen' ->
          (forall m, seen'.has m = true -> OpenSource nodes m ->
            (OpenSource nodes m ∧ Reaches nodes s.label m) ∨ P m) ->
          MarkedBy h marks'' (fun m => (OpenSource nodes m ∧ Reaches nodes s.label m) ∨ P m) ->
          (forall old e, ¬ Stuck nodes old s.label e) ->
          (markFlows h (index + 1) sinks seen' marks'').answer nodes = (begun, .ok marks') ->
          MarkedBy h marks' (fun m => FlowsTo nodes (s :: sinks) m ∨ P m) ∧
            forall s', s' ∈ s :: sinks -> forall old e, ¬ Stuck nodes old s'.label e := by
        intro seen' marks'' hsettled' hseen' hmarks'' hs hok'
        have hrest := ih (index + 1) seen' marks'' _ hsettled' hseen' hmarks'' hok'
        refine ⟨hrest.1.congr fun m _ => flowsTo_cons_or_iff.symm, ?_⟩
        intro s' hs'
        rcases List.mem_cons.mp hs' with rfl | hs'
        · exact hs
        · exact hrest.2 s' hs'
      rw [markFlows, Lookup.answer_decode] at hok
      cases hn : nodes s.label with
      | error e =>
          rw [hn] at hok
          cases hok
      | ok n =>
          rw [hn] at hok
          dsimp only at hok
          split at hok
          · rename_i hcf
            exact hnext seen marks hsettled (fun m hm hopen => Or.inr (hseen m hm hopen))
              (hmarks.affectingSink hn hcf)
              (not_stuck_of_not_leads hn fun c => not_leads_of_controlFlow hn hcf) hok
          · rename_i hcf
            rw [Bool.not_eq_true] at hcf
            split at hok
            · rename_i hsource
              exact hnext seen _ hsettled (fun m hm hopen => Or.inr (hseen m hm hopen))
                (hmarks.sourceSink hn hcf hsource)
                (not_stuck_of_not_leads hn fun c => not_leads_of_isSource hn hsource) hok
            · rw [Lookup.answer_bind] at hok
              rcases unhinderedSources_cases hsettled s.label with
                ⟨hfault, hfound⟩ | ⟨e, hfault, _⟩
              · rw [hfault] at hok
                refine hnext _ _ hfound.settled ?_ (hmarks.search hfound hseen)
                  hfound.not_stuck hok
                intro m hm hopen
                rcases (hfound.seen m).mp hm with hm | hm
                · exact Or.inr (hseen m hm hopen)
                · exact Or.inl ⟨hopen, hm⟩
              · rw [hfault] at hok
                cases hok

/-!
## Sinks apart

The plain way to mark flows explores every sink with a set of its own.
-/

/-- Mark the bytes that flow to sinks, every sink explored on its own. -/
def markFlowsApart (h : Header) : List Sink -> Marks -> Lookup (Except Fault Marks)
  | [], marks => .done (.ok marks)
  | s :: sinks, marks =>
      (Lookup.unhinderedSources s.label LabelSet.empty).bind fun found =>
        match found.fault with
        | some e => .done (.error e)
        | none => markFlowsApart h sinks (found.yielded.foldl (mark h) marks)

/-- The cavities of a file, every sink explored on its own. -/
def ofHeaderApart (t : Trace) (h : Header) : Lookup (Except Fault (List Cavity)) :=
  (markControlFlow h h.length h.labelBegin.toNat (Array.replicate h.length 0)).bind fun
    | .error e => .done (.error (.within .controlFlowPass (.invalidLabel e)))
    | .ok marks =>
        (markFlowsApart h t.sinks marks).bind fun outcome =>
          .done (outcome.map (ofMarks false h))

theorem markFlowsApart_ok (sinks : List Sink) (marks : Marks) (P : Label -> Prop)
    (hmarks : MarkedBy h marks P)
    (hsinks : forall s, s ∈ sinks -> forall old e, ¬ Stuck nodes old s.label e) :
    exists marks', (markFlowsApart h sinks marks).answer nodes = .ok marks' ∧
      MarkedBy h marks' fun m => FlowsTo nodes sinks m ∨ P m := by
  induction sinks generalizing marks P with
  | nil => exact ⟨marks, rfl, hmarks.congr fun m _ => flowsTo_nil_or_iff.symm⟩
  | cons s sinks ih =>
      rw [markFlowsApart, Lookup.answer_bind]
      rcases unhinderedSources_cases (settled_of_forall_not_has LabelSet.has_empty) s.label with
        ⟨hfault, hfound⟩ | ⟨e, _, hstuck⟩
      · rw [hfault]
        have hmarks' := hmarks.search hfound (by simp)
        rcases ih _ _ hmarks' (fun s' hs' => hsinks s' (List.mem_cons_of_mem s hs')) with
          ⟨marks', hok, hrest⟩
        exact ⟨marks', hok, hrest.congr fun m _ => flowsTo_cons_or_iff.symm⟩
      · exact absurd hstuck (hsinks s List.mem_cons_self _ e)

/-!
## Cavities
-/

/-- A search for the cavities of a file that succeeds went through both passes. -/
theorem ofHeader_ok {t : Trace} {options : CavityOptions} {cs : List Cavity}
    (hlength : h.length ≠ 0) (hok : ((ofHeader t options h).run t).2 = .ok cs) :
    exists marks begun flows,
      (markControlFlow h h.length h.labelBegin.toNat
        (Array.replicate h.length 0)).answer t.decode = .ok marks ∧
      (markFlows h 0 t.sinks (LabelSet.withRoom t.labelCount) marks).answer t.decode =
        (begun, .ok flows) ∧
      cs = ofMarks options.legacyTrailing h flows := by
  rw [Lookup.run, ofHeader, if_neg hlength] at hok
  split at hok
  · cases hok
  · rw [Lookup.answer_bind] at hok
    rcases hmarks : (markControlFlow h h.length h.labelBegin.toNat
        (Array.replicate h.length 0)).answer t.decode with e | marks
    · rw [hmarks] at hok
      cases hok
    · rw [hmarks, Lookup.answer_bind] at hok
      rcases hflows : (markFlows h 0 t.sinks (LabelSet.withRoom t.labelCount) marks).answer
          t.decode with ⟨begun, e | flows⟩
      · rw [hflows] at hok
        cases hok
      · rw [hflows] at hok
        cases hok
        exact ⟨marks, begun, flows, rfl, hflows, rfl⟩

theorem markControlFlow_header_ok {marks : Marks}
    (hok : (markControlFlow h h.length h.labelBegin.toNat
      (Array.replicate h.length 0)).answer nodes = .ok marks) :
    (forall m, h.contains m = true -> exists n, nodes m = .ok n) ∧
      MarkedBy h marks (Affects nodes) := by
  have hbegin := h.labelBegin.toNat_lt
  have hend := h.labelEnd.toNat_lt
  have hlength : h.length = h.labelEnd.toNat - h.labelBegin.toNat := rfl
  have hrange : h.labelBegin.toNat + h.length ≤ Label.total := by
    unfold Label.total
    omega
  have hpass := markControlFlow_ok h.length h.labelBegin.toNat _ _ _ hrange
    (markedBy_replicate h) hok
  constructor
  · intro m hm
    rw [Header.contains_iff] at hm
    exact hpass.1 m hm.1 (by omega)
  · refine hpass.2.congr ?_
    intro m hm
    rw [Header.contains_iff] at hm
    constructor
    · rintro (⟨_, _, haffects⟩ | hfalse)
      · exact haffects
      · cases hfalse
    · intro haffects
      exact Or.inl ⟨hm.1, by omega, haffects⟩

theorem length_lt_size (h : Header) : h.length < UInt64.size := by
  have hend := h.labelEnd.toNat_lt
  unfold Header.length
  change _ < 18446744073709551616
  omega

theorem ofMarks_covers (hsize : marks.size = h.length) (i : Nat) :
    (exists c, c ∈ ofMarks false h marks ∧ c.Covers i) <-> marks[i]? = some 0 := by
  have hruns := Runs.zeroRuns_covers marks.toList
    (by rw [Array.length_toList, hsize]; exact length_lt_size h) i
  rw [Array.getElem?_toList] at hruns
  rw [← hruns]
  constructor
  · rintro ⟨c, hc, hi⟩
    rcases List.mem_map.mp hc with ⟨r, hr, rfl⟩
    exact ⟨r, hr, hi⟩
  · rintro ⟨r, hr, hi⟩
    exact ⟨⟨h.name, r.first, r.stop⟩, List.mem_map.mpr ⟨r, hr, rfl⟩, hi⟩

theorem ofMarks_separated (hsize : marks.size = h.length) :
    (forall c, c ∈ ofMarks false h marks ->
      c.path = h.name ∧ c.first.toNat < c.stop.toNat ∧ c.stop.toNat ≤ h.length) ∧
    (ofMarks false h marks).Pairwise fun a b => a.stop.toNat < b.first.toNat := by
  have hruns := Runs.zeroRuns_separated marks.toList
    (by rw [Array.length_toList, hsize]; exact length_lt_size h)
  rw [Array.length_toList, hsize] at hruns
  constructor
  · intro c hc
    rcases List.mem_map.mp hc with ⟨r, hr, rfl⟩
    exact ⟨rfl, hruns.nonempty r hr, hruns.upper r hr⟩
  · exact List.pairwise_map.mpr hruns.gaps

/-- A search that shares one set of seen labels between all sinks of a file is exact: the
cavities cover a byte if and only if its label neither affects control flow nor is a
source that some sink reaches.  They are in order and apart from one another, and
exploring every sink on its own gives the same cavities. -/
theorem ofHeader_exact (t : Trace) (options : CavityOptions) (h : Header) (cs : List Cavity)
    (hlength : h.length ≠ 0) (hlegacy : options.legacyTrailing = false)
    (hok : ((ofHeader t options h).run t).2 = .ok cs) :
    (forall i, i < h.length ->
      ((exists c, c ∈ cs ∧ c.Covers i) <->
        exists n, t.decode (h.labelBegin + UInt32.ofNat i) = .ok n ∧ n.controlFlow = false ∧
          ¬ (n.isSource = true ∧ exists s, s ∈ t.sinks ∧
            Reaches t.decode s.label (h.labelBegin + UInt32.ofNat i)))) ∧
    (forall c, c ∈ cs ->
      c.path = h.name ∧ c.first.toNat < c.stop.toNat ∧ c.stop.toNat ≤ h.length) ∧
    cs.Pairwise (fun a b => a.stop.toNat < b.first.toNat) ∧
    (ofHeaderApart t h).run t = .ok cs := by
  rcases ofHeader_ok hlength hok with ⟨marks, begun, flows, hmarks, hflows, hcs⟩
  rw [hlegacy] at hcs
  subst hcs
  rcases markControlFlow_header_ok hmarks with ⟨hdecodes, haffecting⟩
  rcases markFlows_ok t.sinks 0 begun _ marks flows _
      (settled_of_forall_not_has (LabelSet.has_withRoom t.labelCount)) (by simp) haffecting
      hflows with ⟨hmarked, hsinks⟩
  refine ⟨?_, (ofMarks_separated hmarked.size).1, (ofMarks_separated hmarked.size).2, ?_⟩
  · intro i hi
    rcases hdecodes _ (Header.contains_labelAt hi) with ⟨n, hn⟩
    rw [ofMarks_covers hmarked.size, hmarked.eq_zero_iff hi, not_flowsTo_or_affects_iff hn]
    constructor
    · intro hfree
      exact ⟨n, hn, hfree⟩
    · rintro ⟨n', hn', hfree⟩
      rw [hn] at hn'
      cases hn'
      exact hfree
  · rcases markFlowsApart_ok t.sinks marks _ haffecting hsinks with ⟨apart, hapart, hmarkedApart⟩
    rw [hmarked.unique hmarkedApart, ofHeaderApart, Lookup.run, Lookup.answer_bind, hmarks,
      Lookup.answer_bind, hapart]
    rfl

/-- A file of four bytes.  Its second byte affects control flow; the first and the last
one flow to the sinks through two nodes that refer to each other. -/
def knot : Trace where
  headers := [⟨[0x66], 3, 1, 5⟩]
  labelCount := 7
  sinks := [⟨6, 0, 1⟩, ⟨5, 1, 1⟩, ⟨6, 2, 1⟩]
  taints := []
  decode := fun l =>
    match l.toNat with
    | 1 => .ok ⟨.source 0 0, false⟩
    | 2 => .ok ⟨.source 0 1, true⟩
    | 3 => .ok ⟨.source 0 2, false⟩
    | 4 => .ok ⟨.source 0 3, false⟩
    | 5 => .ok ⟨.union 6 4, false⟩
    | 6 => .ok ⟨.union 5 1, false⟩
    | _ => .error ⟨l, 6⟩

theorem ofHeader_exact_knot :
    ((ofHeader knot ⟨fun _ => true, false, 0⟩ ⟨[0x66], 3, 1, 5⟩).run knot).2 =
      .ok [⟨[0x66], 2, 3⟩] ∧
    (¬ exists s, s ∈ knot.sinks ∧ Reaches knot.decode s.label 3) ∧
    (ofHeaderApart knot ⟨[0x66], 3, 1, 5⟩).run knot = .ok [⟨[0x66], 2, 3⟩] := by
  have hok : ((ofHeader knot ⟨fun _ => true, false, 0⟩ ⟨[0x66], 3, 1, 5⟩).run knot).2 =
      .ok [⟨[0x66], 2, 3⟩] := rfl
  have hexact := ofHeader_exact knot _ _ _ (by decide) rfl hok
  refine ⟨hok, ?_, hexact.2.2.2⟩
  have hcovered := (hexact.1 2 (by decide)).mp
    ⟨⟨[0x66], 2, 3⟩, List.mem_singleton.mpr rfl, by decide, by decide⟩
  rcases hcovered with ⟨n, hn, _, hfree⟩
  cases hn
  intro hsink
  exact hfree ⟨rfl, hsink⟩

end Cavities
end TaintTrace
