import Mathlib
import TaintTrace.Proofs.Agreement
import TaintTrace.Proofs.Ancestry
import TaintTrace.Proofs.BreadthFirst
import TaintTrace.Proofs.Image
import TaintTrace.Proofs.TraceCycle

/-!
# What a trace without problems is good for

In a trace without problems nodes refer to smaller labels that have nodes again.  So there
are no cycles, and searches that follow nodes from any label of the trace succeed.  The labels
that headers set aside are not compared with those of the trace, and the search for cavities
looks at all of them: it succeeds if and only if they have nodes.
-/

namespace TaintTrace

/-!
## Searches among labels that have nodes
-/

namespace Lookup

/-- Whether all labels with a property have nodes, which refer only to labels with that
property. -/
def ClosedUnder (nodes : Label -> Except InvalidLabel Node) (P : Label -> Prop) : Prop :=
  forall l, P l -> exists n, nodes l = .ok n ∧ forall c, c ∈ n.children -> P c

variable {nodes : Label -> Except InvalidLabel Node} {P : Label -> Prop} {l m : Label}

namespace ClosedUnder

theorem of_depends (h : ClosedUnder nodes P) (hl : P l) (hm : Sources.Depends nodes l m) : P m := by
  induction hm with
  | refl => exact hl
  | @tail a b _ hrefers ha =>
      rcases hrefers with ⟨n, hn, hb⟩
      rcases h a ha with ⟨n', hn', hchildren⟩
      rw [hn] at hn'
      cases hn'
      exact hchildren b hb

theorem decodes (h : ClosedUnder nodes P) (hl : P l) (hm : Sources.Depends nodes l m) :
    exists n, nodes m = .ok n := by
  rcases h m (h.of_depends hl hm) with ⟨n, hn, _⟩
  exact ⟨n, hn⟩

theorem sources_succeed (h : ClosedUnder nodes P) (hl : P l) :
    ((sources l).answer nodes).2 = none := by
  rw [Sources.fault_eq_none_iff]
  intro m hm
  exact h.decodes hl hm

theorem unhinderedSources_succeed (h : ClosedUnder nodes P) (hl : P l) {seen : LabelSet}
    (hseen : forall m, seen.has m = false) :
    ((unhinderedSources l seen).answer nodes).fault = none := by
  rcases Unhindered.unhinderedSources_cases (Unhindered.settled_of_forall_not_has hseen) l with
    ⟨hfault, _⟩ | ⟨e, _, m, hm, _, he⟩
  · exact hfault
  · rcases h.decodes hl (Recording.depends_of_reaches hm) with ⟨n, hn⟩
    rw [he] at hn
    cases hn

theorem ancestry_succeeds (h : ClosedUnder nodes P) (hl : P l) (limit : Int) :
    exists a, (ancestry l limit).answer nodes = .ok a := by
  refine Ancestry.exists_ok_of_decodes ?_ limit
  intro m hm
  exact h.decodes hl hm

theorem labelTree_succeeds (h : ClosedUnder nodes P) (hl : P l) (depth maxNodes : Int) :
    exists tree, (labelTree l depth maxNodes).answer nodes = .ok tree := by
  rcases LabelTree.labelTree_agrees (fun m hm => h.decodes hl hm) depth maxNodes with
    ⟨tree, complete, hanswer, _⟩
  exact ⟨(tree, complete), hanswer⟩

end ClosedUnder
end Lookup

/-!
## Consistent traces
-/

namespace Trace
namespace Consistent

variable {t : Trace} {l m : Label}

theorem closedUnder (h : t.Consistent) : Lookup.ClosedUnder t.decode t.HasLabel := by
  intro l hl
  rcases h.nodes l hl.mem_labels with ⟨n, hn, hfits⟩
  refine ⟨n, hn, ?_⟩
  intro c hc
  rcases hfits.children c hc with ⟨hzero, hlt⟩
  exact ⟨hzero, (UInt32.lt_iff_toNat_lt.mp hlt).trans hl.2⟩

theorem lt_of_refers (h : t.Consistent) (hrefers : t.Refers l m) : m < l := by
  rcases hrefers with ⟨hl, ⟨n, hn, hm⟩, _⟩
  rcases h.nodes l (HasLabel.mem_labels hl) with ⟨n', hn', hfits⟩
  rw [hn] at hn'
  cases hn'
  exact (hfits.children m hm).2

theorem not_onCycle (h : t.Consistent) (l : Label) : ¬ t.OnCycle l := by
  have hsmaller : forall a b, Relation.TransGen t.Refers a b -> b < a := by
    intro a b hab
    induction hab with
    | single hrefers => exact h.lt_of_refers hrefers
    | tail _ hrefers ih => exact UInt32.lt_trans (h.lt_of_refers hrefers) ih
  intro hl
  exact UInt32.lt_irrefl l (hsmaller l l hl)

theorem mappable (h : t.Consistent) {o : OutputTaint} (ho : o ∈ t.taints) : t.Mappable o := by
  rcases h.taints o ho with ⟨hlabel, houtput⟩
  refine ⟨houtput, fun m hm => h.closedUnder.decodes hlabel hm, ?_⟩
  rintro s hdepends ⟨affects, hdecode⟩
  rcases h.nodes s.label (h.closedUnder.of_depends hlabel hdepends).mem_labels with
    ⟨n, hn, hfits⟩
  rw [hdecode] at hn
  cases hn
  exact hfits.file s.file s.offset rfl

theorem byteMap_succeeds (h : t.Consistent) (interval : Int) :
    exists m, ((t.byteMap interval).run t).2 = .ok m := by
  rcases byteMap_cases t interval with ⟨m, hm, _⟩ | ⟨_, o, ho, hbad⟩
  · exact ⟨m, hm⟩
  · exact absurd (h.mappable ho) hbad

end Consistent
end Trace

/-!
## Cavities of all files
-/

namespace Cavities

variable {t : Trace} {options : CavityOptions} {h : Header}

theorem choose_eq_search_iff :
    choose options h = .search <-> 0 < h.length ∧ options.selects h.name = true := by
  unfold choose
  by_cases hlength : h.length = 0
  · simp [hlength]
  · rw [if_neg hlength]
    by_cases hselects : options.selects h.name = true
    · simp [hselects, Nat.pos_of_ne_zero hlength]
    · simp [hselects]

theorem ofHeaders_ok_iff (hs : List Header) (log : Log) (found : Except Fault (List Cavity)) :
    (exists cs, ((ofHeaders t options hs log found).run t).2 = .ok cs) <->
      (exists cs, found = .ok cs) ∧ forall h, h ∈ hs -> choose options h = .search ->
        exists cs, ((ofHeader t options h).run t).2 = .ok cs := by
  induction hs generalizing log found with
  | nil => simp [ofHeaders, Lookup.run]
  | cons h hs ih =>
      rw [ofHeaders, List.forall_mem_cons]
      cases hchoice : choose options h with
      | skip message =>
          rw [ih]
          simp
      | search =>
          dsimp only
          rw [Lookup.run_bind, ih]
          rcases (ofHeader t options h).run t with ⟨messages, outcome⟩
          cases found <;> cases outcome <;> simp

def alone (t : Trace) (options : CavityOptions) (h : Header) : Except Fault (List Cavity) :=
  ((ofHeader t options h).run t).2

def contribution (t : Trace) (options : CavityOptions) (h : Header) : List Cavity :=
  match choose options h, alone t options h with
  | .search, .ok cs => cs
  | _, _ => []

theorem contribution_eq_nil_of_skip {h : Header} {message : Message}
    (hchoice : choose options h = .skip message) : contribution t options h = [] := by
  unfold contribution
  rw [hchoice]

theorem contribution_eq_of_ok {h : Header} {cs : List Cavity}
    (hchoice : choose options h = .search) (halone : alone t options h = .ok cs) :
    contribution t options h = cs := by
  unfold contribution
  rw [hchoice, halone]

theorem contribution_eq_nil_of_error {h : Header} {e : Fault}
    (halone : alone t options h = .error e) : contribution t options h = [] := by
  unfold contribution
  rw [halone]
  cases choose options h <;> rfl

theorem ofHeaders_eq_ok {hs : List Header} {log : Log} {found cs : List Cavity}
    (hok : ((ofHeaders t options hs log (.ok found)).run t).2 = .ok cs) :
    cs = found ++ (hs.map (contribution t options)).flatten := by
  induction hs generalizing log found with
  | nil =>
      cases hok
      exact (List.append_nil cs).symm
  | cons h hs ih =>
      rw [List.map_cons, List.flatten_cons]
      rw [ofHeaders] at hok
      cases hchoice : choose options h with
      | skip message =>
          rw [hchoice] at hok
          rw [contribution_eq_nil_of_skip hchoice]
          exact ih hok
      | search =>
          rw [hchoice] at hok
          dsimp only at hok
          rw [Lookup.run_bind] at hok
          cases halone : alone t options h with
          | error e =>
              unfold alone at halone
              rw [halone] at hok
              rcases (ofHeaders_ok_iff hs _ _).mp ⟨cs, hok⟩ with ⟨⟨_, hfound⟩, _⟩
              cases hfound
          | ok more =>
              rw [contribution_eq_of_ok hchoice halone, ← List.append_assoc]
              unfold alone at halone
              rw [halone] at hok
              exact ih hok

theorem cavities_eq_ok_iff {cs : List Cavity} :
    ((t.cavities options).run t).2 = .ok cs <->
      (forall h, h ∈ t.headers -> choose options h = .search ->
        exists part, alone t options h = .ok part) ∧
      cs = (t.headers.map (contribution t options)).flatten := by
  have hiff : (exists cs, ((t.cavities options).run t).2 = .ok cs) <-> _ :=
    ofHeaders_ok_iff t.headers [] (.ok [])
  rw [and_iff_right ⟨[], rfl⟩] at hiff
  constructor
  · intro hok
    exact ⟨hiff.mp ⟨cs, hok⟩, ofHeaders_eq_ok hok⟩
  · intro hall
    rcases hiff.mpr hall.1 with ⟨cs', hok⟩
    rw [hall.2, ← List.nil_append (List.flatten _), ← ofHeaders_eq_ok hok]
    exact hok

theorem labelEnd_le_of_ofHeader_ok {cs : List Cavity} (hlength : h.length ≠ 0)
    (hok : ((ofHeader t options h).run t).2 = .ok cs) : h.labelEnd.toNat ≤ t.labelCount := by
  by_contra hbeyond
  rw [Lookup.run, ofHeader, if_neg hlength, if_pos (Nat.not_le.mp hbeyond)] at hok
  cases hok

end Cavities

namespace Trace

variable {t : Trace}

/-- The labels of a file all have nodes if they are labels of the trace; label zero is not
one of those. -/
theorem Consistent.ofHeader_ok_iff (ht : t.Consistent) (options : CavityOptions) {h : Header}
    (hlength : 0 < h.length) :
    (exists cs, ((Cavities.ofHeader t options h).run t).2 = .ok cs) <->
      h.labelEnd.toNat ≤ t.labelCount ∧ (h.labelBegin = 0 -> exists n, t.decode 0 = .ok n) := by
  constructor
  · rintro ⟨cs, hok⟩
    refine ⟨Cavities.labelEnd_le_of_ofHeader_ok hlength.ne' hok, ?_⟩
    intro hzero
    rcases Cavities.ofHeader_ok hlength.ne' hok with ⟨marks, _, _, hmarks, _⟩
    refine (Cavities.markControlFlow_header_ok hmarks).1 0 ?_
    rw [Header.length, hzero] at hlength
    rw [Header.contains_iff, hzero]
    exact ⟨Nat.le_refl _, by simpa using hlength⟩
  · rintro ⟨hend, hzero⟩
    refine Cavities.ofHeader_succeeds options hend ?_ ?_
    · intro m hm
      rw [Header.contains_iff] at hm
      by_cases hm0 : m = 0
      · subst hm0
        exact hzero (UInt32.toNat_inj.mp (Nat.le_zero.mp hm.1))
      · have hlabel : t.HasLabel m := ⟨hm0, hm.2.trans_le hend⟩
        exact ht.closedUnder.decodes hlabel .refl
    · intro s hs m hm
      exact ht.closedUnder.decodes (ht.sinks s hs).1 (Recording.depends_of_reaches hm)

theorem Consistent.cavities_ok_iff (ht : t.Consistent) {options : CavityOptions} :
    (exists cs, ((t.cavities options).run t).2 = .ok cs) <->
      forall h, h ∈ t.headers -> 0 < h.length -> options.selects h.name = true ->
        h.labelEnd.toNat ≤ t.labelCount ∧
          (h.labelBegin = 0 -> exists n, t.decode 0 = .ok n) := by
  rw [cavities, Cavities.ofHeaders_ok_iff, and_iff_right ⟨[], rfl⟩]
  refine forall_congr' fun h => forall_congr' fun _ => ?_
  rw [Cavities.choose_eq_search_iff]
  constructor
  · intro hok hlength hselects
    exact (ht.ofHeader_ok_iff options hlength).mp (hok ⟨hlength, hselects⟩)
  · rintro hinside ⟨hlength, hselects⟩
    exact (ht.ofHeader_ok_iff options hlength).mpr (hinside hlength hselects)

/-!
## Main results
-/

/-- A trace without problems has no cycles, and from each of its labels all searches that
follow nodes succeed, whatever their limits are. -/
theorem searches_succeed_of_no_problems (t : Trace) (hcheck : (t.problems 0).run t = []) :
    (forall limit, (t.cycles limit).run t = []) ∧
    (forall interval, exists m, ((t.byteMap interval).run t).2 = .ok m) ∧
    forall l : Label, l ≠ 0 -> l.toNat < t.labelCount ->
      ((Lookup.sources l).run t).2 = none ∧
      (forall seen : LabelSet, (forall m, seen.has m = false) ->
        ((Lookup.unhinderedSources l seen).run t).fault = none) ∧
      (forall limit, exists a, (Lookup.ancestry l limit).run t = .ok a) ∧
      forall depth maxNodes, exists tree, (Lookup.labelTree l depth maxNodes).run t = .ok tree := by
  have ht : t.Consistent := Validity.problems_eq_nil_iff.mp hcheck
  refine ⟨fun limit => (cycles_eq_nil_iff t limit).mpr ht.not_onCycle, ht.byteMap_succeeds, ?_⟩
  intro l hzero hlt
  have hl : t.HasLabel l := ⟨hzero, hlt⟩
  exact ⟨ht.closedUnder.sources_succeed hl,
    fun seen hseen => ht.closedUnder.unhinderedSources_succeed hl hseen,
    ht.closedUnder.ancestry_succeeds hl, ht.closedUnder.labelTree_succeeds hl⟩

/-- Three labels, of which two are bytes of a file whose header claims eight. -/
def overhang : Recording where
  headers := #[⟨"in", 3, 1, 9⟩]
  words := #[0, 0x8000000000000000, 0x8000000000000001, 0x100000001]
  sinks := #[⟨3, 0, 0⟩]
  taints := #[⟨0, 0, 3⟩]

theorem problems_overhang : (overhang.trace.problems 0).run overhang.trace = [] := by
  decide +kernel

theorem searches_succeed_of_no_problems_overhang :
    (overhang.trace.problems 0).run overhang.trace = [] ∧
      (overhang.trace.cycles 1).run overhang.trace = [] ∧
      (exists m, ((overhang.trace.byteMap 0).run overhang.trace).2 = .ok m) ∧
      (exists a, (Lookup.ancestry 3 2).run overhang.trace = .ok a) ∧
      exists tree, (Lookup.labelTree 3 9 2).run overhang.trace = .ok tree := by
  rcases searches_succeed_of_no_problems overhang.trace problems_overhang with
    ⟨hcycles, hmap, hlabels⟩
  rcases hlabels 3 (by decide) (by decide) with ⟨_, _, hancestry, htree⟩
  exact ⟨problems_overhang, hcycles 1, hmap 0, hancestry 2, htree 9 2⟩

/-- In a trace without problems, cavities are found if and only if the labels of each file
that is searched are labels of the trace. -/
theorem cavities_ok_iff_of_no_problems (t : Trace) (options : CavityOptions)
    (hcheck : (t.problems 0).run t = []) :
    (exists cs, ((t.cavities options).run t).2 = .ok cs) <->
      forall h, h ∈ t.headers -> 0 < h.length -> options.selects h.name = true ->
        h.labelEnd.toNat ≤ t.labelCount ∧
          (h.labelBegin = 0 -> exists n, t.decode 0 = .ok n) := by
  have ht : t.Consistent := Validity.problems_eq_nil_iff.mp hcheck
  exact ht.cavities_ok_iff

theorem cavities_ok_iff_of_no_problems_overhang :
    (overhang.trace.problems 0).run overhang.trace = [] ∧
      (exists cs, ((overhang.trace.cavities ⟨fun _ => false, false, 0⟩).run
        overhang.trace).2 = .ok cs) ∧
      ¬ exists cs, ((overhang.trace.cavities ⟨fun _ => true, false, 0⟩).run
        overhang.trace).2 = .ok cs := by
  refine ⟨problems_overhang, ?_, ?_⟩
  · refine (cavities_ok_iff_of_no_problems overhang.trace _ problems_overhang).mpr ?_
    intro h _ _ hselects
    cases hselects
  · rw [cavities_ok_iff_of_no_problems overhang.trace _ problems_overhang]
    intro hinside
    have hend := (hinside ⟨"in", 3, 1, 9⟩ List.mem_cons_self (by decide) rfl).1
    exact absurd hend (by decide)

/-- A file can be read and its trace has no problems, and still its cavities are not found. -/
theorem cavities_fail_without_problems :
    exists r, Image.read (Image.fileOf overhang) = .ok r ∧
      (r.trace.problems 0).run r.trace = [] ∧
      ((r.trace.cavities ⟨fun _ => true, false, 0⟩).run r.trace).2 =
        .error (.within (.cavitiesOf "in") (.within (.headerOf "in") (.invalidLabel ⟨8, 3⟩))) := by
  have hread : Image.read (Image.fileOf overhang) = .ok overhang := by
    rw [Image.read_fileOf (by decide) (by decide) (by rw [Image.length_fileOf]; decide)]
    rw [Image.writtenWords_eq rfl]
  exact ⟨overhang, hread, problems_overhang, rfl⟩

end Trace
end TaintTrace
