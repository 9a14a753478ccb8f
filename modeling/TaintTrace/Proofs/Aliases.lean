import Mathlib
import TaintTrace.Proofs.Agreement
import TaintTrace.Proofs.Safety

/-!
# Bytes with several labels

A header sets a label aside for each byte of its file, and cavities are about these labels.
Nothing keeps a trace from having other sources for the same byte.  A byte that flows to a sink
as one of those, and not as the label set aside for it, is in a cavity all the same.
-/

namespace TaintTrace
namespace Cavities

open Sources

variable {t : Trace} {options : CavityOptions} {h : Header}

/-- A byte of a file flows to a sink as a label, whether that label was set aside for it or not. -/
def FlowsAs (t : Trace) (file offset : Nat) (l : Label) : Prop :=
  FlowsTo t.decode t.sinks l ∧ exists s : FoundSource, s.label = l ∧ IsSource t.decode s ∧
    s.file.toNat = file ∧ s.offset.toNat = offset

/-- A file that is searched adds a cavity at a byte unless the label that was set aside for
that byte flows to a sink or affects control flow. -/
theorem contribution_covers (hlegacy : options.legacyTrailing = false)
    (hpart : choose options h = .search -> exists part, alone t options h = .ok part) (o : Nat) :
    (exists c, c ∈ contribution t options h ∧ c.Covers o) <->
      options.selects h.name = true ∧ o < h.length ∧
        ¬ (FlowsTo t.decode t.sinks (h.labelBegin + UInt32.ofNat o) ∨
          Affects t.decode (h.labelBegin + UInt32.ofNat o)) := by
  cases hchoice : choose options h with
  | skip message =>
      rw [contribution_eq_nil_of_skip hchoice]
      constructor
      · intro hcovered
        rcases hcovered with ⟨c, hc, _⟩
        cases hc
      · intro hfree
        have hsearch : choose options h = .search :=
          choose_eq_search_iff.mpr ⟨Nat.zero_lt_of_lt hfree.2.1, hfree.1⟩
        rw [hchoice] at hsearch
        cases hsearch
  | search =>
      rcases hpart hchoice with ⟨part, halone⟩
      rw [contribution_eq_of_ok hchoice halone, ofHeader_covers hlegacy halone]
      exact (and_iff_right (choose_eq_search_iff.mp hchoice).2).symm

/-- In a recording whose sources come with files only, a byte flows as the label that was set
aside for it, if at all. -/
theorem FlowsAs.eq_labelAt {r : Recording} (hr : r.Filed) {i o : Nat} {l : Label}
    (hheader : r.trace.headers[i]? = some h) (ho : o < h.length) (hflows : FlowsAs r.trace i o l) :
    l = h.labelBegin + UInt32.ofNat o := by
  rcases hflows with ⟨_, s, hlabel, hsource, hfile, hoffset⟩
  rw [← hlabel]
  refine hr.eq_labelAt hheader ho hsource hfile ?_
  rw [← hoffset, UInt64.ofNat_toNat]

/-- The bytes that are in a cavity of their file and flow to a sink are those whose own label
neither flows nor affects control flow, and that flow as another label.  There are none in a
recording that was made without sources of its own. -/
theorem covered_and_flows_iff (t : Trace) (options : CavityOptions) (cs : List Cavity)
    (hlegacy : options.legacyTrailing = false) (hok : ((t.cavities options).run t).2 = .ok cs) :
    cs = (t.headers.map (contribution t options)).flatten ∧
    forall i h, t.headers[i]? = some h ->
      (forall o, ((exists c, c ∈ contribution t options h ∧ c.Covers o) ∧
          exists l, FlowsAs t i o l) <->
        options.selects h.name = true ∧ o < h.length ∧
          ¬ (FlowsTo t.decode t.sinks (h.labelBegin + UInt32.ofNat o) ∨
            Affects t.decode (h.labelBegin + UInt32.ofNat o)) ∧
          exists l, l ≠ h.labelBegin + UInt32.ofNat o ∧ FlowsAs t i o l) ∧
      forall ops r, Recording.empty.performAll ops = .ok r -> (forall op, op ∈ ops -> op.Filed) ->
        t = r.trace -> forall c o, c ∈ contribution t options h -> c.Covers o ->
          forall l, ¬ FlowsAs t i o l := by
  rcases cavities_eq_ok_iff.mp hok with ⟨hparts, hcs⟩
  refine ⟨hcs, ?_⟩
  intro i h hheader
  have hcovers := contribution_covers hlegacy (hparts h (List.mem_of_getElem? hheader))
  constructor
  · intro o
    rw [hcovers]
    constructor
    · intro hboth
      rcases hboth with ⟨⟨hselects, ho, hfree⟩, l, hflows⟩
      refine ⟨hselects, ho, hfree, l, ?_, hflows⟩
      intro hown
      rw [hown] at hflows
      exact hfree (Or.inl hflows.1)
    · intro hother
      rcases hother with ⟨hselects, ho, hfree, l, _, hflows⟩
      exact ⟨⟨hselects, ho, hfree⟩, l, hflows⟩
  · intro ops r hrun hfiled htrace c o hc hcover l hflows
    rcases (hcovers o).mp ⟨c, hc, hcover⟩ with ⟨_, ho, hfree⟩
    subst htrace
    have hown := FlowsAs.eq_labelAt (Recording.filed_performAll hfiled hrun) hheader ho hflows
    rw [hown] at hflows
    exact hfree (Or.inl hflows.1)

/-- A file of two bytes.  The second one is read again, as label 3, and only that is written. -/
def reread : List Recording.Operation :=
  [.file [0x66] 2, .output [0x6f], .source 0 1, .write 1 0 [3]]

theorem performAll_reread :
    exists r, Recording.empty.performAll reread = .ok r ∧ (r.trace.problems 0).run r.trace = [] ∧
      r.trace.headers[0]? = some ⟨[0x66], 3, 1, 3⟩ ∧
      ((r.trace.cavities ⟨fun _ => true, false, 0⟩).run r.trace).2 = .ok [⟨[0x66], 0, 2⟩] ∧
      contribution r.trace ⟨fun _ => true, false, 0⟩ ⟨[0x66], 3, 1, 3⟩ = [⟨[0x66], 0, 2⟩] ∧
      FlowsAs r.trace 0 1 3 := by
  refine ⟨_, rfl, by decide +kernel, rfl, rfl, rfl, ⟨⟨_, rfl, rfl, rfl⟩, ?_⟩, ?_⟩
  · exact ⟨_, List.mem_singleton.mpr rfl, .refl⟩
  · exact ⟨⟨3, 0, 1⟩, rfl, ⟨false, rfl⟩, rfl, rfl⟩

theorem covered_and_flows_iff_reread :
    exists r, Recording.empty.performAll reread = .ok r ∧
      ((r.trace.cavities ⟨fun _ => true, false, 0⟩).run r.trace).2 = .ok [⟨[0x66], 0, 2⟩] ∧
      ¬ FlowsTo r.trace.decode r.trace.sinks 2 ∧ exists l, l ≠ 2 ∧ FlowsAs r.trace 0 1 l := by
  rcases performAll_reread with ⟨r, hrun, _, hheader, hcavities, hpart, hflows⟩
  rcases covered_and_flows_iff r.trace _ _ rfl hcavities with ⟨_, hfiles⟩
  have hcovered : exists c, c ∈ contribution r.trace ⟨fun _ => true, false, 0⟩
      ⟨[0x66], 3, 1, 3⟩ ∧ c.Covers 1 := by
    rw [hpart]
    exact ⟨_, List.mem_singleton.mpr rfl, by decide, by decide⟩
  rcases ((hfiles 0 _ hheader).1 1).mp ⟨hcovered, 3, hflows⟩ with ⟨_, _, hfree, hother⟩
  exact ⟨r, hrun, hcavities, fun hown => hfree (Or.inl hown), hother⟩

/-- A trace without problems may have a cavity over a byte that flows to an output unhindered. -/
theorem cavity_of_flowing_byte :
    exists r, Recording.empty.performAll reread = .ok r ∧ (r.trace.problems 0).run r.trace = [] ∧
      ((r.trace.cavities ⟨fun _ => true, false, 0⟩).run r.trace).2 = .ok [⟨[0x66], 0, 2⟩] ∧
      (⟨[0x66], 0, 2⟩ : Cavity).Covers 1 ∧ FlowsAs r.trace 0 1 3 := by
  rcases performAll_reread with ⟨r, hrun, hcheck, _, hcavities, _, hflows⟩
  exact ⟨r, hrun, hcheck, hcavities, ⟨by decide, by decide⟩, hflows⟩

end Cavities
end TaintTrace
