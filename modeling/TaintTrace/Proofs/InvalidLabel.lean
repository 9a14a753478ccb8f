import Mathlib
import TaintTrace.Proofs.Image
import TaintTrace.Proofs.Mapping
import TaintTrace.Proofs.Searches
import TaintTrace.Proofs.Validity

/-!
# What faults say about labels

A fault about an invalid label names that label and the largest label of the trace.  The
label never has a node.  The largest label is right when a node was asked for, as long as
the labels fit their 32 bits.  The search for the cavities of a file also compares its header
with the number of labels, and there it takes one from a number that may be zero.
-/

namespace TaintTrace

variable {nodes : Label -> Except InvalidLabel Node}

/-!
## Where the faults of a search come from

Each search hands on what it was told about some label.
-/

theorem Unhindered.exists_label_of_fault {root : Label} {old : LabelSet} {fault : Fault}
    (hfault : ((Lookup.unhinderedSources root old).answer nodes).fault = some fault) :
    exists l e, fault.root = .invalidLabel e ∧ nodes l = .error e := by
  have hsame : (Lookup.unhinderedSources root old).answer nodes =
      (Lookup.unhinderedSources root old).answer (outside nodes old) :=
    unhinderedSources_congr fun l hl => (outside_of_not_has hl).symm
  rw [hsame] at hfault
  rcases unhinderedSources_cases (settled_outside nodes old) root with
    ⟨hnone, _⟩ | ⟨e, hsome, l, _, hnew, he⟩
  · rw [hnone] at hfault
    cases hfault
  · rw [hsome] at hfault
    rw [outside_of_not_has hnew] at he
    cases hfault
    exact ⟨l, e, rfl, he⟩

namespace Cavities

theorem exists_label_of_markControlFlow {h : Header} {e : InvalidLabel} (count label : Nat)
    (marks : Marks) (herror : (markControlFlow h count label marks).answer nodes = .error e) :
    exists l, nodes l = .error e := by
  induction count generalizing label marks with
  | zero => cases herror
  | succ count ih =>
      rw [markControlFlow, Lookup.answer_decode] at herror
      cases hnode : nodes (UInt32.ofNat label) with
      | error e' =>
          rw [hnode] at herror
          cases herror
          exact ⟨_, hnode⟩
      | ok n =>
          rw [hnode] at herror
          exact ih _ _ herror

theorem exists_label_of_markFlows {h : Header} {fault : Fault} (index : Nat) (sinks : List Sink)
    (seen : LabelSet) (marks : Marks)
    (herror : ((markFlows h index sinks seen marks).answer nodes).2 = .error fault) :
    exists l e, fault.root = .invalidLabel e ∧ nodes l = .error e := by
  induction sinks generalizing index seen marks with
  | nil => cases herror
  | cons s sinks ih =>
      rw [markFlows, Lookup.answer_decode] at herror
      cases hnode : nodes s.label with
      | error e =>
          rw [hnode] at herror
          cases herror
          exact ⟨s.label, e, rfl, hnode⟩
      | ok n =>
          rw [hnode] at herror
          dsimp only at herror
          split at herror
          · exact ih _ _ _ herror
          · split at herror
            · exact ih _ _ _ herror
            · rw [Lookup.answer_bind] at herror
              split at herror
              · rename_i e hfault
                cases herror
                rcases Unhindered.exists_label_of_fault hfault with ⟨l, cause, hcause, hl⟩
                exact ⟨l, cause, hcause, hl⟩
              · exact ih _ _ _ herror

/-- A search for cavities fails because the header goes beyond the labels of the trace, or
on a label without node. -/
theorem ofHeader_error_cases {t : Trace} {options : CavityOptions} {h : Header} {fault : Fault}
    (herror : ((ofHeader t options h).run t).2 = .error fault) :
    (h.length ≠ 0 ∧ t.labelCount < h.labelEnd.toNat ∧
      fault.root = .invalidLabel ⟨h.labelEnd - 1, lastLabel t⟩) ∨
    (h.length ≠ 0 ∧ h.labelEnd.toNat ≤ t.labelCount ∧
      exists l e, fault.root = .invalidLabel e ∧ t.decode l = .error e) := by
  unfold ofHeader at herror
  split at herror
  · cases herror
  · rename_i hlength
    split at herror
    · rename_i hbeyond
      cases herror
      exact Or.inl ⟨hlength, hbeyond, rfl⟩
    · rename_i hinside
      refine Or.inr ⟨hlength, Nat.not_lt.mp hinside, ?_⟩
      dsimp only at herror
      rw [Lookup.run_bind] at herror
      split at herror
      · rename_i e hmarks
        cases herror
        rcases exists_label_of_markControlFlow _ _ _ hmarks with ⟨l, hl⟩
        exact ⟨l, e, rfl, hl⟩
      · rename_i marks _
        rw [Lookup.run_bind] at herror
        rcases hflows :
            (markFlows h 0 t.sinks (LabelSet.withRoom t.labelCount) marks).run t with
          ⟨begun, outcome⟩
        rw [hflows] at herror
        cases outcome with
        | error e =>
            cases herror
            exact exists_label_of_markFlows _ _ _ _ (congrArg Prod.snd hflows)
        | ok marks => cases herror

end Cavities

/-!
## The largest label
-/

namespace Recording

variable {r : Recording}

theorem decode_eq_error_iff {l : Label} {e : InvalidLabel} :
    r.trace.decode l = .error e <->
      ¬ r.trace.HasLabel l ∧ e = ⟨l, UInt32.ofNat (r.trace.labelCount - 1)⟩ := by
  show r.decode l = .error e <-> ¬ (l ≠ 0 ∧ l.toNat < r.words.size) ∧ _
  rw [not_and_or, not_not, Nat.not_lt]
  unfold decode InvalidLabel.find?
  by_cases hinvalid : l = 0 ∨ r.words.size ≤ l.toNat
  · rw [if_pos hinvalid, and_iff_right hinvalid]
    constructor
    · intro h
      cases h
      rfl
    · intro h
      rw [h]
      rfl
  · rw [if_neg hinvalid]
    refine iff_of_false ?_ (fun h => hinvalid h.1)
    intro h
    cases h

theorem toNat_ofNat_pred_eq_iff {count : Nat} :
    (UInt32.ofNat (count - 1)).toNat = count - 1 <-> count ≤ Label.total := by
  rw [UInt32.toNat_ofNat']
  change (count - 1) % 4294967296 = count - 1 <-> count ≤ 4294967296
  omega

/-- Without labels, one less than their number is the largest 32-bit number. -/
theorem toNat_lastLabel_eq_iff {t : Trace} :
    (Cavities.lastLabel t).toNat = t.labelCount - 1 <->
      0 < t.labelCount ∧ t.labelCount ≤ Label.total := by
  have hlast : ((Cavities.lastLabel t).toNat : Int) = (t.labelCount - 1 : Int) % 4294967296 :=
    toNat_ofInt _
  change _ <-> 0 < t.labelCount ∧ t.labelCount ≤ 4294967296
  omega

end Recording

namespace Cavities

theorem not_hasLabel_of_beyond {t : Trace} {h : Header} (hbeyond : t.labelCount < h.labelEnd.toNat) :
    ¬ t.HasLabel (h.labelEnd - 1) := by
  have hpos : (1 : Label) ≤ h.labelEnd := by
    rw [UInt32.le_iff_toNat_le]
    change 1 ≤ h.labelEnd.toNat
    omega
  intro hhas
  have hlt := hhas.2
  rw [UInt32.toNat_sub_of_le _ _ hpos] at hlt
  change h.labelEnd.toNat - 1 < t.labelCount at hlt
  omega

end Cavities

/-!
## Main results
-/

namespace Recording

/-- Whatever fails on a label, that label is none of the trace.  Asking for a node, the
largest label is right if the labels fit 32 bits; looking for the cavities of any header,
there has to be at least one label as well, be it label zero. -/
theorem invalid_label_and_max_iff (r : Recording) :
    (forall l e, r.trace.decode l = .error e ->
      e.label = l ∧ ¬ r.trace.HasLabel l ∧
        (e.max.toNat = r.trace.labelCount - 1 <-> r.trace.labelCount ≤ Label.total)) ∧
    forall (options : CavityOptions) (h : Header) (fault : Fault),
      ((Cavities.ofHeader r.trace options h).run r.trace).2 = .error fault ->
      exists e, fault.root = .invalidLabel e ∧ ¬ r.trace.HasLabel e.label ∧
        (e.max.toNat = r.trace.labelCount - 1 <->
          0 < r.trace.labelCount ∧ r.trace.labelCount ≤ Label.total) := by
  constructor
  · intro l e hdecode
    rcases decode_eq_error_iff.mp hdecode with ⟨hnone, rfl⟩
    exact ⟨rfl, hnone, toNat_ofNat_pred_eq_iff⟩
  · intro options h fault herror
    rcases Cavities.ofHeader_error_cases herror with
      ⟨hlength, hbeyond, hroot⟩ | ⟨hlength, hinside, l, e, hroot, hdecode⟩
    · exact ⟨_, hroot, Cavities.not_hasLabel_of_beyond hbeyond, toNat_lastLabel_eq_iff⟩
    · rcases decode_eq_error_iff.mp hdecode with ⟨hnone, rfl⟩
      -- A header with labels ends after label zero, so there is at least that one.
      have hpos : 0 < r.trace.labelCount := by
        unfold Header.length at hlength
        omega
      exact ⟨_, hroot, hnone, by rw [toNat_ofNat_pred_eq_iff, and_iff_right hpos]⟩

def dangling : Recording where
  headers := #[⟨"in", 3, 1, 3⟩]
  words := #[0, 0x8000000000000000, 0x8000000000000001]
  sinks := #[⟨7, 0, 0⟩]
  taints := #[]

theorem invalid_label_and_max_iff_dangling :
    exists fault e, ((Cavities.ofHeader dangling.trace ⟨fun _ => true, false, 0⟩
        ⟨"in", 3, 1, 3⟩).run dangling.trace).2 = .error fault ∧
      fault.root = .invalidLabel e ∧ ¬ dangling.trace.HasLabel e.label ∧ e.max.toNat = 2 := by
  have herror : ((Cavities.ofHeader dangling.trace ⟨fun _ => true, false, 0⟩
      ⟨"in", 3, 1, 3⟩).run dangling.trace).2 =
        .error (.within (.sink 0) (.invalidLabel ⟨7, 2⟩)) := rfl
  rcases (invalid_label_and_max_iff dangling).2 _ _ _ herror with ⟨e, hroot, hnone, hmax⟩
  exact ⟨_, e, herror, hroot, hnone, hmax.mpr (by decide)⟩

def unlabelled : Recording where
  headers := #[⟨"in", 3, 1, 2⟩]
  words := #[]
  sinks := #[]
  taints := #[]

/-- A file without labels can be read, and for the cavities of the file it names 4294967295
is said to be its largest label, while asking for a node says that there is none. -/
theorem cavities_name_absent_label :
    Image.read (Image.fileOf unlabelled) = .ok unlabelled ∧
      ((Cavities.ofHeader unlabelled.trace ⟨fun _ => true, false, 0⟩ ⟨"in", 3, 1, 2⟩).run
        unlabelled.trace).2 =
          .error (.within (.headerOf "in") (.invalidLabel ⟨1, 4294967295⟩)) ∧
      unlabelled.trace.decode 1 = .error ⟨1, 0⟩ := by
  refine ⟨?_, rfl, rfl⟩
  rw [Image.read_fileOf (by decide) (by decide) (by rw [Image.length_fileOf]; decide)]
  rfl

end Recording
end TaintTrace
