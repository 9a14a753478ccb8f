import Mathlib
import TaintTrace.Proofs.Image
import TaintTrace.Proofs.WellFormed

/-!
# Files that were cut

A written file says in its section table where each section ends, and the last one ends
where the file ends, also when that section is empty.  So whatever is cut off at the end
shows: the preamble is too short, or the table is, or some entry of the table points beyond
the end.  Entries that do not point beyond the end have nothing else wrong with them, so a cut
file is never taken for anything but a cut one.
-/

namespace TaintTrace
namespace Image

variable {r : Recording} {size : Nat}

/-!
## The ends of sections
-/

theorem exists_mem_tableFrom_end (t : Trace) (offset : Nat) (kind : SectionKind)
    (kinds : List SectionKind) :
    exists e, e ∈ tableFrom t offset (kind :: kinds) ∧
      e.offset + e.size = offset + ((kind :: kinds).map (sectionSize t)).sum := by
  induction kinds generalizing offset kind with
  | nil => exact ⟨_, List.mem_cons_self, by simp⟩
  | cons next kinds ih =>
      rcases ih (offset + sectionSize t kind) next with ⟨e, he, hend⟩
      refine ⟨e, List.mem_cons_of_mem _ he, ?_⟩
      rw [List.map_cons, List.sum_cons, hend, Nat.add_assoc]

theorem entryError?_writtenTable {t : Trace} {e : TableEntry} (he : e ∈ writtenTable t) :
    entryError? size e = if size < e.offset + e.size then some (.outside e) else none := by
  rcases mem_tableFrom he with ⟨kind, htag, hentry, hsize, _⟩
  by_cases hcut : size < e.offset + e.size
  · rw [entryError?, if_pos hcut, if_pos hcut]
  · rw [if_neg hcut]
    exact entryError?_eq_none htag hentry hsize (Nat.not_lt.mp hcut)

theorem findSome?_entryError?_writtenTable {t : Trace}
    (hsize : size < preambleSize + sectionOrder.length * tableEntrySize
      + (sectionOrder.map (sectionSize t)).sum) :
    exists e, e ∈ writtenTable t ∧ size < e.offset + e.size ∧
      (writtenTable t).findSome? (entryError? size) = some (.outside e) := by
  cases hfound : (writtenTable t).findSome? (entryError? size) with
  | some fault =>
      rcases List.exists_of_findSome?_eq_some hfound with ⟨e, he, hfault⟩
      rw [entryError?_writtenTable he] at hfault
      split at hfault
      · rename_i hcut
        cases hfault
        exact ⟨e, he, hcut, rfl⟩
      · cases hfault
  | none =>
      -- The last section ends with the file, so not all entries can be right.
      rcases exists_mem_tableFrom_end t (preambleSize + sectionOrder.length * tableEntrySize)
        .headers [.names, .labels, .sinks, .taints] with ⟨e, he, hend⟩
      have hright := List.findSome?_eq_none_iff.mp hfound e he
      rw [entryError?_writtenTable he, if_pos (hsize.trans_eq hend.symm)] at hright
      cases hright

/-!
## Cuts
-/

theorem checkedTable_cut_table (r : Recording)
    (hsize : size < preambleSize + sectionOrder.length * tableEntrySize) :
    checkedTable ((fileOf r).take size) = .error .truncated := by
  have hfile := length_fileOf r
  have hlength : ((fileOf r).take size).length = size := by
    rw [List.length_take]
    omega
  have hfields := preamble_fields (tableBytes r.trace ++ sectionOrder.flatMap (sectionBytes r))
  rw [← fileOf] at hfields
  have hmagic : 4 ≤ size -> ((fileOf r).take size).take 4 = magic := by
    intro hfour
    rw [List.take_take, Nat.min_eq_left hfour, hfields.1]
  unfold checkedTable
  rw [hlength]
  by_cases hpreamble : size < preambleSize
  · rw [if_pos hpreamble, if_neg]
    intro hforeign
    exact hforeign.2 (hmagic hforeign.1)
  · have hsixteen : 16 ≤ size := Nat.not_lt.mp hpreamble
    rw [if_neg hpreamble, if_neg (not_not.mpr (hmagic (by omega))),
      field_take _ (by omega), field_take _ (by omega), hfields.2.1, hfields.2.2,
      if_neg (not_not.mpr rfl), if_pos hsize]

theorem checkedTable_cut_sections (hlength : (fileOf r).length < 0x10000000000000000)
    (htable : preambleSize + sectionOrder.length * tableEntrySize ≤ size)
    (hsize : size < (fileOf r).length) :
    exists e, e ∈ writtenTable r.trace ∧ size < e.offset + e.size ∧
      checkedTable ((fileOf r).take size) = .error (.outside e) := by
  have hfile := length_fileOf r
  have htaken : ((fileOf r).take size).length = size := by
    rw [List.length_take, Nat.min_eq_left hsize.le]
  -- The preamble and the table stand in front of the cut.
  have hcut : (fileOf r).take size = preamble ++ (tableBytes r.trace
      ++ (sectionOrder.flatMap (sectionBytes r)).take
        (size - preambleSize - sectionOrder.length * tableEntrySize)) := by
    rw [fileOf, List.take_append, List.take_append, length_preamble, length_tableBytes,
      List.take_of_length_le (by rw [length_preamble]; omega),
      List.take_of_length_le (by rw [length_tableBytes]; omega)]
  have hfields := preamble_fields (tableBytes r.trace
    ++ (sectionOrder.flatMap (sectionBytes r)).take
      (size - preambleSize - sectionOrder.length * tableEntrySize))
  have hentries : table ((fileOf r).take size) = writtenTable r.trace := by
    rw [hcut]
    exact table_written _ (by omega)
  rw [← hcut] at hfields
  rcases findSome?_entryError?_writtenTable (hsize.trans_eq hfile) with ⟨e, he, hend, hfound⟩
  refine ⟨e, he, hend, ?_⟩
  unfold checkedTable
  rw [htaken, hentries, hfields.1, hfields.2.1, hfields.2.2, if_neg (by omega),
    if_neg (not_not.mpr rfl), if_neg (not_not.mpr rfl), if_neg (by omega)]
  simp only [hfound]

theorem read_of_checkedTable_error {file : Text} {e : ImageError}
    (h : checkedTable file = .error e) : read file = .error e := by
  unfold read
  rw [h]

theorem read_cut (hlength : (fileOf r).length < 0x10000000000000000)
    (hsize : size < (fileOf r).length) :
    exists e, read ((fileOf r).take size) = .error e ∧ e.isTruncation = true := by
  by_cases htable : size < preambleSize + sectionOrder.length * tableEntrySize
  · exact ⟨_, read_of_checkedTable_error (checkedTable_cut_table r htable), rfl⟩
  · rcases checkedTable_cut_sections hlength (Nat.not_lt.mp htable) hsize with ⟨e, _, _, he⟩
    exact ⟨_, read_of_checkedTable_error he, rfl⟩

/-- A fault of a cut file says so in the end, also where it names the section that is cut. -/
theorem message_of_isTruncation {e : ImageError} (h : e.isTruncation = true) :
    ImageError.truncated.message <:+ e.message := by
  cases e with
  | truncated => exact List.suffix_refl _
  | outside entry =>
      have htext : ImageError.truncated.message <:+
          Text.ofString ") outside of file: truncated taint trace file" :=
        ⟨Text.ofString ") outside of file: ", by decide⟩
      exact htext.trans (List.suffix_append _ _)
  | badMagic => cases h
  | version found => cases h
  | malformed kind fault => cases h

/-!
## Main result
-/

/-- Whatever trace was written, each part of its file that does not have all of it is refused
because it is truncated, and the fault says so.  The file has to fit the 64-bit offsets of its
sections. -/
theorem read_prefix_truncated {t : Trace} {file cut : Text}
    (hwrite : (write t).run t = .ok file) (hlength : file.length < 0x10000000000000000)
    (hfront : cut <+: file) (hproper : cut ≠ file) :
    exists e, read cut = .error e ∧ e.isTruncation = true ∧
      ImageError.truncated.message <:+ e.message := by
  rcases write_ok hwrite with ⟨ws, _, hfile⟩
  have hcut : cut = (fileOf (recordingOf t ws)).take cut.length := by
    rw [← hfile]
    exact List.prefix_iff_eq_take.mp hfront
  have hsize : cut.length < file.length := by
    apply Nat.lt_of_le_of_ne hfront.length_le
    intro heq
    exact hproper (hfront.eq_of_length heq)
  rw [hfile] at hlength hsize
  rcases read_cut hlength hsize with ⟨e, hread, htruncation⟩
  rw [← hcut] at hread
  exact ⟨e, hread, htruncation, message_of_isTruncation htruncation⟩

/-- One label, which has no name and flows nowhere: the last two sections are empty. -/
def speck : Trace where
  headers := [⟨[], 3, 1, 2⟩]
  labelCount := 2
  sinks := []
  taints := []
  decode := fun _ => .ok ⟨.source 0 0, true⟩

theorem read_prefix_truncated_speck :
    exists file, (write speck).run speck = .ok file ∧ file.length = 176 ∧
      file.take 175 <+: file ∧ file.take 175 ≠ file ∧
      exists e, read (file.take 175) = .error e ∧ e.isTruncation = true ∧
        ImageError.truncated.message <:+ e.message := by
  have hwritten : exists file, (write speck).run speck = .ok file ∧ file.length = 176 := by
    have hlength : ((write speck).run speck).map List.length = .ok 176 := by decide +kernel
    exact map_eq_ok_iff.mp hlength
  rcases hwritten with ⟨file, hwrite, hlength⟩
  have hproper : file.take 175 ≠ file := by
    intro heq
    have htaken : (file.take 175).length = 175 := by
      rw [List.length_take, hlength]
      rfl
    rw [heq, hlength] at htaken
    cases htaken
  exact ⟨file, hwrite, hlength, List.take_prefix 175 file, hproper,
    read_prefix_truncated hwrite (by omega) (List.take_prefix 175 file) hproper⟩

end Image
end TaintTrace
