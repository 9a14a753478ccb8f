import Mathlib
import TaintTrace.Proofs.Image
import TaintTrace.Proofs.Slices

/-!
# Files written anew

Many files hold the same trace: sections may come in any order, overlap or be repeated,
names may be shared, and some bytes are never looked at.  None of this shows in the trace.
Writing the trace of a file gives a file that holds the same trace, and writing that one
again changes nothing.
-/

namespace TaintTrace
namespace Image

theorem output_of_read {file : Text} {r : Recording} (hread : read file = .ok r)
    {t : OutputTaint} (ht : t ∈ r.trace.taints) : 0 ≤ t.output ∧ t.output < 0x100000000 := by
  rcases read_eq_ok_iff.mp hread with ⟨_, _, _, _, _, _, _, rfl⟩
  rcases List.mem_map.mp ht with ⟨b, _, rfl⟩
  have hlt : field b 12 4 < 0x100000000 := field_lt b 12 4
  constructor
  · exact Int.natCast_nonneg _
  · exact Int.ofNat_lt.mpr hlt

theorem trace_writtenWords (r : Recording) :
    Recording.trace { r with words := writtenWords r } = r.trace := by
  have hsize : (writtenWords r).size = r.words.size := by simp [writtenWords]
  unfold Recording.trace
  rw [hsize]
  congr 1
  funext l
  unfold Recording.decode
  rw [hsize]
  cases hfind : InvalidLabel.find? l r.words.size with
  | some e => rfl
  | none =>
      have hne : 0 ≠ l.toNat := by
        intro hzero
        have hl : l = 0 := UInt32.toNat_inj.mp hzero.symm
        simp [InvalidLabel.find?, hl] at hfind
      simp [writtenWords, Array.getD_eq_getD_getElem?, hne]

/-- Whatever the layout of an accepted file, its trace can be written, the new file is read
as the same trace, and it is the file that is written for that trace.  The names have to
fit the 32-bit offsets of a header, the labels their 32 bits, and the new file the 64-bit
offsets of its sections. -/
theorem rewrite_then_read {file : Text} {r : Recording} (hread : read file = .ok r)
    (hnames : (nameBytes r.trace.headers).length < 0x100000000)
    (hcount : r.trace.labelCount ≤ 0x100000000) :
    exists file', (write r.trace).run r.trace = .ok file' ∧
      (file'.length < 0x10000000000000000 ->
        exists r', read file' = .ok r' ∧ r'.trace = r.trace ∧
          (write r'.trace).run r'.trace = .ok file') := by
  have hwrite : (write r.trace).run r.trace = .ok (fileOf r) := write_run hcount
  refine ⟨fileOf r, hwrite, ?_⟩
  intro hlength
  have hback := read_fileOf hnames (fun t => output_of_read hread) hlength
  have htrace := trace_writtenWords r
  exact ⟨_, hback, htrace, by rw [htrace]; exact hwrite⟩

theorem rewrite_then_read_ouroboros :
    exists r file' r', read ouroboros = .ok r ∧
      (nameBytes r.trace.headers).length < 0x100000000 ∧ r.trace.labelCount ≤ 0x100000000 ∧
      (write r.trace).run r.trace = .ok file' ∧ file'.length < 0x10000000000000000 ∧
      file' ≠ ouroboros ∧ read file' = .ok r' ∧ r'.trace = r.trace ∧
      (write r'.trace).run r'.trace = .ok file' := by
  have hread : exists r, read ouroboros = .ok r ∧
      (nameBytes r.trace.headers).length < 0x100000000 ∧ r.words.size ≤ 0x100000000 ∧
      (fileOf r).length = 200 :=
    ⟨_, rfl, by decide, by decide, by rw [length_fileOf]; rfl⟩
  rcases hread with ⟨r, hr, hnames, hcount, hlength⟩
  rcases rewrite_then_read hr hnames hcount with ⟨file', hwrite, hagain⟩
  have hfile : file' = fileOf r := Except.ok.inj (hwrite.symm.trans (write_run hcount))
  rw [← hfile] at hlength
  have hother : file' ≠ ouroboros := by
    intro heq
    rw [heq] at hlength
    revert hlength
    decide
  have hsmall : file'.length < 0x10000000000000000 := by omega
  rcases hagain hsmall with ⟨r', hr', htrace, hwrite'⟩
  exact ⟨r, file', r', hr, hnames, hcount, hwrite, hsmall, hother, hr', htrace, hwrite'⟩

end Image
end TaintTrace
