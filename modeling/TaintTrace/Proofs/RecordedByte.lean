import Mathlib
import TaintTrace.Proofs.CheckedRun

/-!
# The bytes that labels stand for

A recording gives the label of a byte of a file that it has, or a new label to any byte it is
told.  The offset is cut to 32 bits before it is compared with the labels of the file, and the
index of the file to eight bits, so the label may stand for another byte than the one asked
for.  This is said of all recordings that come about, also of those that went on after an
operation was refused.
-/

namespace TaintTrace

/-- A sum that wraps around ends before the first label of a header, so it is not taken for
one of its labels. -/
theorem Header.contains_add_iff {h : Header} {l : Label} :
    h.contains (h.labelBegin + l) = true <-> l.toNat < h.length := by
  have hl := l.toNat_lt
  have hend := h.labelEnd.toNat_lt
  rw [contains_iff, UInt32.toNat_add, length]
  omega

namespace Recording

variable {r s : Recording} {op : Operation} {ops : List Operation}

/-!
## Refused operations
-/

/-- The recording after an operation, refused or not.  Only files leave something when they
are refused: the labels of their bytes, as far as there was room. -/
def attempt (r : Recording) : Operation -> Recording
  | .file name size => (r.addFile name size).2
  | op =>
      match r.perform op with
      | .ok s => s
      | .error _ => r

def attemptAll (r : Recording) (ops : List Operation) : Recording :=
  ops.foldl attempt r

theorem performAll_append {others : List Operation} :
    r.performAll (ops ++ others) = (r.performAll ops).bind fun s => s.performAll others := by
  induction ops generalizing r with
  | nil => rfl
  | cons op ops ih =>
      rw [List.cons_append, performAll, performAll]
      cases r.perform op with
      | error e => rfl
      | ok s => exact ih

theorem performAll_singleton (h : r.perform op = .ok s) : r.performAll [op] = .ok s := by
  rw [performAll, h]
  rfl

theorem perform_source {file : UInt8} {offset : UInt64} {w : UInt64}
    (h : r.wordOf (.source file offset) = .ok w) :
    r.perform (.source file.toNat offset) = .ok (r.push w) := by
  have hfile : UInt8.ofInt file.toNat = file := by
    rw [UInt8.ofInt]
    change UInt8.ofNat ((file.toNat : Int) % 256).toNat = file
    have hlt : file.toNat < 256 := file.toNat_lt
    rw [show ((file.toNat : Int) % 256).toNat = file.toNat by omega, UInt8.ofNat_toNat]
  rw [perform, addSource, addNode, hfile, h]
  rfl

theorem exists_performAll_addBytes {file : UInt8} {count offset : Nat}
    {e : Option RecordingFault} (h : addBytes file count offset r = (e, s)) :
    exists ops, r.performAll ops = .ok s := by
  induction count generalizing r offset with
  | zero =>
      cases h
      exact ⟨[], rfl⟩
  | succ count ih =>
      unfold addBytes at h
      cases hword : r.wordOf (.source file (UInt64.ofNat offset)) with
      | error e =>
          rw [hword] at h
          cases h
          exact ⟨[], rfl⟩
      | ok w =>
          rw [hword] at h
          -- The byte that found room is a source, and the rest comes after it.
          rcases ih h with ⟨ops, hops⟩
          refine ⟨.source file.toNat (UInt64.ofNat offset) :: ops, ?_⟩
          rw [performAll, perform_source hword]
          exact hops

theorem exists_performAll_addFile {name : Text} {size : Int} {a : Except RecordingFault Nat}
    (h : r.addFile name size = (a, s)) : exists ops, r.performAll ops = .ok s := by
  cases a with
  | ok i =>
      have hperform : r.perform (.file name size) = .ok s := by
        rw [perform, h]
      exact ⟨_, performAll_singleton hperform⟩
  | error e =>
      unfold addFile at h
      dsimp only at h
      rcases hbytes : addBytes (UInt8.ofNat r.headers.size) size.toNat 0 r with ⟨_ | e', filled⟩
      · rw [hbytes] at h
        dsimp only at h
        split at h
        · cases h
          exact exists_performAll_addBytes hbytes
        · cases h
      · rw [hbytes] at h
        cases h
        exact exists_performAll_addBytes hbytes

theorem exists_performAll_attempt (r : Recording) (op : Operation) :
    exists ops, r.performAll ops = .ok (r.attempt op) := by
  have hother : (match r.perform op with | .ok s => s | .error _ => r) = r.attempt op ->
      exists ops, r.performAll ops = .ok (r.attempt op) := by
    intro hattempt
    rw [← hattempt]
    cases hperform : r.perform op with
    | ok s => exact ⟨[op], performAll_singleton hperform⟩
    | error e => exact ⟨[], rfl⟩
  -- All operations but files leave nothing when they are refused.
  cases op with
  | file name size => exact exists_performAll_addFile rfl
  | _ => exact hother rfl

theorem exists_performAll_attemptAll (r : Recording) (ops : List Operation) :
    exists others, r.performAll others = .ok (r.attemptAll ops) := by
  induction ops generalizing r with
  | nil => exact ⟨[], rfl⟩
  | cons op ops ih =>
      rcases exists_performAll_attempt r op with ⟨first, hfirst⟩
      rcases ih (r.attempt op) with ⟨rest, hrest⟩
      refine ⟨first ++ rest, ?_⟩
      rw [performAll_append, hfirst]
      exact hrest

/-!
## Labels of bytes
-/

/-- Whether a label stands for a byte of a file, marked or not. -/
def StandsFor (r : Recording) (l : Label) (file offset : Int) : Prop :=
  exists index position affects, r.decode l = .ok ⟨.source index position, affects⟩ ∧
    (index.toNat : Int) = file ∧ (position.toNat : Int) = offset

theorem StandsFor.iff {l : Label} {file file' offset offset' : Int}
    (h : r.StandsFor l file offset) :
    r.StandsFor l file' offset' <-> file' = file ∧ offset' = offset := by
  rcases h with ⟨index, position, affects, hdecode, rfl, rfl⟩
  constructor
  · rintro ⟨index', position', affects', hdecode', rfl, rfl⟩
    rw [hdecode] at hdecode'
    cases hdecode'
    exact ⟨rfl, rfl⟩
  · rintro ⟨rfl, rfl⟩
    exact ⟨index, position, affects, hdecode, rfl, rfl⟩

/-!
## Bytes of files
-/

theorem header?_eq_some_iff {file : Int} {h : Header} :
    r.header? file = some h <-> 0 ≤ file ∧ r.headers.toList[file.toNat]? = some h := by
  unfold header?
  rw [Array.getElem?_toList]
  split
  · rename_i hneg
    exact iff_of_false (by simp) (fun hfile => Int.not_le.mpr hneg hfile.1)
  · rename_i hnonneg
    exact (and_iff_right (Int.not_lt.mp hnonneg)).symm

theorem sourceLabel_eq_ok_iff {file offset : Int} {l : Label} :
    r.sourceLabel file offset = .ok l <->
      exists h, r.header? file = some h ∧ (UInt32.ofInt offset).toNat < h.length ∧
        h.labelBegin + UInt32.ofInt offset = l := by
  unfold sourceLabel
  cases r.header? file with
  | none => simp
  | some h =>
      simp only [Header.contains_add_iff]
      split
      · rename_i hlt
        simp [hlt]
      · rename_i hge
        simp [hge]

theorem standsFor_sourceLabel (hrun : empty.performAll ops = .ok r) {file offset : Int}
    {l : Label} (h : r.sourceLabel file offset = .ok l) :
    r.StandsFor l file (offset % (Label.total : Int)) := by
  rcases sourceLabel_eq_ok_iff.mp h with ⟨header, hheader, hlt, rfl⟩
  rcases header?_eq_some_iff.mp hheader with ⟨hfile, hindex⟩
  rcases (allotted_performAll hrun _ header hindex).decode hlt with
    ⟨index, position, affects, hdecode, hi, hp⟩
  rw [UInt32.ofNat_toNat] at hdecode
  refine ⟨index, position, affects, hdecode, ?_, ?_⟩
  · rw [hi, Int.toNat_of_nonneg hfile]
  · rw [hp, toNat_ofInt]

/-!
## Other bytes
-/

theorem toNat_ofInt_file (file : Int) :
    ((UInt8.ofInt file).toNat : Int) = file % (maxFiles : Int) := by
  rw [UInt8.ofInt, UInt8.toNat_ofNat']
  change (((file % 256).toNat % 256 : Nat) : Int) = file % 256
  omega

theorem Bounded.refusal?_eq_none_iff (hr : Bounded r) :
    r.refusal? = none <-> r.words.size ≤ Label.max := by
  unfold refusal?
  rw [hr.nextLabel_toNat]
  simp

theorem wordOf_eq_ok_iff {n : Node} {w : UInt64} :
    r.wordOf n = .ok w <-> NodeWord.encode n = .ok w ∧ r.refusal? = none := by
  unfold wordOf
  cases NodeWord.encode n with
  | error e => simp
  | ok v =>
      cases r.refusal? with
      | none => simp
      | some e => simp

theorem addNode_eq_ok_iff {n : Node} {l : Label} :
    r.addNode n = .ok (l, s) <->
      exists w, r.wordOf n = .ok w ∧ r.nextLabel = l ∧ r.push w = s := by
  unfold addNode addWord
  cases r.wordOf n with
  | error e => simp [Except.map]
  | ok w => simp [Except.map]

theorem exists_addSource_iff (hr : Bounded r) (file : Int) (position : UInt64) :
    (exists l s, r.addSource file position = .ok (l, s)) <->
      position.toNat ≤ NodeWord.maxOffset ∧ r.words.size ≤ Label.max := by
  have hencode := NodeWord.exists_encode_iff (.source (UInt8.ofInt file) position)
  rw [← hr.refusal?_eq_none_iff]
  simp only [addSource, addNode_eq_ok_iff, wordOf_eq_ok_iff]
  constructor
  · rintro ⟨l, s, w, ⟨hw, hroom⟩, _⟩
    exact ⟨hencode.mp ⟨w, hw⟩, hroom⟩
  · rintro ⟨hoffset, hroom⟩
    rcases hencode.mpr hoffset with ⟨w, hw⟩
    exact ⟨_, _, w, ⟨hw, hroom⟩, rfl, rfl⟩

theorem standsFor_addSource (hr : Bounded r) {file : Int} {position : UInt64} {l : Label}
    (h : r.addSource file position = .ok (l, s)) :
    s.StandsFor l (file % (maxFiles : Int)) position.toNat := by
  rcases addNode_eq_ok_iff.mp h with ⟨w, hword, rfl, rfl⟩
  refine ⟨UInt8.ofInt file, position, false, ?_, toNat_ofInt_file file, rfl⟩
  rw [decode_eq_ok_iff_nodes, hr.nextLabel_toNat]
  refine ⟨hr.size_pos, ?_⟩
  rw [nodes_push, ← length_nodes, List.getElem?_concat_length,
    NodeWord.decode_encode (wordOf_eq_ok_iff.mp hword).1]
  rfl

/-!
## Main results
-/

/-- The label of a byte of a file stands for that file, and for the offset modulo 2^32: it is
the byte asked for if and only if the offset has 32 bits.  There is such a label if and only
if the file has the offset modulo 2^32.  A new label stands for the offset it was given, and
for the index of the file modulo 256; it is refused only when it or the offset is too large. -/
theorem labels_stand_for_bytes (ops : List Operation) (file offset : Int) (position : UInt64) :
    (forall l, (empty.attemptAll ops).sourceLabel file offset = .ok l ->
      (empty.attemptAll ops).StandsFor l file (offset % (Label.total : Int)) ∧
      ((empty.attemptAll ops).StandsFor l file offset <-> 0 ≤ offset ∧ offset < Label.total)) ∧
    ((exists l, (empty.attemptAll ops).sourceLabel file offset = .ok l) <->
      exists h, (empty.attemptAll ops).header? file = some h ∧
        offset % (Label.total : Int) < h.length) ∧
    (forall l s, (empty.attemptAll ops).addSource file position = .ok (l, s) ->
      s.StandsFor l (file % (maxFiles : Int)) position.toNat ∧
      (s.StandsFor l file position.toNat <-> 0 ≤ file ∧ file < maxFiles)) ∧
    ((exists l s, (empty.attemptAll ops).addSource file position = .ok (l, s)) <->
      position.toNat ≤ NodeWord.maxOffset ∧ (empty.attemptAll ops).words.size ≤ Label.max) := by
  rcases exists_performAll_attemptAll empty ops with ⟨others, hrun⟩
  have hbounded := bounded_performAll bounded_empty hrun
  refine ⟨?_, ?_, ?_, exists_addSource_iff hbounded file position⟩
  · intro l hl
    have hstands := standsFor_sourceLabel hrun hl
    refine ⟨hstands, ?_⟩
    rw [hstands.iff, and_iff_right rfl]
    change offset = offset % 4294967296 <-> 0 ≤ offset ∧ offset < 4294967296
    omega
  · simp only [sourceLabel_eq_ok_iff, ← toNat_ofInt, Int.ofNat_lt]
    constructor
    · rintro ⟨_, h, hheader, hlt, _⟩
      exact ⟨h, hheader, hlt⟩
    · rintro ⟨h, hheader, hlt⟩
      exact ⟨_, h, hheader, hlt, rfl⟩
  · intro l s hl
    have hstands := standsFor_addSource hbounded hl
    refine ⟨hstands, ?_⟩
    rw [hstands.iff, and_iff_left rfl]
    change file = file % 256 <-> 0 ≤ file ∧ file < 256
    omega

/-- A file of two bytes, a union that is refused, and a mark on the second byte. -/
def markedPair : List Operation :=
  [.file "in" 2, .union 9 1, .controlFlow [2]]

theorem labels_stand_for_bytes_markedPair :
    (empty.attemptAll markedPair).sourceLabel 0 1 = .ok 2 ∧
      (empty.attemptAll markedPair).StandsFor 2 0 1 ∧
      exists s, (empty.attemptAll markedPair).addSource 0 7 = .ok (3, s) ∧ s.StandsFor 3 0 7 := by
  have hbyte : (empty.attemptAll markedPair).sourceLabel 0 1 = .ok 2 := rfl
  have hadded : exists s, (empty.attemptAll markedPair).addSource 0 7 = .ok (3, s) := ⟨_, rfl⟩
  rcases hadded with ⟨s, hs⟩
  rcases labels_stand_for_bytes markedPair 0 1 7 with ⟨hlabel, _, hsource, _⟩
  exact ⟨hbyte, (hlabel 2 hbyte).1, s, hs, (hsource 3 s hs).1⟩

/-- Asked for the byte at 2^32 + 1 of a file of two bytes, a recording answers with the label
of the byte at 1, and told of a byte of file 256 it notes one of file 0. -/
theorem labels_of_other_bytes :
    (empty.attemptAll [.file "in" 2]).sourceLabel 0 4294967297 = .ok 2 ∧
      (empty.attemptAll [.file "in" 2]).StandsFor 2 0 1 ∧
      ¬ (empty.attemptAll [.file "in" 2]).StandsFor 2 0 4294967297 ∧
      exists s, (empty.attemptAll [.file "in" 2]).addSource 256 0 = .ok (3, s) ∧
        s.StandsFor 3 0 0 ∧ ¬ s.StandsFor 3 256 0 := by
  have hbyte : (empty.attemptAll [.file "in" 2]).StandsFor 2 0 1 := ⟨0, 1, false, rfl, rfl, rfl⟩
  have hadded : exists s, (empty.attemptAll [.file "in" 2]).addSource 256 0 = .ok (3, s) ∧
      s.StandsFor 3 0 0 := ⟨_, rfl, 0, 0, false, rfl, rfl, rfl⟩
  rcases hadded with ⟨s, hs, hfirst⟩
  refine ⟨rfl, hbyte, ?_, s, hs, hfirst, ?_⟩
  · rw [hbyte.iff]
    decide
  · rw [hfirst.iff]
    decide

end Recording
end TaintTrace
