import Mathlib
import TaintTrace.Trace.Image.Reading

/-!
# Fields and entries of trace files

A record is a row of little-endian fields.  A field is read back with anything
behind it, and fields in front of it are stepped over, so each kind of record is
read back field by field.  Records of one size that are laid end to end are cut
apart again at that size.
-/

namespace TaintTrace
namespace Image

/-!
## Fields
-/

theorem take_littleEndian {width wide : Nat} (h : width ≤ wide) (n : Nat) :
    (littleEndian wide n).take width = littleEndian width n := by
  induction width generalizing wide n with
  | zero => rfl
  | succ width ih =>
      cases wide with
      | zero => omega
      | succ wide => simp only [littleEndian, List.take_succ_cons, ih (Nat.le_of_succ_le_succ h)]

/-- A field is read back, also by a reader that takes fewer bytes, if those hold the number. -/
theorem field_littleEndian {width wide n : Nat} (rest : Text) (h : width ≤ wide)
    (hn : n < Nat.pow 256 width) : field (littleEndian wide n ++ rest) 0 width = n := by
  unfold field
  rw [List.drop_zero, List.take_append_of_le_length (by simpa using h), take_littleEndian h]
  exact number_littleEndian hn

theorem field_append {a : Text} {offset : Nat} (width : Nat) (rest : Text)
    (h : a.length ≤ offset) :
    field (a ++ rest) offset width = field rest (offset - a.length) width := by
  unfold field
  rw [List.drop_append, List.drop_eq_nil_of_le h, List.nil_append]

theorem field_skip {wide offset : Nat} (n width : Nat) (rest : Text) (h : wide ≤ offset) :
    field (littleEndian wide n ++ rest) offset width = field rest (offset - wide) width := by
  rw [field_append width rest (by simpa using h), littleEndian_length]

theorem field_drop (bytes : Text) (start offset width : Nat) :
    field (bytes.drop start) offset width = field bytes (start + offset) width := by
  unfold field
  rw [List.drop_drop]

theorem field_take {offset width size : Nat} (bytes : Text) (h : offset + width ≤ size) :
    field (bytes.take size) offset width = field bytes offset width := by
  unfold field
  rw [List.drop_take, List.take_take, Nat.min_eq_left (by omega)]

theorem number_lt (bytes : Text) : number bytes < 256 ^ bytes.length := by
  induction bytes with
  | nil => exact Nat.one_pos
  | cons b bytes ih =>
      have hb : b.toNat < 256 := b.toNat_lt
      rw [number, List.length_cons, Nat.pow_succ]
      omega

theorem field_lt (bytes : Text) (offset width : Nat) : field bytes offset width < 256 ^ width := by
  have hlength : ((bytes.drop offset).take width).length ≤ width := List.length_take_le _ _
  calc field bytes offset width < 256 ^ ((bytes.drop offset).take width).length := number_lt _
    _ ≤ 256 ^ width := Nat.pow_le_pow_right (by decide) hlength

/-!
## Records
-/

namespace TableEntry

@[simp]
theorem length_bytes (e : TableEntry) : e.bytes.length = tableEntrySize := by
  simp [bytes, tableEntrySize]

/-- An entry of the section table is read back when each number fits its field. -/
theorem ofBytes_bytes {e : TableEntry} (htag : e.tag < 0x100000000)
    (hentry : e.entrySize < 0x100000000) (hoffset : e.offset < 0x10000000000000000)
    (hsize : e.size < 0x10000000000000000) : ofBytes e.bytes = e := by
  have hrow : e.bytes = littleEndian 4 e.tag ++ (littleEndian 4 e.entrySize
      ++ (littleEndian 8 e.offset ++ (littleEndian 8 e.size ++ []))) := by
    simp [bytes]
  unfold ofBytes
  rw [hrow]
  simp (disch := first | omega | assumption) only [field_skip, field_littleEndian,
    Nat.reduceSub]

end TableEntry

@[simp]
theorem length_headerBytes (offset : Nat) (h : Header) :
    (headerBytes offset h).length = SectionKind.headers.entrySize := by
  simp [headerBytes, SectionKind.entrySize]

@[simp]
theorem length_sinkBytes (s : Sink) : (sinkBytes s).length = SectionKind.sinks.entrySize := by
  simp [sinkBytes, SectionKind.entrySize]

@[simp]
theorem length_taintBytes (t : OutputTaint) :
    (taintBytes t).length = SectionKind.taints.entrySize := by
  simp [taintBytes, SectionKind.entrySize]

@[simp]
theorem sinkOfBytes_sinkBytes (s : Sink) : sinkOfBytes (sinkBytes s) = s := by
  have hrow : sinkBytes s = littleEndian 8 s.offset.toNat ++ (littleEndian 4 s.label.toNat
      ++ (littleEndian 4 s.output.toNat ++ [])) := by
    simp [sinkBytes]
  have hoffset : s.offset.toNat < Nat.pow 256 8 := s.offset.toNat_lt
  have hlabel : s.label.toNat < Nat.pow 256 4 := s.label.toNat_lt
  have houtput : s.output.toNat < Nat.pow 256 1 := s.output.toNat_lt
  unfold sinkOfBytes
  rw [hrow]
  simp (disch := first | omega | assumption) only [field_skip, field_littleEndian, Nat.reduceSub,
    UInt32.ofNat_toNat, UInt64.ofNat_toNat, UInt8.ofNat_toNat]

theorem taintOfBytes_taintBytes {t : OutputTaint} (hlow : 0 ≤ t.output)
    (hhigh : t.output < 0x100000000) : taintOfBytes (taintBytes t) = t := by
  have hrow : taintBytes t = littleEndian 8 t.offset.toNat ++ (littleEndian 4 t.label.toNat
      ++ (littleEndian 4 (t.output % 0x100000000).toNat ++ [])) := by
    simp [taintBytes]
  have hoffset : t.offset.toNat < Nat.pow 256 8 := t.offset.toNat_lt
  have hlabel : t.label.toNat < Nat.pow 256 4 := t.label.toNat_lt
  have houtput : (t.output % 0x100000000).toNat < Nat.pow 256 4 := by
    show (t.output % 0x100000000).toNat < 4294967296
    omega
  have hback : (((t.output % 0x100000000).toNat : Nat) : Int) = t.output := by omega
  unfold taintOfBytes
  rw [hrow]
  simp (disch := first | omega | assumption) only [field_skip, field_littleEndian, Nat.reduceSub,
    UInt32.ofNat_toNat, UInt64.ofNat_toNat, hback]

theorem word_littleEndian (w : UInt64) : UInt64.ofNat (number (littleEndian 8 w.toNat)) = w := by
  have hw : w.toNat < Nat.pow 256 8 := w.toNat_lt
  rw [number_littleEndian hw, UInt64.ofNat_toNat]

theorem headerOfBytes?_headerBytes {before : Text} (after : Text) {h : Header}
    (hoffset : before.length < 0x100000000) (hname : h.name.length < 0x100000000) :
    headerOfBytes? (before ++ (h.name ++ after)) (headerBytes before.length h) = some h := by
  have hrow : headerBytes before.length h = littleEndian 4 before.length
      ++ (littleEndian 4 h.name.length ++ (littleEndian 4 h.fd.toUInt32.toNat
      ++ (littleEndian 4 0 ++ (littleEndian 4 h.labelBegin.toNat
      ++ (littleEndian 4 h.labelEnd.toNat ++ []))))) := by
    simp [headerBytes]
  have hfd : h.fd.toUInt32.toNat < Nat.pow 256 4 := h.fd.toUInt32.toNat_lt
  have hbegin : h.labelBegin.toNat < Nat.pow 256 4 := h.labelBegin.toNat_lt
  have hend : h.labelEnd.toNat < Nat.pow 256 4 := h.labelEnd.toNat_lt
  have hinside : ¬ (before ++ (h.name ++ after)).length < before.length + h.name.length := by
    simp only [List.length_append]
    omega
  have hcut : ((before ++ (h.name ++ after)).drop before.length).take h.name.length = h.name := by
    rw [List.drop_left, List.take_left]
  unfold headerOfBytes?
  rw [hrow]
  simp (disch := first | omega | assumption) only [field_skip, field_littleEndian, Nat.reduceSub,
    UInt32.ofNat_toNat, hinside, if_false, hcut]
  rfl

/-!
## Rows of records
-/

theorem length_flatten_of_forall {size : Nat} {parts : List Text}
    (h : forall part, part ∈ parts -> part.length = size) :
    parts.flatten.length = parts.length * size := by
  have hlengths : parts.map List.length = List.replicate parts.length size := by
    rw [List.eq_replicate_iff]
    simpa using h
  rw [List.length_flatten, hlengths, List.sum_replicate, smul_eq_mul]

/-- Parts of one size are cut apart again, whatever comes behind them. -/
theorem chunks_flatten {size : Nat} {parts : List Text} (rest : Text)
    (h : forall part, part ∈ parts -> part.length = size) :
    chunks size parts.length (parts.flatten ++ rest) = parts := by
  induction parts with
  | nil => rfl
  | cons part parts ih =>
      have hpart : part.length = size := h part List.mem_cons_self
      have hrest := ih (fun p hp => h p (List.mem_cons_of_mem part hp))
      simp only [List.length_cons, chunks, List.flatten_cons, List.append_assoc]
      rw [← hpart, List.take_left, List.drop_left, hpart, hrest]

theorem chunks_eq_map (size count : Nat) (bytes : Text) :
    chunks size count bytes =
      (List.range count).map fun i => (bytes.drop (i * size)).take size := by
  induction count generalizing bytes with
  | zero => rfl
  | succ count ih =>
      rw [chunks, ih, List.range_succ_eq_map, List.map_cons, List.map_map, Nat.zero_mul,
        List.drop_zero]
      refine congrArg _ (List.map_congr_left ?_)
      intro i _
      rw [Function.comp_apply, List.drop_drop, Nat.succ_mul, Nat.add_comm]

theorem map_read_map {α : Type} {bytes : α -> Text} {ofBytes : Text -> α} {xs : List α}
    (h : forall x, x ∈ xs -> ofBytes (bytes x) = x) : (xs.map bytes).map ofBytes = xs := by
  rw [List.map_map]
  exact (List.map_congr_left (g := id) h).trans (List.map_id xs)

theorem sectionEntries_flatten {kind : SectionKind} {parts : List Text}
    (hsize : 0 < kind.entrySize)
    (h : forall part, part ∈ parts -> part.length = kind.entrySize) :
    sectionEntries kind parts.flatten = parts := by
  unfold sectionEntries
  rw [length_flatten_of_forall h, Nat.mul_div_cancel _ hsize]
  simpa using chunks_flatten [] h

end Image
end TaintTrace
