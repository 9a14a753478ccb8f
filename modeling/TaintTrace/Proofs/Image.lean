import Mathlib
import TaintTrace.Proofs.Layout
import TaintTrace.Proofs.Recording
import TaintTrace.Proofs.Writing

/-!
# Written files are read back

The entries of the section table point at the sections they are for, because the
offsets run with the lengths of what was written before.  The names are found in the
same way: each offset is the length of the names before it.  So the table passes all
checks, each section is found where it was written, and its entries are the records
that it was made of.
-/

namespace TaintTrace
namespace Image

/-!
## The sections of a written file
-/

theorem length_nameOffsets (offset : Nat) (hs : List Header) :
    (nameOffsets offset hs).length = hs.length := by
  induction hs generalizing offset with
  | nil => rfl
  | cons h hs ih => simp [nameOffsets, ih]

theorem length_of_mem_sectionParts {r : Recording} {kind : SectionKind} (hkind : kind ≠ .names)
    {part : Text} (h : part ∈ sectionParts r kind) : part.length = kind.entrySize := by
  cases kind with
  | headers =>
      rw [sectionParts, ← List.map_uncurry_zip_eq_zipWith] at h
      rcases List.mem_map.1 h with ⟨pair, _, rfl⟩
      exact length_headerBytes pair.1 pair.2
  | names => exact absurd rfl hkind
  | labels =>
      rcases List.mem_map.1 h with ⟨w, _, rfl⟩
      exact littleEndian_length 8 w.toNat
  | sinks =>
      rcases List.mem_map.1 h with ⟨s, _, rfl⟩
      exact length_sinkBytes s
  | taints =>
      rcases List.mem_map.1 h with ⟨t, _, rfl⟩
      exact length_taintBytes t

theorem length_sectionBytes (r : Recording) (kind : SectionKind) :
    (sectionBytes r kind).length = sectionSize r.trace kind := by
  unfold sectionBytes
  by_cases hkind : kind = .names
  · subst hkind
    simp [sectionParts, sectionSize]
  · rw [length_flatten_of_forall fun part => length_of_mem_sectionParts hkind]
    cases kind with
    | names => exact absurd rfl hkind
    | headers => simp [sectionParts, sectionSize, length_nameOffsets]
    | labels => simp [sectionParts, sectionSize, writtenWords, Recording.trace]
    | sinks => simp [sectionParts, sectionSize]
    | taints => simp [sectionParts, sectionSize]

theorem mem_tableFrom {t : Trace} {offset : Nat} {kinds : List SectionKind} {e : TableEntry}
    (h : e ∈ tableFrom t offset kinds) :
    exists kind, e.tag = kind.tag ∧ e.entrySize = kind.entrySize ∧ e.size = sectionSize t kind
      ∧ e.offset + e.size ≤ offset + (kinds.map (sectionSize t)).sum := by
  induction kinds generalizing offset with
  | nil => cases h
  | cons kind kinds ih =>
      rw [List.map_cons, List.sum_cons]
      rcases List.mem_cons.1 h with hhead | htail
      · subst hhead
        exact ⟨kind, rfl, rfl, rfl, by simp only; omega⟩
      · rcases ih htail with ⟨found, htag, hentry, hsize, hinside⟩
        exact ⟨found, htag, hentry, hsize, by omega⟩

/-- Each entry points at the section it is for, whatever comes before and behind. -/
theorem content_tableFrom (r : Recording) (kinds : List SectionKind) (before after : Text) :
    ((tableFrom r.trace before.length kinds).map fun e =>
        (e.tag, e.content (before ++ (kinds.flatMap (sectionBytes r) ++ after))))
      = kinds.map fun kind => (kind.tag, sectionBytes r kind) := by
  induction kinds generalizing before with
  | nil => rfl
  | cons kind kinds ih =>
      have hrest := ih (before ++ sectionBytes r kind)
      simp only [List.length_append, List.append_assoc] at hrest
      simp only [tableFrom, List.map_cons, List.flatMap_cons, List.append_assoc,
        ← length_sectionBytes, hrest]
      simp only [TableEntry.content, List.drop_left, List.take_left]

theorem section?_eq (file : Text) (entries : List TableEntry) (kind : SectionKind) :
    (section? file entries kind) =
      (((entries.map fun e => (e.tag, e.content file)).reverse.find? fun p =>
        p.1 == kind.tag).map Prod.snd) := by
  unfold section?
  rw [← List.map_reverse, List.find?_map, Option.map_map]
  rfl

/-!
## The section table of a written file
-/

theorem length_tableFrom (t : Trace) (offset : Nat) (kinds : List SectionKind) :
    (tableFrom t offset kinds).length = kinds.length := by
  induction kinds generalizing offset with
  | nil => rfl
  | cons kind kinds ih => simp [tableFrom, ih]

theorem length_magic : magic.length = 4 := by decide

@[simp]
theorem length_preamble : preamble.length = preambleSize := by
  simp [preamble, preambleSize, length_magic]

theorem length_of_mem_tableBytes {t : Trace} {part : Text}
    (h : part ∈ (writtenTable t).map TableEntry.bytes) : part.length = tableEntrySize := by
  rcases List.mem_map.1 h with ⟨e, _, rfl⟩
  exact e.length_bytes

@[simp]
theorem length_tableBytes (t : Trace) :
    (tableBytes t).length = sectionOrder.length * tableEntrySize := by
  unfold tableBytes
  rw [length_flatten_of_forall fun part => length_of_mem_tableBytes, List.length_map, writtenTable,
    length_tableFrom]

theorem length_fileOf (r : Recording) :
    (fileOf r).length = preambleSize + sectionOrder.length * tableEntrySize
      + (sectionOrder.map (sectionSize r.trace)).sum := by
  unfold fileOf
  simp only [List.length_append, length_preamble, length_tableBytes, List.length_flatMap,
    length_sectionBytes, Nat.add_assoc]

theorem section?_fileOf (r : Recording) (kind : SectionKind) :
    (section? (fileOf r) (writtenTable r.trace) kind) = some (sectionBytes r kind) := by
  have hcontent := content_tableFrom r sectionOrder (preamble ++ tableBytes r.trace) []
  rw [List.length_append, length_preamble, length_tableBytes, List.append_nil,
    List.append_assoc] at hcontent
  rw [section?_eq, writtenTable, fileOf, hcontent]
  cases kind <;> rfl

theorem ofTag?_tag (kind : SectionKind) : SectionKind.ofTag? kind.tag = some kind := by
  cases kind <;> rfl

theorem entryError?_eq_none {t : Trace} {fileSize : Nat} {e : TableEntry} {kind : SectionKind}
    (htag : e.tag = kind.tag) (hentry : e.entrySize = kind.entrySize)
    (hsize : e.size = sectionSize t kind) (hinside : e.offset + e.size ≤ fileSize) :
    entryError? fileSize e = none := by
  unfold entryError? requiredEntrySize?
  rw [if_neg (Nat.not_lt.2 hinside), htag, ofTag?_tag, hentry, hsize]
  cases kind <;> simp [sectionSize]

theorem preamble_fields (rest : Text) :
    (preamble ++ rest).take 4 = magic ∧ field (preamble ++ rest) 4 2 = version
      ∧ field (preamble ++ rest) 6 2 = sectionOrder.length := by
  have hrow : preamble ++ rest = magic ++ (littleEndian 2 version
      ++ (littleEndian 2 sectionOrder.length ++ (littleEndian 8 0 ++ rest))) := by
    simp [preamble]
  have hmagic (offset width : Nat) (tail : Text) (h : 4 ≤ offset) :
      field (magic ++ tail) offset width = field tail (offset - 4) width := by
    rw [field_append width tail (by simpa [length_magic] using h), length_magic]
  have hversion : version < Nat.pow 256 2 := by decide
  have hcount : sectionOrder.length < Nat.pow 256 2 := by decide
  rw [hrow]
  refine ⟨List.take_left' length_magic, ?_, ?_⟩
  · rw [hmagic 4 2 _ le_rfl, field_littleEndian _ le_rfl hversion]
  · rw [hmagic 6 2 _ (by omega), field_skip _ _ _ (by omega), field_littleEndian _ le_rfl hcount]

/-- The section table is read back in front of anything when all offsets fit 64 bits. -/
theorem table_written {t : Trace} (rest : Text)
    (hend : preambleSize + sectionOrder.length * tableEntrySize
      + (sectionOrder.map (sectionSize t)).sum < 0x10000000000000000) :
    table (preamble ++ (tableBytes t ++ rest)) = writtenTable t := by
  have hcount : field (preamble ++ (tableBytes t ++ rest)) 6 2
      = ((writtenTable t).map TableEntry.bytes).length := by
    rw [List.length_map, writtenTable, length_tableFrom]
    exact (preamble_fields _).2.2
  have hentry : forall e, e ∈ writtenTable t -> TableEntry.ofBytes e.bytes = e := by
    intro e he
    rcases mem_tableFrom he with ⟨kind, htag, hentry, _, hinside⟩
    have hsmall : kind.tag < 0x100000000 ∧ kind.entrySize < 0x100000000 := by
      cases kind <;> decide
    apply TableEntry.ofBytes_bytes <;> omega
  unfold table
  rw [hcount, ← length_preamble, List.drop_left, tableBytes,
    chunks_flatten _ fun part => length_of_mem_tableBytes, map_read_map hentry]

theorem table_fileOf {r : Recording} (hlength : (fileOf r).length < 0x10000000000000000) :
    table (fileOf r) = writtenTable r.trace := by
  rw [length_fileOf] at hlength
  exact table_written _ hlength

theorem checkedTable_fileOf {r : Recording} (hlength : (fileOf r).length < 0x10000000000000000) :
    checkedTable (fileOf r) = .ok (writtenTable r.trace) := by
  have hfields := preamble_fields (tableBytes r.trace ++ sectionOrder.flatMap (sectionBytes r))
  rw [← fileOf] at hfields
  have hsize := length_fileOf r
  have hsound : (writtenTable r.trace).findSome? (entryError? (fileOf r).length) = none := by
    rw [List.findSome?_eq_none_iff]
    intro e he
    rcases mem_tableFrom he with ⟨kind, htag, hentry, hsection, hinside⟩
    rw [← length_fileOf] at hinside
    exact entryError?_eq_none htag hentry hsection hinside
  unfold checkedTable
  rw [table_fileOf hlength, if_neg (by omega), if_neg (by simp [hfields.1]),
    if_neg (by simp [hfields.2.1]), if_neg (by rw [hfields.2.2]; omega)]
  simp only [hsound]

/-!
## The records of a written file
-/

theorem readHeaders_written (before after : Text) (index : Nat) {hs : List Header}
    (h : before.length + (nameBytes hs).length < 0x100000000) :
    readHeaders (before ++ (nameBytes hs ++ after)) index
      (List.zipWith headerBytes (nameOffsets before.length hs) hs) = .ok hs := by
  induction hs generalizing before index with
  | nil => rfl
  | cons header hs ih =>
      have hnames : nameBytes (header :: hs) = header.name ++ nameBytes hs := List.flatMap_cons
      rw [hnames, List.length_append] at h
      have hfirst : headerOfBytes? (before ++ (header.name ++ (nameBytes hs ++ after)))
          (headerBytes before.length header) = some header :=
        headerOfBytes?_headerBytes _ (by omega) (by omega)
      have hrest := ih (before ++ header.name) (index + 1) (by rw [List.length_append]; omega)
      simp only [List.length_append, List.append_assoc] at hrest
      simp only [nameOffsets, List.zipWith_cons_cons, readHeaders, hnames, List.append_assoc,
        hfirst, hrest, Except.map]

theorem sectionEntries_sectionBytes (r : Recording) {kind : SectionKind} (hkind : kind ≠ .names) :
    sectionEntries kind (sectionBytes r kind) = sectionParts r kind := by
  have hsize : 0 < kind.entrySize := by
    cases kind with
    | names => exact absurd rfl hkind
    | headers => decide
    | labels => decide
    | sinks => decide
    | taints => decide
  exact sectionEntries_flatten hsize fun part => length_of_mem_sectionParts hkind

/-- The file of a recording is read back, with the word zero for label zero. -/
theorem read_fileOf {r : Recording}
    (hnames : (nameBytes r.trace.headers).length < 0x100000000)
    (houtputs : forall t, t ∈ r.trace.taints -> 0 ≤ t.output ∧ t.output < 0x100000000)
    (hlength : (fileOf r).length < 0x10000000000000000) :
    read (fileOf r) = .ok { r with words := writtenWords r } := by
  have hheaders : readHeaders (sectionBytes r .names) 0 (sectionParts r .headers)
      = .ok r.headers.toList := by
    have hread : readHeaders ([] ++ (nameBytes r.trace.headers ++ [])) 0
        (sectionParts r .headers) = .ok r.headers.toList :=
      readHeaders_written [] [] 0 (by simpa using hnames)
    simpa [sectionBytes, sectionParts] using hread
  have hwords : (sectionParts r .labels).map (fun b => UInt64.ofNat (number b))
      = (writtenWords r).toList := map_read_map fun w _ => word_littleEndian w
  have hsinks : (sectionParts r .sinks).map sinkOfBytes = r.sinks.toList :=
    map_read_map fun s _ => sinkOfBytes_sinkBytes s
  have htaints : (sectionParts r .taints).map taintOfBytes = r.taints.toList :=
    map_read_map fun t ht => taintOfBytes_taintBytes (houtputs t ht).1 (houtputs t ht).2
  unfold read
  simp only [checkedTable_fileOf hlength, section?_fileOf, Option.getD_some,
    sectionEntries_sectionBytes r (show SectionKind.headers ≠ .names by decide),
    sectionEntries_sectionBytes r (show SectionKind.labels ≠ .names by decide),
    sectionEntries_sectionBytes r (show SectionKind.sinks ≠ .names by decide),
    sectionEntries_sectionBytes r (show SectionKind.taints ≠ .names by decide),
    hheaders, hwords, hsinks, htaints, Except.map, Array.toArray_toList]

/-- Whatever the operations that made a recording, its file is read back as that recording,
so every query on it has the same answer.  The names have to fit the 32-bit offsets of a
header, the outputs their 32-bit field, and the file the 64-bit offsets of its sections. -/
theorem write_then_read {ops : List Recording.Operation} {r : Recording}
    (hops : Recording.empty.performAll ops = .ok r)
    (hnames : (nameBytes r.trace.headers).length < 0x100000000)
    (houtputs : forall t, t ∈ r.trace.taints -> 0 ≤ t.output ∧ t.output < 0x100000000) :
    exists file, (write r.trace).run r.trace = .ok file
      ∧ (file.length < 0x10000000000000000 -> read file = .ok r) := by
  have hbounded : r.Bounded := Recording.bounded_performAll Recording.bounded_empty hops
  have hcount : r.words.size ≤ 0x100000000 := by
    have hfits := hbounded.fits
    simp only [NodeWord.labelSpan, Label.max] at hfits
    omega
  refine ⟨fileOf r, write_run hcount, ?_⟩
  intro hlength
  rw [read_fileOf hnames houtputs hlength, writtenWords_eq hbounded.untainted]

/-- A recording with an unnamed file, every kind of node, marked labels and two outputs. -/
def session : List Recording.Operation :=
  [.file "in" 2, .file [] 0, .output "out", .source 0 1, .union 2 1, .range 1 3,
    .node ⟨.source 7 9, true⟩, .controlFlow [1, 4], .sink 2 0 4, .taint 2 5 0,
    .write 2 0 [4, 5]]

theorem write_then_read_session :
    exists r file, Recording.empty.performAll session = .ok r
      ∧ (nameBytes r.trace.headers).length < 0x100000000
      ∧ (forall t, t ∈ r.trace.taints -> 0 ≤ t.output ∧ t.output < 0x100000000)
      ∧ file.length < 0x10000000000000000
      ∧ (write r.trace).run r.trace = .ok file ∧ read file = .ok r := by
  have hsession : exists r, Recording.empty.performAll session = .ok r
      ∧ (nameBytes r.trace.headers).length < 0x100000000
      ∧ (forall t, t ∈ r.trace.taints -> 0 ≤ t.output ∧ t.output < 0x100000000)
      ∧ (fileOf r).length < 0x10000000000000000 ∧ r.words.size ≤ 0x100000000 :=
    ⟨_, rfl, by decide, by decide, by rw [length_fileOf]; decide, by decide⟩
  rcases hsession with ⟨r, hops, hnames, houtputs, hlength, hcount⟩
  rcases write_then_read hops hnames houtputs with ⟨file, hwrite, hread⟩
  have hfile : file = fileOf r := Except.ok.inj (hwrite.symm.trans (write_run hcount))
  rw [← hfile] at hlength
  exact ⟨r, file, hops, hnames, houtputs, hlength, hwrite, hread hlength⟩

end Image
end TaintTrace
