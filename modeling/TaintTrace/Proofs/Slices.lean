import Mathlib
import TaintTrace.Proofs.Recording
import TaintTrace.Proofs.WellFormed

/-!
# Reading stays inside of the file

Here a file is read with slices that have bounds: there is no slice when its bounds are
out of order or beyond the end, and then nothing is read at all.  Offsets and sizes are
added and subtracted in 64 bits.  The reader takes slices in the order in which a file is
checked, so the later ones rest on checks made before.  It always has an outcome, and the
outcome is that of plain reading.
-/

namespace TaintTrace
namespace Image

/-!
## Slices
-/

/-- The part of a text between two bounds that are in order and not beyond its end. -/
def slice? (bytes : Text) (low high : Nat) : Option Text :=
  if low ≤ high ∧ high ≤ bytes.length then some ((bytes.drop low).take (high - low)) else none

def tail? (bytes : Text) (low : Nat) : Option Text :=
  slice? bytes low bytes.length

/-- The number in the first bytes of the part from an offset on. -/
def field? (bytes : Text) (offset width : Nat) : Option Nat := do
  let b ← tail? bytes offset
  let digits ← slice? b 0 width
  some (number digits)

theorem slice?_eq {bytes : Text} {low high : Nat} (horder : low ≤ high)
    (hend : high ≤ bytes.length) :
    slice? bytes low high = some ((bytes.drop low).take (high - low)) := by
  unfold slice?
  rw [if_pos ⟨horder, hend⟩]

theorem tail?_eq {bytes : Text} {low : Nat} (h : low ≤ bytes.length) :
    tail? bytes low = some (bytes.drop low) := by
  unfold tail?
  rw [slice?_eq h le_rfl, List.take_of_length_le (by rw [List.length_drop])]

theorem field?_eq {bytes : Text} {offset width : Nat} (h : offset + width ≤ bytes.length) :
    field? bytes offset width = some (field bytes offset width) := by
  have hdigits : slice? (bytes.drop offset) 0 width = some ((bytes.drop offset).take width) := by
    rw [slice?_eq (Nat.zero_le width) (by rw [List.length_drop]; omega), List.drop_zero,
      Nat.sub_zero]
  unfold field?
  rw [tail?_eq (by omega), Option.bind_eq_bind, Option.bind_some, hdigits]
  rfl

/-!
## The section table
-/

def entryAt? (file : Text) (i : Nat) : Option TableEntry := do
  let b ← tail? file (preambleSize + i * tableEntrySize)
  let tag ← field? b 0 4
  let entrySize ← field? b 4 4
  let offset ← field? b 8 8
  let size ← field? b 16 8
  some ⟨tag, entrySize, offset, size⟩

/-- What is wrong with an entry, found with 64-bit numbers. -/
def wordError? (fileSize : UInt64) (e : TableEntry) : Option ImageError :=
  if fileSize < UInt64.ofNat e.offset ∨
      fileSize - UInt64.ofNat e.offset < UInt64.ofNat e.size then some (.outside e)
  else
    match SectionKind.ofTag? e.tag, requiredEntrySize? e.tag with
    | some kind, some expected =>
        if e.entrySize ≠ expected then
          some (.malformed kind (.entrySize e.entrySize expected))
        else if e.size % expected ≠ 0 then
          some (.malformed kind (.size e.size expected))
        else none
    | _, _ => none

def entriesFrom? (file : Text) : (count i : Nat) ->
    Option (Except ImageError (List TableEntry))
  | 0, _ => some (.ok [])
  | count + 1, i => do
      let e ← entryAt? file i
      match wordError? (UInt64.ofNat file.length) e with
      | some fault => some (.error fault)
      | none => (entriesFrom? file count (i + 1)).map (Except.map (e :: ·))

def sectionTable? (file : Text) : Option (Except ImageError (List TableEntry)) :=
  if file.length < preambleSize then
    if magic.length ≤ file.length then do
      let start ← slice? file 0 magic.length
      if start ≠ magic then some (.error .badMagic) else some (.error .truncated)
    else some (.error .truncated)
  else do
    let start ← slice? file 0 magic.length
    if start ≠ magic then some (.error .badMagic)
    else do
      let found ← field? file 4 2
      if found ≠ version then some (.error (.version found))
      else do
        let count ← field? file 6 2
        if file.length < preambleSize + count * tableEntrySize then some (.error .truncated)
        else entriesFrom? file count 0

theorem entryAt?_eq {file : Text} {i : Nat}
    (h : preambleSize + (i + 1) * tableEntrySize ≤ file.length) :
    entryAt? file i = some (entryAt file i) := by
  rw [Nat.succ_mul] at h
  have hroom : tableEntrySize ≤ (file.drop (preambleSize + i * tableEntrySize)).length := by
    rw [List.length_drop]
    omega
  have hsize : tableEntrySize = 24 := rfl
  unfold entryAt? entryAt
  rw [tail?_eq (by omega), Option.bind_eq_bind, Option.bind_some]
  simp (disch := omega) only [field?_eq, Option.bind_eq_bind, Option.bind_some, field_drop,
    Nat.add_zero]

/-- The subtraction in the check never wraps, since it is made only after the offset was
found inside of the file. -/
theorem wordError?_eq {file : Text} {e : TableEntry} (hfile : file.length < 0x10000000000000000)
    (hoffset : e.offset < 0x10000000000000000) (hsize : e.size < 0x10000000000000000) :
    wordError? (UInt64.ofNat file.length) e = entryError? file.length e := by
  have houtside : (UInt64.ofNat file.length < UInt64.ofNat e.offset ∨
      UInt64.ofNat file.length - UInt64.ofNat e.offset < UInt64.ofNat e.size) <->
      file.length < e.offset + e.size := by
    rw [UInt64.lt_iff_toNat_lt, UInt64.lt_iff_toNat_lt, UInt64.toNat_ofNat_of_lt' hfile,
      UInt64.toNat_ofNat_of_lt' hoffset, UInt64.toNat_ofNat_of_lt' hsize]
    -- The difference is taken only once the offset is known to be inside.
    by_cases hlt : file.length < e.offset
    · have hsum : file.length < e.offset + e.size := by omega
      exact iff_of_true (Or.inl hlt) hsum
    · have hle : UInt64.ofNat e.offset ≤ UInt64.ofNat file.length := by
        rw [UInt64.le_iff_toNat_le, UInt64.toNat_ofNat_of_lt' hfile,
          UInt64.toNat_ofNat_of_lt' hoffset]
        omega
      rw [UInt64.toNat_sub_of_le _ _ hle, UInt64.toNat_ofNat_of_lt' hfile,
        UInt64.toNat_ofNat_of_lt' hoffset]
      omega
  unfold wordError? entryError?
  by_cases hout : file.length < e.offset + e.size
  · exact (if_pos (houtside.mpr hout)).trans (if_pos hout).symm
  · exact (if_neg (mt houtside.mp hout)).trans (if_neg hout).symm

theorem entryAt_offset_lt (file : Text) (i : Nat) :
    (entryAt file i).offset < 0x10000000000000000 :=
  field_lt file _ 8

theorem entryAt_size_lt (file : Text) (i : Nat) :
    (entryAt file i).size < 0x10000000000000000 :=
  field_lt file _ 8

theorem entriesFrom?_eq {file : Text} (hfile : file.length < 0x10000000000000000)
    {count i : Nat} (h : preambleSize + (i + count) * tableEntrySize ≤ file.length) :
    entriesFrom? file count i =
      some (match ((List.range' i count).map (entryAt file)).findSome?
          (entryError? file.length) with
        | some e => .error e
        | none => .ok ((List.range' i count).map (entryAt file))) := by
  induction count generalizing i with
  | zero => rfl
  | succ count ih =>
      have hentry : preambleSize + (i + 1) * tableEntrySize ≤ file.length := by
        unfold tableEntrySize at h ⊢
        omega
      have hrest := ih (i := i + 1) (by rwa [Nat.add_assoc, Nat.add_comm 1 count])
      unfold entriesFrom?
      rw [entryAt?_eq hentry, Option.bind_eq_bind, Option.bind_some,
        wordError?_eq hfile (entryAt_offset_lt file i) (entryAt_size_lt file i), hrest,
        List.range'_succ, List.map_cons, List.findSome?_cons]
      cases entryError? file.length (entryAt file i) with
      | some fault => rfl
      | none =>
          dsimp only
          cases ((List.range' (i + 1) count).map (entryAt file)).findSome?
            (entryError? file.length) with
          | some fault => rfl
          | none => rfl

theorem sectionTable?_eq {file : Text} (hfile : file.length < 0x10000000000000000) :
    sectionTable? file = some (checkedTable file) := by
  have hmagic : magic.length = 4 := by decide
  have hstart (h : 4 ≤ file.length) : slice? file 0 4 = some (file.take 4) := by
    rw [slice?_eq (Nat.zero_le 4) h, List.drop_zero]
  unfold sectionTable? checkedTable
  rw [hmagic]
  by_cases hsize : file.length < preambleSize
  · rw [if_pos hsize, if_pos hsize]
    by_cases hfour : 4 ≤ file.length
    · rw [if_pos hfour, hstart hfour, Option.bind_eq_bind, Option.bind_some]
      simp only [hfour, true_and]
      split <;> rfl
    · rw [if_neg hfour]
      simp only [hfour, false_and, if_false]
  · have hlength : 16 ≤ file.length := by
      unfold preambleSize at hsize
      omega
    rw [if_neg hsize, if_neg hsize, hstart (by omega), field?_eq (by omega), field?_eq (by omega)]
    simp only [Option.bind_eq_bind, Option.bind_some]
    split
    · rfl
    · split
      · rfl
      · split
        · rfl
        · rename_i hfits
          rw [entriesFrom?_eq hfile (by rw [Nat.zero_add]; omega), ← List.range_eq_range', table_eq]
          rfl

/-!
## Sections
-/

/-- The content of the last section of each kind, with those found before. -/
def contents? (file : Text) : List TableEntry -> (found : SectionKind -> Option Text) ->
    Option (SectionKind -> Option Text)
  | [], found => some found
  | e :: entries, found => do
      let stop := UInt64.ofNat e.offset + UInt64.ofNat e.size
      let content ← slice? file e.offset stop.toNat
      match SectionKind.ofTag? e.tag with
      | some kind => contents? file entries (Function.update found kind (some content))
      | none => contents? file entries found

/-- The end of a section that is inside of the file does not wrap around. -/
theorem slice?_content {file : Text} {e : TableEntry} (hfile : file.length < 0x10000000000000000)
    (hinside : e.offset + e.size ≤ file.length) :
    slice? file e.offset (UInt64.ofNat e.offset + UInt64.ofNat e.size).toNat =
      some (e.content file) := by
  have hstop : (UInt64.ofNat e.offset + UInt64.ofNat e.size).toNat = e.offset + e.size := by
    have hoffset : e.offset < UInt64.size := by
      change e.offset < 0x10000000000000000
      omega
    have hsize : e.size < UInt64.size := by
      change e.size < 0x10000000000000000
      omega
    rw [UInt64.toNat_add, UInt64.toNat_ofNat_of_lt' hoffset, UInt64.toNat_ofNat_of_lt' hsize]
    exact Nat.mod_eq_of_lt (by omega)
  rw [hstop, slice?_eq (Nat.le_add_right _ _) hinside, Nat.add_sub_cancel_left]
  rfl

theorem section?_cons (file : Text) (e : TableEntry) (entries : List TableEntry)
    (kind : SectionKind) :
    (section? file (e :: entries) kind) =
      (section? file entries kind).or (if e.tag = kind.tag then some (e.content file) else none) := by
  unfold section?
  rw [List.reverse_cons, List.find?_append]
  cases entries.reverse.find? (fun e => e.tag == kind.tag) with
  | some found => rfl
  | none =>
      by_cases htag : e.tag = kind.tag
      · simp [htag]
      · simp [htag]

theorem contents?_eq {file : Text} (hfile : file.length < 0x10000000000000000)
    {entries : List TableEntry} (found : SectionKind -> Option Text)
    (hinside : forall e, e ∈ entries -> e.offset + e.size ≤ file.length) :
    contents? file entries found =
      some fun kind => (section? file entries kind).or (found kind) := by
  induction entries generalizing found with
  | nil => rfl
  | cons e entries ih =>
      have hrest := fun found => ih found fun e' he' => hinside e' (List.mem_cons_of_mem e he')
      unfold contents?
      simp only [slice?_content hfile (hinside e List.mem_cons_self), Option.bind_eq_bind,
        Option.bind_some, hrest, section?_cons, Option.or_assoc]
      cases htag : SectionKind.ofTag? e.tag with
      | none =>
          have hother : forall kind : SectionKind, e.tag ≠ kind.tag := by
            intro kind heq
            rw [ofTag?_eq_some_iff.mpr heq] at htag
            cases htag
          simp [hother]
      | some kind =>
          rw [ofTag?_eq_some_iff] at htag
          refine congrArg some (funext fun other => congrArg _ ?_)
          by_cases hsame : other = kind
          · subst hsame
            simp [htag]
          · have hother : e.tag ≠ other.tag := by
              intro heq
              apply hsame
              exact Option.some.inj ((ofTag?_eq_some_iff.mpr heq).symm.trans
                (ofTag?_eq_some_iff.mpr htag))
            simp [hsame, hother]

/-!
## Headers
-/

def headerAt? (raw names : Text) (i : Nat) : Option (Except ImageError Header) := do
  let b ← tail? raw (i * SectionKind.headers.entrySize)
  let nameOffset ← field? b 0 4
  let nameLength ← field? b 4 4
  if names.length < nameOffset + nameLength then
    some (.error (.malformed .headers (.nameOutside i)))
  else do
    let name ← slice? names nameOffset (nameOffset + nameLength)
    let fd ← field? b 8 4
    let labelBegin ← field? b 16 4
    let labelEnd ← field? b 20 4
    some (.ok ⟨name, (UInt32.ofNat fd).toInt32, UInt32.ofNat labelBegin, UInt32.ofNat labelEnd⟩)

def headersFrom? (raw names : Text) : (count i : Nat) -> Option (Except ImageError (List Header))
  | 0, _ => some (.ok [])
  | count + 1, i => do
      match ← headerAt? raw names i with
      | .error e => some (.error e)
      | .ok h => (headersFrom? raw names count (i + 1)).map (Except.map (h :: ·))

theorem headerAt?_eq {raw : Text} (names : Text) {i : Nat}
    (h : (i + 1) * SectionKind.headers.entrySize ≤ raw.length) :
    headerAt? raw names i =
      some (match headerOfBytes? names ((raw.drop (i * SectionKind.headers.entrySize)).take
          SectionKind.headers.entrySize) with
        | none => .error (.malformed .headers (.nameOutside i))
        | some header => .ok header) := by
  rw [Nat.succ_mul] at h
  have hroom : SectionKind.headers.entrySize ≤
      (raw.drop (i * SectionKind.headers.entrySize)).length := by
    rw [List.length_drop]
    omega
  have hsize : SectionKind.headers.entrySize = 24 := rfl
  unfold headerAt? headerOfBytes?
  rw [tail?_eq (by omega), Option.bind_eq_bind, Option.bind_some]
  generalize raw.drop (i * SectionKind.headers.entrySize) = b at hroom
  rw [hsize] at hroom ⊢
  simp (disch := omega) only [field?_eq, Option.bind_eq_bind, Option.bind_some, field_take]
  split
  · rfl
  · rename_i hinside
    rw [slice?_eq (Nat.le_add_right _ _) (Nat.not_lt.mp hinside), Nat.add_sub_cancel_left]
    rfl

theorem headersFrom?_eq {raw : Text} (names : Text) {count i : Nat}
    (h : (i + count) * SectionKind.headers.entrySize ≤ raw.length) :
    headersFrom? raw names count i =
      some (readHeaders names i ((List.range' i count).map fun j =>
        (raw.drop (j * SectionKind.headers.entrySize)).take SectionKind.headers.entrySize)) := by
  induction count generalizing i with
  | zero => rfl
  | succ count ih =>
      have hfirst : (i + 1) * SectionKind.headers.entrySize ≤ raw.length :=
        Nat.le_trans (Nat.mul_le_mul_right _ (by omega)) h
      have hrest := ih (i := i + 1) (by rwa [Nat.add_assoc, Nat.add_comm 1 count])
      unfold headersFrom?
      rw [headerAt?_eq names hfirst, Option.bind_eq_bind, Option.bind_some, hrest,
        List.range'_succ, List.map_cons, readHeaders]
      cases headerOfBytes? names ((raw.drop (i * SectionKind.headers.entrySize)).take
          SectionKind.headers.entrySize) with
      | none => rfl
      | some header => rfl

/-!
## Opened files
-/

/-- A file that was opened: its headers, and the bytes of the sections whose entries are
decoded when they are asked for. -/
structure View where
  headers : List Header
  labels : Text
  sinks : Text
  taints : Text

def open? (file : Text) : Option (Except ImageError View) := do
  match ← sectionTable? file with
  | .error e => some (.error e)
  | .ok entries => do
      let found ← contents? file entries fun _ => none
      match found .headers, found .labels with
      | none, _ => some (.error (.malformed .headers .missing))
      | some _, none => some (.error (.malformed .labels .missing))
      | some raw, some labels =>
          (headersFrom? raw ((found .names).getD [])
            (raw.length / SectionKind.headers.entrySize) 0).map
              (Except.map fun hs =>
                ⟨hs, labels, (found .sinks).getD [], (found .taints).getD []⟩)

/-- Entries of one size, taken from a section one after the other. -/
def records? {α : Type} (size : Nat) (record? : Text -> Option α) (content : Text) :
    (count offset : Nat) -> Option (List α)
  | 0, _ => some []
  | count + 1, offset => do
      let b ← slice? content offset (offset + size)
      let record ← record? b
      let rest ← records? size record? content count (offset + size)
      some (record :: rest)

def sinkAt? (b : Text) : Option Sink := do
  let offset ← field? b 0 8
  let label ← field? b 8 4
  let output ← field? b 12 1
  some ⟨UInt32.ofNat label, UInt64.ofNat offset, UInt8.ofNat output⟩

def taintAt? (b : Text) : Option OutputTaint := do
  let offset ← field? b 0 8
  let label ← field? b 8 4
  let output ← field? b 12 4
  some ⟨output, UInt64.ofNat offset, UInt32.ofNat label⟩

namespace View

def labelCount (v : View) : Nat :=
  v.labels.length / SectionKind.labels.entrySize

def decode? (v : View) (l : Label) : Option (Except InvalidLabel Node) :=
  match InvalidLabel.find? l v.labelCount with
  | some e => some (.error e)
  | none => do
      let b ← tail? v.labels (l.toNat * SectionKind.labels.entrySize)
      let w ← field? b 0 8
      some (.ok (NodeWord.decode (UInt64.ofNat w)))

def sinks? (v : View) : Option (List Sink) :=
  records? SectionKind.sinks.entrySize sinkAt? v.sinks
    (v.sinks.length / SectionKind.sinks.entrySize) 0

def taints? (v : View) : Option (List OutputTaint) :=
  records? SectionKind.taints.entrySize taintAt? v.taints
    (v.taints.length / SectionKind.taints.entrySize) 0

/-- Whatever is asked of an opened file is answered, as a trace does. -/
structure Shows (v : View) (t : Trace) : Prop where
  headers : v.headers = t.headers
  labelCount : v.labelCount = t.labelCount
  decode : forall l, v.decode? l = some (t.decode l)
  sinks : v.sinks? = some t.sinks
  taints : v.taints? = some t.taints

end View

theorem records?_eq {α : Type} {size : Nat} {record? : Text -> Option α} {ofBytes : Text -> α}
    (hrecord : forall b : Text, b.length = size -> record? b = some (ofBytes b))
    {content : Text} {count offset : Nat} (h : offset + count * size ≤ content.length) :
    records? size record? content count offset =
      some ((chunks size count (content.drop offset)).map ofBytes) := by
  induction count generalizing offset with
  | zero => rfl
  | succ count ih =>
      rw [Nat.succ_mul] at h
      have hpart : ((content.drop offset).take size).length = size := by
        rw [List.length_take, List.length_drop]
        omega
      unfold records?
      rw [slice?_eq (Nat.le_add_right _ _) (by omega), Nat.add_sub_cancel_left,
        ih (by omega), chunks, List.drop_drop]
      simp only [Option.bind_eq_bind, Option.bind_some, hrecord _ hpart, List.map_cons]

theorem sinkAt?_eq {b : Text} (h : b.length = SectionKind.sinks.entrySize) :
    sinkAt? b = some (sinkOfBytes b) := by
  have hlength : b.length = 16 := h
  unfold sinkAt? sinkOfBytes
  simp (disch := omega) only [field?_eq, Option.bind_eq_bind, Option.bind_some]

theorem taintAt?_eq {b : Text} (h : b.length = SectionKind.taints.entrySize) :
    taintAt? b = some (taintOfBytes b) := by
  have hlength : b.length = 16 := h
  unfold taintAt? taintOfBytes
  simp (disch := omega) only [field?_eq, Option.bind_eq_bind, Option.bind_some]

theorem records?_section {α : Type} {kind : SectionKind} {record? : Text -> Option α}
    {ofBytes : Text -> α} (content : Text)
    (hrecord : forall b : Text, b.length = kind.entrySize -> record? b = some (ofBytes b)) :
    records? kind.entrySize record? content (content.length / kind.entrySize) 0 =
      some ((sectionEntries kind content).map ofBytes) := by
  rw [records?_eq hrecord (by rw [Nat.zero_add]; exact Nat.div_mul_le_self _ _), List.drop_zero]
  rfl

theorem View.decode?_eq (v : View) (r : Recording)
    (hwords : r.words = ((sectionEntries .labels v.labels).map fun b =>
      UInt64.ofNat (number b)).toArray) (l : Label) :
    v.decode? l = some (r.decode l) := by
  have hcount : r.words.size = v.labelCount := by
    rw [hwords, sectionEntries, chunks_eq_map]
    simp [View.labelCount]
  unfold View.decode? Recording.decode
  rw [hcount]
  cases hfind : InvalidLabel.find? l v.labelCount with
  | some e => rfl
  | none =>
      have hlt : l.toNat < v.labelCount := by
        unfold InvalidLabel.find? at hfind
        by_contra hbeyond
        rw [if_pos (Or.inr (Nat.not_lt.mp hbeyond))] at hfind
        cases hfind
      have hfits : (l.toNat + 1) * SectionKind.labels.entrySize ≤ v.labels.length :=
        Nat.le_trans (Nat.mul_le_mul_right _ hlt) (Nat.div_mul_le_self _ _)
      have hsize : SectionKind.labels.entrySize = 8 := rfl
      rw [hsize, Nat.succ_mul] at hfits
      have hroom : 0 + 8 ≤ (v.labels.drop (l.toNat * 8)).length := by
        rw [List.length_drop]
        omega
      have hword : r.words.getD l.toNat 0 =
          UInt64.ofNat (field (v.labels.drop (l.toNat * 8)) 0 8) := by
        have hlt' : l.toNat < v.labels.length / 8 := hlt
        rw [hwords, sectionEntries, chunks_eq_map, Array.getD_eq_getD_getElem?]
        simp [hlt', hsize, field]
      rw [hsize, tail?_eq (by omega)]
      simp only [Option.bind_eq_bind, Option.bind_some, field?_eq hroom, hword]

/-- No slice is out of bounds: opening a file has an outcome, and an opened file shows the
trace that is read from it. -/
theorem open?_cases {file : Text} (hfile : file.length < 0x10000000000000000) :
    (exists e, open? file = some (.error e) ∧ read file = .error e) ∨
      exists v r, open? file = some (.ok v) ∧ read file = .ok r ∧ v.Shows r.trace := by
  unfold open? read
  rw [sectionTable?_eq hfile, Option.bind_eq_bind, Option.bind_some]
  cases htable : checkedTable file with
  | error e => exact Or.inl ⟨e, rfl, rfl⟩
  | ok entries =>
      rcases checkedTable_eq_ok_iff.mp htable with ⟨⟨_, _, _, _, herrors⟩, rfl⟩
      -- From here on every slice rests on what the table was checked for.
      have hinside : forall e, e ∈ table file -> e.offset + e.size ≤ file.length := by
        intro e he
        exact (entryError?_eq_none_iff.mp (herrors e he)).1
      dsimp only
      rw [contents?_eq hfile _ hinside]
      simp only [Option.bind_eq_bind, Option.bind_some, Option.or_none]
      cases section? file (table file) .headers with
      | none => exact Or.inl ⟨_, rfl, rfl⟩
      | some raw =>
          cases section? file (table file) .labels with
          | none => exact Or.inl ⟨_, rfl, rfl⟩
          | some labels =>
              dsimp only
              rw [headersFrom?_eq _ (by rw [Nat.zero_add]; exact Nat.div_mul_le_self _ _),
                ← List.range_eq_range', ← chunks_eq_map, ← sectionEntries]
              cases readHeaders ((section? file (table file) .names).getD []) 0
                  (sectionEntries .headers raw) with
              | error e => exact Or.inl ⟨e, rfl, rfl⟩
              | ok hs =>
                  refine Or.inr ⟨_, _, rfl, rfl, ?_⟩
                  constructor
                  · rfl
                  · simp [View.labelCount, Recording.trace, sectionEntries, chunks_eq_map]
                  · intro l
                    exact View.decode?_eq _ _ rfl l
                  · exact records?_section _ fun b => sinkAt?_eq
                  · exact records?_section _ fun b => taintAt?_eq

/-- Reading accepts exactly the well-formed files.  It takes no slice out of bounds, whatever
the file is, and none is taken either when an accepted file is asked for a label, its sinks
or its output taints.  The labels that have nodes are those from one on and below the count. -/
theorem read_accepts_exactly (file : Text) :
    ((exists r, read file = .ok r) <-> WellFormed file) ∧
    (file.length < 0x10000000000000000 ->
      (exists e, open? file = some (.error e) ∧ read file = .error e) ∨
        exists v r, open? file = some (.ok v) ∧ read file = .ok r ∧ v.Shows r.trace) ∧
    forall r, read file = .ok r -> forall l : Label,
      (exists n, r.trace.decode l = .ok n) <-> 1 ≤ l.toNat ∧ l.toNat < r.trace.labelCount := by
  refine ⟨⟨?_, read_ok_of_wellFormed⟩, open?_cases, ?_⟩
  · intro h
    rcases h with ⟨r, hr⟩
    exact wellFormed_of_read_ok hr
  · intro r _
    exact r.decode_ok_iff

/-- A file of nothing but a preamble and a section table.  Its only header is the first
entry of the table, its names are all of the file, and its labels are the preamble. -/
def ouroboros : Text :=
  magic ++ littleEndian 2 version ++ littleEndian 2 3 ++ littleEndian 8 0xc000000000000005
    ++ [⟨1, 24, 16, 24⟩, ⟨2, 9, 0, 88⟩, ⟨3, 8, 0, 16⟩].flatMap TableEntry.bytes

theorem read_accepts_exactly_ouroboros :
    WellFormed ouroboros ∧ ouroboros.length < 0x10000000000000000 ∧
      (exists v r, open? ouroboros = some (.ok v) ∧ read ouroboros = .ok r ∧ v.Shows r.trace) ∧
      exists r, read ouroboros = .ok r ∧
        (exists n, r.trace.decode 1 = .ok n) ∧ ¬ exists n, r.trace.decode 2 = .ok n := by
  have hread : exists r, read ouroboros = .ok r ∧ r.trace.labelCount = 2 := ⟨_, rfl, rfl⟩
  have hlength : ouroboros.length < 0x10000000000000000 := by decide
  rcases hread with ⟨r, hr, hcount⟩
  rcases read_accepts_exactly ouroboros with ⟨hiff, hopen, hlabels⟩
  refine ⟨hiff.mp ⟨r, hr⟩, hlength, ?_, r, hr, ?_, ?_⟩
  · rcases hopen hlength with ⟨e, _, he⟩ | hview
    · rw [hr] at he
      cases he
    · exact hview
  · exact (hlabels r hr 1).mpr (by rw [hcount]; decide)
  · rw [hlabels r hr 2, hcount]
    decide

end Image
end TaintTrace
