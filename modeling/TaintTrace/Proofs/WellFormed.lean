import Mathlib
import TaintTrace.Proofs.Layout

/-!
# Which files are read

What a well-formed file is can be said with the numbers at fixed places of it: the
preamble, the entries of the section table, and the names that the last section of
headers points to.  Reading succeeds on exactly these files.
-/

namespace TaintTrace
namespace Image

/-!
## Well-formed files
-/

def entryCount (file : Text) : Nat :=
  field file 6 2

def entryAt (file : Text) (i : Nat) : TableEntry :=
  let start := preambleSize + i * tableEntrySize
  ⟨field file start 4, field file (start + 4) 4, field file (start + 8) 8,
    field file (start + 16) 8⟩

/-- Of the entries for one kind of section the last one counts. -/
structure IsLast (file : Text) (kind : SectionKind) (i : Nat) : Prop where
  lt : i < entryCount file
  tag : (entryAt file i).tag = kind.tag
  later : forall j, i < j -> j < entryCount file -> (entryAt file j).tag ≠ kind.tag

/-- The size of the section that counts, zero if there is none. -/
def HasSize (file : Text) (kind : SectionKind) (size : Nat) : Prop :=
  (exists i, IsLast file kind i ∧ size = (entryAt file i).size) ∨
    ((forall i, i < entryCount file -> (entryAt file i).tag ≠ kind.tag) ∧ size = 0)

/-- Sums of offsets and sizes are sums of numbers here: they never wrap around. -/
structure WellFormed (file : Text) : Prop where
  size : preambleSize ≤ file.length
  magic : file.take 4 = magic
  version : field file 4 2 = version
  table : preambleSize + entryCount file * tableEntrySize ≤ file.length
  inside : forall i, i < entryCount file ->
    (entryAt file i).offset + (entryAt file i).size ≤ file.length
  entries : forall i (kind : SectionKind), i < entryCount file ->
    (entryAt file i).tag = kind.tag -> kind ≠ .names ->
      (entryAt file i).entrySize = kind.entrySize ∧ kind.entrySize ∣ (entryAt file i).size
  headers : exists i, i < entryCount file ∧ (entryAt file i).tag = SectionKind.headers.tag
  labels : exists i, i < entryCount file ∧ (entryAt file i).tag = SectionKind.labels.tag
  names : forall i room j, IsLast file .headers i -> HasSize file .names room ->
    j < (entryAt file i).size / SectionKind.headers.entrySize ->
      field file ((entryAt file i).offset + j * SectionKind.headers.entrySize) 4
        + field file ((entryAt file i).offset + j * SectionKind.headers.entrySize + 4) 4 ≤ room

/-!
## The section table
-/

theorem table_eq (file : Text) : table file = (List.range (entryCount file)).map (entryAt file) := by
  unfold table entryCount
  rw [chunks_eq_map, List.map_map]
  apply List.map_congr_left
  intro i _
  have hfield (offset width : Nat) (h : offset + width ≤ tableEntrySize) :
      field (((file.drop preambleSize).drop (i * tableEntrySize)).take tableEntrySize) offset width
        = field file (preambleSize + i * tableEntrySize + offset) width := by
    rw [field_take _ h, field_drop, field_drop, Nat.add_assoc]
  rw [Function.comp_apply, TableEntry.ofBytes, entryAt, hfield 0 4 (by decide),
    hfield 4 4 (by decide), hfield 8 8 (by decide), hfield 16 8 (by decide), Nat.add_zero]

theorem mem_table_iff {file : Text} {e : TableEntry} :
    e ∈ table file <-> exists i, i < entryCount file ∧ entryAt file i = e := by
  simp [table_eq]

theorem ofTag?_eq_some_iff {tag : Nat} {kind : SectionKind} :
    SectionKind.ofTag? tag = some kind <-> tag = kind.tag := by
  constructor
  · intro h
    unfold SectionKind.ofTag? at h
    split at h <;> cases h <;> rfl
  · intro h
    subst h
    cases kind <;> rfl

theorem sizeFault_eq_none_iff (kind : SectionKind) (found expected size : Nat) :
    (if found ≠ expected then some (ImageError.malformed kind (.entrySize found expected))
      else if size % expected ≠ 0 then some (.malformed kind (.size size expected))
      else none) = none <-> found = expected ∧ expected ∣ size := by
  rw [Nat.dvd_iff_mod_eq_zero]
  by_cases hfound : found = expected
  · rw [if_neg (not_not.mpr hfound)]
    simp [hfound]
  · rw [if_pos hfound]
    simp [hfound]

theorem entryError?_eq_none_iff {fileSize : Nat} {e : TableEntry} :
    entryError? fileSize e = none <->
      e.offset + e.size ≤ fileSize ∧
        forall kind : SectionKind, e.tag = kind.tag -> kind ≠ .names ->
          e.entrySize = kind.entrySize ∧ kind.entrySize ∣ e.size := by
  unfold entryError?
  by_cases hinside : fileSize < e.offset + e.size
  · rw [if_pos hinside]
    simp only [reduceCtorEq, false_iff, not_and]
    intro hle
    omega
  · rw [if_neg hinside]
    have hle : e.offset + e.size ≤ fileSize := by omega
    simp only [hle, true_and, ← ofTag?_eq_some_iff, requiredEntrySize?]
    cases SectionKind.ofTag? e.tag with
    | none => simp
    | some kind =>
        cases kind with
        | names => simp
        | headers => simp only [sizeFault_eq_none_iff]; simp
        | labels => simp only [sizeFault_eq_none_iff]; simp
        | sinks => simp only [sizeFault_eq_none_iff]; simp
        | taints => simp only [sizeFault_eq_none_iff]; simp

theorem checkedTable_eq_ok_iff {file : Text} {entries : List TableEntry} :
    checkedTable file = .ok entries <->
      (preambleSize ≤ file.length ∧ file.take 4 = magic ∧ field file 4 2 = version ∧
        preambleSize + entryCount file * tableEntrySize ≤ file.length ∧
        forall e, e ∈ table file -> entryError? file.length e = none) ∧
      table file = entries := by
  unfold checkedTable entryCount
  by_cases hsize : file.length < preambleSize
  · rw [if_pos hsize, ite_eq_iff]
    simp
    omega
  · rw [if_neg hsize]
    by_cases hmagic : file.take 4 = magic
    · rw [if_neg (not_not.mpr hmagic)]
      by_cases hversion : field file 4 2 = version
      · rw [if_neg (not_not.mpr hversion)]
        by_cases htable : file.length < preambleSize + field file 6 2 * tableEntrySize
        · rw [if_pos htable]
          simp
          omega
        · rw [if_neg htable]
          dsimp only
          cases hfound : (table file).findSome? (entryError? file.length) with
          | some e =>
              simp only [reduceCtorEq, false_iff, not_and]
              intro hall
              rw [List.findSome?_eq_none_iff.mpr hall.2.2.2.2] at hfound
              cases hfound
          | none =>
              rw [List.findSome?_eq_none_iff] at hfound
              simp only [Except.ok.injEq, hmagic, hversion, Nat.not_lt.mp hsize,
                Nat.not_lt.mp htable, true_and]
              exact (and_iff_right hfound).symm
      · rw [if_pos hversion]
        simp [hversion]
    · rw [if_pos hmagic]
      simp [hmagic]

/-!
## Sections
-/

theorem find?_reverse_map_range {f : Nat -> TableEntry} {p : TableEntry -> Bool} {n : Nat}
    {e : TableEntry} :
    ((List.range n).map f).reverse.find? p = some e <->
      exists i, i < n ∧ f i = e ∧ p (f i) = true ∧ forall j, i < j -> j < n -> p (f j) = false := by
  induction n with
  | zero => simp
  | succ n ih =>
      rw [List.range_succ, List.map_append, List.reverse_append, List.map_singleton,
        List.reverse_singleton, List.singleton_append, List.find?_cons]
      cases hlast : p (f n) with
      | true =>
          constructor
          · intro h
            cases h
            exact ⟨n, Nat.lt_succ_self n, rfl, hlast, fun j hj hjn => by omega⟩
          · intro h
            rcases h with ⟨i, hi, he, _, hlater⟩
            by_cases heq : i = n
            · rw [← heq, he]
            · rw [hlater n (by omega) (Nat.lt_succ_self n)] at hlast
              cases hlast
      | false =>
          rw [ih]
          constructor
          · intro h
            rcases h with ⟨i, hi, he, hp, hlater⟩
            refine ⟨i, by omega, he, hp, ?_⟩
            intro j hij hj
            by_cases heq : j = n
            · rw [heq, hlast]
            · exact hlater j hij (by omega)
          · intro h
            rcases h with ⟨i, hi, he, hp, hlater⟩
            have hne : i ≠ n := by
              intro heq
              rw [heq, hlast] at hp
              cases hp
            exact ⟨i, by omega, he, hp, fun j hij hj => hlater j hij (by omega)⟩

theorem section?_eq_some_iff {file content : Text} {kind : SectionKind} :
    (section? file (table file) kind) = some content <->
      exists i, IsLast file kind i ∧ (entryAt file i).content file = content := by
  unfold section?
  rw [Option.map_eq_some_iff, table_eq]
  constructor
  · intro h
    rcases h with ⟨e, hfound, hcontent⟩
    rcases find?_reverse_map_range.mp hfound with ⟨i, hi, he, htag, hlater⟩
    subst he
    refine ⟨i, ⟨hi, by simpa using htag, ?_⟩, hcontent⟩
    intro j hij hj
    simpa using hlater j hij hj
  · intro h
    rcases h with ⟨i, hlast, hcontent⟩
    refine ⟨entryAt file i, find?_reverse_map_range.mpr ⟨i, hlast.lt, rfl, ?_, ?_⟩, hcontent⟩
    · simpa using hlast.tag
    · intro j hij hj
      simpa using hlast.later j hij hj

theorem section?_eq_none_iff {file : Text} {kind : SectionKind} :
    (section? file (table file) kind) = none <->
      forall i, i < entryCount file -> (entryAt file i).tag ≠ kind.tag := by
  unfold section?
  rw [Option.map_eq_none_iff, List.find?_eq_none]
  simp [table_eq]

theorem length_content {file : Text} {e : TableEntry} (h : e.offset + e.size ≤ file.length) :
    (e.content file).length = e.size := by
  unfold TableEntry.content
  rw [List.length_take, List.length_drop, Nat.min_eq_left (by omega)]

theorem hasSize_iff {file : Text} {room : Nat} {kind : SectionKind}
    (hinside : forall i, i < entryCount file ->
      (entryAt file i).offset + (entryAt file i).size ≤ file.length) :
    HasSize file kind room <-> ((section? file (table file) kind).getD []).length = room := by
  unfold HasSize
  cases hsection : section? file (table file) kind with
  | none =>
      have hnone := section?_eq_none_iff.mp hsection
      have hlast : ¬ exists i, IsLast file kind i ∧ room = (entryAt file i).size := by
        intro h
        rcases h with ⟨i, hlast, _⟩
        exact hnone i hlast.lt hlast.tag
      rw [or_iff_right hlast, and_iff_right hnone, Option.getD_none, List.length_nil, eq_comm]
  | some content =>
      rcases section?_eq_some_iff.mp hsection with ⟨i, hi, hcontent⟩
      have hlength : content.length = (entryAt file i).size := by
        rw [← hcontent]
        exact length_content (hinside i hi.lt)
      have hunique : forall k, IsLast file kind k -> k = i := by
        intro k hk
        by_contra hne
        rcases Nat.lt_or_gt_of_ne hne with hlt | hgt
        · exact hk.later i hlt hi.lt hi.tag
        · exact hi.later k hgt hk.lt hk.tag
      rw [Option.getD_some, hlength]
      constructor
      · intro h
        rcases h with ⟨k, hk, hroom⟩ | ⟨hnone, _⟩
        · rw [hroom, hunique k hk]
        · exact absurd hi.tag (hnone i hi.lt)
      · intro h
        exact Or.inl ⟨i, hi, h.symm⟩

/-!
## Headers
-/

theorem headerOfBytes?_eq_none_iff {names b : Text} :
    headerOfBytes? names b = none <-> names.length < field b 0 4 + field b 4 4 := by
  unfold headerOfBytes?
  simp

theorem readHeaders_ok_iff {names : Text} {index : Nat} {parts : List Text} :
    (exists hs, readHeaders names index parts = .ok hs) <->
      forall b, b ∈ parts -> field b 0 4 + field b 4 4 ≤ names.length := by
  induction parts generalizing index with
  | nil => simp [readHeaders]
  | cons b parts ih =>
      have hrest := @ih (index + 1)
      rw [List.forall_mem_cons, ← hrest, readHeaders]
      cases hheader : headerOfBytes? names b with
      | none =>
          have hlt := headerOfBytes?_eq_none_iff.mp hheader
          simp
          omega
      | some h =>
          have hle : field b 0 4 + field b 4 4 ≤ names.length := by
            by_contra hlt
            rw [headerOfBytes?_eq_none_iff.mpr (by omega)] at hheader
            cases hheader
          cases readHeaders names (index + 1) parts with
          | error e => simp [Except.map]
          | ok hs => simp [Except.map, hle]

theorem field_chunk {file : Text} {e : TableEntry} {size j offset width : Nat}
    (hwidth : offset + width ≤ size) (hj : j < e.size / size) :
    field (((e.content file).drop (j * size)).take size) offset width =
      field file (e.offset + j * size + offset) width := by
  have hfits : j * size + size ≤ e.size := by
    calc j * size + size = (j + 1) * size := (Nat.succ_mul j size).symm
      _ ≤ e.size / size * size := Nat.mul_le_mul_right size hj
      _ ≤ e.size := Nat.div_mul_le_self e.size size
  rw [field_take _ hwidth, field_drop, TableEntry.content, field_take _ (by omega), field_drop,
    Nat.add_assoc]

theorem readHeaders_section_iff {file names : Text} {e : TableEntry}
    (hinside : e.offset + e.size ≤ file.length) :
    (exists hs, readHeaders names 0 (sectionEntries .headers (e.content file)) = .ok hs) <->
      forall j, j < e.size / SectionKind.headers.entrySize ->
        field file (e.offset + j * SectionKind.headers.entrySize) 4
          + field file (e.offset + j * SectionKind.headers.entrySize + 4) 4 ≤ names.length := by
  rw [readHeaders_ok_iff, sectionEntries, chunks_eq_map, length_content hinside,
    List.forall_mem_map]
  simp only [List.mem_range]
  refine forall_congr' fun j => forall_congr' fun hj => ?_
  rw [field_chunk (by decide) hj, field_chunk (by decide) hj, Nat.add_zero]

/-!
## Reading
-/

theorem map_eq_ok_iff {ε α β : Type} {x : Except ε α} {f : α -> β} {b : β} :
    x.map f = .ok b <-> exists a, x = .ok a ∧ f a = b := by
  cases x with
  | error e => simp [Except.map]
  | ok a => simp [Except.map]

theorem read_eq_ok_iff {file : Text} {r : Recording} :
    read file = .ok r <->
      checkedTable file = .ok (table file) ∧
      exists headers labels hs, (section? file (table file) .headers) = some headers ∧
        (section? file (table file) .labels) = some labels ∧
        readHeaders ((section? file (table file) .names).getD []) 0
          (sectionEntries .headers headers) = .ok hs ∧
        { headers := hs.toArray
          words := ((sectionEntries .labels labels).map fun b => UInt64.ofNat (number b)).toArray
          sinks := ((sectionEntries .sinks
            ((section? file (table file) .sinks).getD [])).map sinkOfBytes).toArray
          taints := ((sectionEntries .taints
            ((section? file (table file) .taints).getD [])).map taintOfBytes).toArray } = r := by
  unfold read
  cases htable : checkedTable file with
  | error e => simp
  | ok entries =>
      have hentries : table file = entries := (checkedTable_eq_ok_iff.mp htable).2
      subst hentries
      dsimp only
      cases section? file (table file) .headers with
      | none => simp
      | some headers =>
          cases section? file (table file) .labels with
          | none => simp
          | some labels =>
              dsimp only
              rw [map_eq_ok_iff]
              simp

theorem read_ok_of_wellFormed {file : Text} (h : WellFormed file) :
    exists r, read file = .ok r := by
  have htable : checkedTable file = .ok (table file) := by
    refine checkedTable_eq_ok_iff.mpr ⟨⟨h.size, h.magic, h.version, h.table, ?_⟩, rfl⟩
    intro e he
    rcases mem_table_iff.mp he with ⟨i, hi, rfl⟩
    exact entryError?_eq_none_iff.mpr ⟨h.inside i hi, fun kind => h.entries i kind hi⟩
  have hpresent (kind : SectionKind)
      (hkind : exists i, i < entryCount file ∧ (entryAt file i).tag = kind.tag) :
      exists i, IsLast file kind i := by
    cases hsection : section? file (table file) kind with
    | none =>
        rcases hkind with ⟨i, hi, htag⟩
        exact absurd htag (section?_eq_none_iff.mp hsection i hi)
    | some content =>
        rcases section?_eq_some_iff.mp hsection with ⟨i, hi, _⟩
        exact ⟨i, hi⟩
  rcases hpresent .headers h.headers with ⟨i, hi⟩
  rcases hpresent .labels h.labels with ⟨k, hk⟩
  have hnames := (readHeaders_section_iff (h.inside i hi.lt)).mpr
    fun j hj => h.names i _ j hi ((hasSize_iff h.inside).mpr rfl) hj
  rcases hnames with ⟨hs, hhs⟩
  have hheaders := section?_eq_some_iff.mpr ⟨i, hi, rfl⟩
  have hlabels := section?_eq_some_iff.mpr ⟨k, hk, rfl⟩
  exact ⟨_, read_eq_ok_iff.mpr ⟨htable, _, _, hs, hheaders, hlabels, hhs, rfl⟩⟩

theorem wellFormed_of_read_ok {file : Text} {r : Recording} (h : read file = .ok r) :
    WellFormed file := by
  rcases read_eq_ok_iff.mp h with ⟨htable, headers, labels, hs, hheaders, hlabels, hhs, _⟩
  rcases (checkedTable_eq_ok_iff.mp htable).1 with ⟨hsize, hmagic, hversion, hfits, herrors⟩
  have hentries : forall i, i < entryCount file ->
      (entryAt file i).offset + (entryAt file i).size ≤ file.length ∧
        forall kind : SectionKind, (entryAt file i).tag = kind.tag -> kind ≠ .names ->
          (entryAt file i).entrySize = kind.entrySize ∧
            kind.entrySize ∣ (entryAt file i).size := by
    intro i hi
    exact entryError?_eq_none_iff.mp (herrors _ (mem_table_iff.mpr ⟨i, hi, rfl⟩))
  have hinside := fun i hi => (hentries i hi).1
  rcases section?_eq_some_iff.mp hheaders with ⟨i, hi, hcontent⟩
  rcases section?_eq_some_iff.mp hlabels with ⟨k, hk, _⟩
  refine ⟨hsize, hmagic, hversion, hfits, hinside, fun i kind hi => (hentries i hi).2 kind,
    ⟨i, hi.lt, hi.tag⟩, ⟨k, hk.lt, hk.tag⟩, ?_⟩
  intro i' room j hi' hroom hj
  have hheaders' := section?_eq_some_iff.mpr ⟨i', hi', rfl⟩
  rw [hheaders] at hheaders'
  cases hheaders'
  rw [← (hasSize_iff hinside).mp hroom]
  exact (readHeaders_section_iff (hinside i' hi'.lt)).mp ⟨hs, hhs⟩ j hj

end Image
end TaintTrace
