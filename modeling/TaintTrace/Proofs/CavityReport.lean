import Mathlib
import TaintTrace.Flow.Report
import TaintTrace.Proofs.PrintableLine
import TaintTrace.Proofs.Slices

/-!
# Cavity reports are exact

A report with contents has an entry for each cavity: its line and, if its file can be read,
the bytes around the cavity with carets below those of the cavity itself.  The bytes are one
slice of the file, cut off at its ends, and are shown in printable characters between quotes.
Carets are placed by columns, since a byte may be shown by several characters.  Every file is
read once.
-/

namespace TaintTrace
namespace Text

/-!
## Escaped bytes
-/

/-- A text that can stand between double quotes.  Read from the left, a backslash takes the
byte behind it along, and no other byte is a quote. -/
inductive Quotable : Text -> Prop
  | nil : Quotable []
  | plain {b : UInt8} {t : Text} (hquote : b ≠ byte '"') (hslash : b ≠ byte '\\')
      (ht : Quotable t) : Quotable (b :: t)
  | escape {b : UInt8} {t : Text} (ht : Quotable t) : Quotable (byte '\\' :: b :: t)

variable {s t : Text}

theorem Quotable.append (hs : Quotable s) (ht : Quotable t) : Quotable (s ++ t) := by
  induction hs with
  | nil => exact ht
  | plain hquote hslash _ ih => exact .plain hquote hslash ih
  | escape _ ih => exact .escape ih

def isBare (b : UInt8) : Bool :=
  0x20 ≤ b && b < 0x7f && b != byte '"' && b != byte '\\'

theorem isBare_iff {b : UInt8} :
    isBare b = true <-> (0x20 ≤ b ∧ b < 0x7f) ∧ b ≠ byte '"' ∧ b ≠ byte '\\' := by
  simp [isBare, and_assoc]

theorem quotable_of_bare (h : t.all isBare = true) : Quotable t := by
  induction t with
  | nil => exact .nil
  | cons b t ih =>
      rw [List.all_cons, Bool.and_eq_true] at h
      have hb := isBare_iff.mp h.1
      exact .plain hb.2.1 hb.2.2 (ih h.2)

theorem isBare_of_mem_digitChars {c : Char} (h : c ∈ digitChars) : isBare (byte c) = true := by
  have hall : digitChars.all (fun c => isBare (byte c)) = true := by decide
  exact List.all_eq_true.mp hall c h

theorem all_isBare_hex (n : Nat) : (hex n).all isBare = true := by
  rw [List.all_eq_true]
  intro b hb
  rcases List.mem_map.mp hb with ⟨c, hc, rfl⟩
  exact isBare_of_mem_digitChars (mem_digitChars (by decide) n c hc)

/-- A byte is shown as itself, or by a backslash and printable bytes of which all but the
first one need no backslash of their own. -/
theorem escapedByte_cases (b : UInt8) :
    (escapedByte b = [b] ∧ isBare b = true) ∨
    exists x rest, escapedByte b = byte '\\' :: x :: rest ∧ (0x20 ≤ x ∧ x < 0x7f) ∧
      rest.all isBare = true := by
  unfold escapedByte
  by_cases hslash : b = byte '\\'
  · rw [if_pos hslash]
    exact Or.inr ⟨byte '\\', [], rfl, by decide, rfl⟩
  by_cases hquote : b = byte '"'
  · rw [if_neg hslash, if_pos hquote]
    exact Or.inr ⟨byte '"', [], rfl, by decide, rfl⟩
  rw [if_neg hslash, if_neg hquote]
  by_cases hprintable : 0x20 ≤ b ∧ b ≤ 0x7e
  · rw [if_pos hprintable]
    refine Or.inl ⟨rfl, isBare_iff.mpr ⟨⟨hprintable.1, ?_⟩, hquote, hslash⟩⟩
    have hle := UInt8.le_iff_toNat_le.mp hprintable.2
    exact UInt8.lt_iff_toNat_lt.mpr (Nat.lt_succ_of_le hle)
  rw [if_neg hprintable]
  refine Or.inr ?_
  split
  · exact ⟨byte '0', [], rfl, by decide, rfl⟩
  split
  · exact ⟨byte 'n', [], rfl, by decide, rfl⟩
  split
  · exact ⟨byte 't', [], rfl, by decide, rfl⟩
  split
  · exact ⟨byte 'r', [], rfl, by decide, rfl⟩
  split
  · rename_i hsmall
    have hlt : b.toNat < 10 := UInt8.lt_iff_toNat_lt.mp hsmall
    have hdigit : ofNat b.toNat = [byte b.toNat.digitChar] := by
      unfold ofNat
      rw [Nat.toDigits_of_lt_base hlt]
      rfl
    have hbare := isBare_iff.mp (isBare_of_mem_digitChars (digitChar_mem b.toNat))
    refine ⟨byte b.toNat.digitChar, [], ?_, hbare.1, rfl⟩
    rw [hdigit]
    rfl
  · exact ⟨byte 'x', hex b.toNat, rfl, by decide, all_isBare_hex _⟩

theorem printable_escapedByte (b : UInt8) : (escapedByte b).Printable := by
  rcases escapedByte_cases b with ⟨hself, hb⟩ | ⟨x, rest, hescape, hx, hrest⟩
  · rw [hself]
    intro c hc
    rw [List.mem_singleton.mp hc]
    exact (isBare_iff.mp hb).1
  · rw [hescape]
    intro c hc
    rcases List.mem_cons.mp hc with rfl | hc
    · decide
    · rcases List.mem_cons.mp hc with rfl | hc
      · exact hx
      · exact (isBare_iff.mp (List.all_eq_true.mp hrest c hc)).1

theorem quotable_escapedByte (b : UInt8) : Quotable (escapedByte b) := by
  rcases escapedByte_cases b with ⟨hself, hb⟩ | ⟨x, rest, hescape, hx, hrest⟩
  · rw [hself]
    exact quotable_of_bare (by rw [List.all_cons, hb]; rfl)
  · rw [hescape]
    exact .escape (quotable_of_bare hrest)

theorem printable_escaped (t : Text) : t.escaped.Printable := by
  intro c hc
  rcases List.mem_flatMap.mp hc with ⟨b, _, hb⟩
  exact printable_escapedByte b c hb

theorem quotable_escaped (t : Text) : Quotable t.escaped := by
  induction t with
  | nil => exact .nil
  | cons b t ih => exact (quotable_escapedByte b).append ih

theorem escaped_append (s t : Text) : (s ++ t).escaped = s.escaped ++ t.escaped :=
  List.flatMap_append

/-!
## Columns
-/

/-- For each column of an escaped text, the index of the byte that it shows; the first byte
has a given index. -/
def columnBytes : (index : Nat) -> Text -> List Nat
  | _, [] => []
  | index, b :: t => List.replicate (escapedByte b).length index ++ columnBytes (index + 1) t

theorem length_columnBytes (index : Nat) (t : Text) :
    (columnBytes index t).length = t.escaped.length := by
  induction t generalizing index with
  | nil => rfl
  | cons b t ih =>
      rw [columnBytes, List.length_append, List.length_replicate, ih]
      exact List.length_append.symm

theorem columnBytes_append (index : Nat) (s t : Text) :
    columnBytes index (s ++ t) = columnBytes index s ++ columnBytes (index + s.length) t := by
  induction s generalizing index with
  | nil => rfl
  | cons b s ih =>
      rw [List.cons_append, columnBytes, columnBytes, ih, List.append_assoc, List.length_cons,
        Nat.add_right_comm, Nat.add_assoc]

theorem mem_columnBytes {index i : Nat} (h : i ∈ columnBytes index t) :
    index ≤ i ∧ i < index + t.length := by
  induction t generalizing index with
  | nil => cases h
  | cons b t ih =>
      rw [List.length_cons]
      rcases List.mem_append.mp h with hhead | htail
      · have hi := (List.mem_replicate.mp hhead).2
        omega
      · have hi := ih htail
        omega

/-- Marks below the columns of the middle part of a text: blanks as far as the part in front
of it reaches, and then as many carets as the middle part has columns. -/
theorem marks_eq_caret_iff (start : Nat) (before middle after : Text) (j : Nat) :
    (List.replicate before.escaped.length space
        ++ List.replicate middle.escaped.length (byte '^'))[j]? = some (byte '^') <->
      exists i, (columnBytes start (before ++ (middle ++ after)))[j]? = some i ∧
        start + before.length ≤ i ∧ i < start + before.length + middle.length := by
  have hbefore := length_columnBytes start before
  have hmiddle := length_columnBytes (start + before.length) middle
  rw [columnBytes_append, columnBytes_append]
  -- A column belongs to the part in front, to the middle part or to what is behind it, where
  -- there are no marks at all.
  by_cases hj : j < before.escaped.length
  · rw [List.getElem?_append_left (by rwa [List.length_replicate]),
      List.getElem?_append_left (by rwa [hbefore]), List.getElem?_replicate_of_lt hj]
    refine iff_of_false (by decide) ?_
    intro h
    rcases h with ⟨i, hi, hlow, _⟩
    have hmem := mem_columnBytes (List.mem_of_getElem? hi)
    omega
  · rw [List.getElem?_append_right (by rw [List.length_replicate]; omega),
      List.getElem?_append_right (by rw [hbefore]; omega), List.length_replicate, hbefore]
    generalize j - before.escaped.length = j
    by_cases hj : j < middle.escaped.length
    · rw [List.getElem?_replicate_of_lt hj, List.getElem?_append_left (by rwa [hmiddle])]
      refine iff_of_true rfl ?_
      have hi := List.getElem?_eq_getElem (by rwa [hmiddle] : j < (columnBytes _ middle).length)
      exact ⟨_, hi, mem_columnBytes (List.mem_of_getElem? hi)⟩
    · rw [List.getElem?_eq_none (by rw [List.length_replicate]; omega),
        List.getElem?_append_right (by rw [hmiddle]; omega)]
      refine iff_of_false (by simp) ?_
      intro h
      rcases h with ⟨i, hi, _, hhigh⟩
      have hmem := mem_columnBytes (List.mem_of_getElem? hi)
      omega

end Text

namespace CavityReport

open Text

/-!
## Excerpts

The bounds of an excerpt are taken in 64 bits, and the file is cut with slices that have
bounds.
-/

def sum? (a b : UInt64) : Option UInt64 :=
  if a.toNat + b.toNat < UInt64.size then some (a + b) else none

/-- An excerpt that is there only if no sum wraps and no slice has bounds out of order or
beyond the end. -/
def excerpt? (content : Text) (c : Cavity) (n : UInt64) : Option Excerpt := do
  let size := UInt64.ofNat content.length
  let first := clamp size c.first
  let stop := if clamp size c.stop < first then first else clamp size c.stop
  let start := if n < first then first - n else 0
  let limit ← sum? stop n
  let before ← Image.slice? content start.toNat first.toNat
  let within ← Image.slice? content first.toNat stop.toNat
  let after ← Image.slice? content stop.toNat (clamp size limit).toNat
  some ⟨before, within, after⟩

def firstIn (size : Nat) (c : Cavity) : Nat :=
  min c.first.toNat size

/-- Where a cavity ends in a file of a size, never before it begins. -/
def stopIn (size : Nat) (c : Cavity) : Nat :=
  max (firstIn size c) (min c.stop.toNat size)

theorem toNat_clamp (size x : UInt64) : (clamp size x).toNat = min x.toNat size.toNat := by
  unfold clamp
  split
  · rename_i h
    rw [UInt64.lt_iff_toNat_lt] at h
    omega
  · rename_i h
    rw [UInt64.lt_iff_toNat_lt] at h
    omega

theorem toNat_raised (x y : UInt64) : (if y < x then x else y).toNat = max x.toNat y.toNat := by
  split
  · rename_i h
    rw [UInt64.lt_iff_toNat_lt] at h
    omega
  · rename_i h
    rw [UInt64.lt_iff_toNat_lt] at h
    omega

theorem toNat_lowered (x n : UInt64) : (if n < x then x - n else 0).toNat = x.toNat - n.toNat := by
  split
  · rename_i h
    exact UInt64.toNat_sub_of_le _ _ (UInt64.le_of_lt h)
  · rename_i h
    rw [UInt64.lt_iff_toNat_lt] at h
    rw [UInt64.toNat_zero]
    omega

theorem firstIn_le_stopIn (size : Nat) (c : Cavity) : firstIn size c ≤ stopIn size c :=
  Nat.le_max_left _ _

theorem stopIn_le (size : Nat) (c : Cavity) : stopIn size c ≤ size :=
  Nat.max_le.mpr ⟨Nat.min_le_right _ _, Nat.min_le_right _ _⟩

def excerptIn (content : Text) (c : Cavity) (n : Nat) : Excerpt :=
  let first := firstIn content.length c
  let stop := stopIn content.length c
  ⟨content.extract (first - n) first, content.extract first stop,
    content.extract stop (min (stop + n) content.length)⟩

variable {content : Text} {c : Cavity} {n : UInt64}

theorem excerpt_exact (hsize : content.length < 2 ^ 63) (hn : n.toNat < 2 ^ 63) :
    excerpt content c n = excerptIn content c n.toNat ∧
      excerpt? content c n = some (excerptIn content c n.toNat) := by
  have hlength : (UInt64.ofNat content.length).toNat = content.length :=
    UInt64.toNat_ofNat_of_lt' (hsize.trans (by decide))
  have horder := firstIn_le_stopIn content.length c
  have hend := stopIn_le content.length c
  unfold excerpt excerpt? excerptIn slice
  dsimp only
  generalize UInt64.ofNat content.length = size at hlength
  have hfirst : (clamp size c.first).toNat = firstIn content.length c := by
    rw [toNat_clamp, hlength]
    rfl
  generalize clamp size c.first = first at hfirst
  have hstop : (if clamp size c.stop < first then first else clamp size c.stop).toNat =
      stopIn content.length c := by
    rw [toNat_raised, hfirst, toNat_clamp, hlength]
    rfl
  generalize (if clamp size c.stop < first then first else clamp size c.stop) = stop at hstop
  have hstart := toNat_lowered first n
  generalize (if n < first then first - n else 0) = start at hstart
  have hsum : stop.toNat + n.toNat < UInt64.size := by
    have hsize64 : UInt64.size = 2 ^ 63 + 2 ^ 63 := by decide
    omega
  have hlimit : (clamp size (stop + n)).toNat =
      min (stopIn content.length c + n.toNat) content.length := by
    rw [toNat_clamp, UInt64.toNat_add, Nat.mod_eq_of_lt hsum, hstop, hlength]
  rw [hfirst] at hstart
  constructor
  · rw [hstart, hfirst, hstop, hlimit]
  · rw [sum?, if_pos hsum, Option.bind_eq_bind, Option.bind_some, hstart, hfirst, hstop, hlimit,
      Image.slice?_eq (Nat.sub_le _ _) (horder.trans hend), Image.slice?_eq horder hend,
      Image.slice?_eq (Nat.le_min.mpr ⟨Nat.le_add_right _ _, hend⟩) (Nat.min_le_right _ _)]
    rfl

theorem extract_append_extract {low mid high : Nat} (content : Text) (hlow : low ≤ mid)
    (hhigh : mid ≤ high) :
    content.extract low mid ++ content.extract mid high = content.extract low high := by
  have hwidth : high - low = (mid - low) + (high - mid) := by omega
  simp only [List.extract_eq_take_drop]
  rw [hwidth, List.take_add, List.drop_drop, Nat.add_sub_cancel' hlow]

theorem length_extract {low high : Nat} (hhigh : high ≤ content.length) :
    (content.extract low high).length = high - low := by
  simp only [List.extract_eq_take_drop, List.length_take, List.length_drop]
  omega

def shownBytes (content : Text) (c : Cavity) (n : Nat) : Text :=
  content.extract (firstIn content.length c - n)
    (min (stopIn content.length c + n) content.length)

/-- What is shown of a file for a cavity, and the marks below it.  Both have the same columns,
and a caret stands below each column that shows a byte of the cavity and nowhere else. -/
structure Pictures (content : Text) (c : Cavity) (n : Nat) (shown marks : Text) : Prop where
  slice : shown = (shownBytes content c n).escaped
  printable : shown.Printable
  quotable : Quotable shown
  blanks : forall b, b ∈ marks -> b = space ∨ b = byte '^'
  carets : forall j : Nat, marks[j]? = some (byte '^') <->
    exists i, (columnBytes (firstIn content.length c - n) (shownBytes content c n))[j]? = some i ∧
      firstIn content.length c ≤ i ∧ i < stopIn content.length c

theorem excerptIn_parts (content : Text) (c : Cavity) (n : Nat) :
    (excerptIn content c n).before ++
        ((excerptIn content c n).within ++ (excerptIn content c n).after) =
      shownBytes content c n ∧
    firstIn content.length c - n + (excerptIn content c n).before.length =
      firstIn content.length c ∧
    firstIn content.length c + (excerptIn content c n).within.length =
      stopIn content.length c := by
  have horder := firstIn_le_stopIn content.length c
  have hend := stopIn_le content.length c
  have hlimit : stopIn content.length c ≤ min (stopIn content.length c + n) content.length :=
    Nat.le_min.mpr ⟨Nat.le_add_right _ _, hend⟩
  unfold excerptIn shownBytes
  dsimp only
  rw [extract_append_extract content horder hlimit,
    extract_append_extract content (Nat.sub_le _ _) (horder.trans hlimit),
    length_extract (horder.trans hend), length_extract hend]
  exact ⟨rfl, by omega, by omega⟩

theorem exists_pictures (content : Text) (c : Cavity) (n : Nat) :
    exists shown marks, Pictures content c n shown marks ∧
      (excerptLines (excerptIn content c n)).flatten =
        ("\t\"" ++ shown ++ "\"\n" : Text) ++ ("\t " ++ marks ++ "\n" : Text) := by
  rcases excerptIn_parts content c n with ⟨hparts, hbefore, hwithin⟩
  generalize excerptIn content c n = e at *
  refine ⟨(shownBytes content c n).escaped, List.replicate e.before.escaped.length space
    ++ List.replicate e.within.escaped.length (byte '^'), ⟨rfl, ?_, ?_, ?_, ?_⟩, ?_⟩
  · exact printable_escaped _
  · exact quotable_escaped _
  · intro b hb
    rcases List.mem_append.mp hb with hb | hb
    · exact Or.inl (List.mem_replicate.mp hb).2
    · exact Or.inr (List.mem_replicate.mp hb).2
  · intro j
    have hmarks := marks_eq_caret_iff (firstIn content.length c - n) e.before e.within e.after j
    rwa [hparts, hbefore, hwithin] at hmarks
  · rw [← hparts, escaped_append, escaped_append]
    simp only [excerptLines, List.flatten_cons, List.flatten_nil, List.append_assoc,
      List.append_nil]

/-!
## Entries of a report
-/

inductive Entry (readFile : Text -> FileContent) (n : Nat) (c : Cavity) : Text -> Prop
  | unreadable {cause : Text} (hread : readFile c.path = .error cause) :
      Entry readFile n c (plain [c])
  | readable {content shown marks : Text} (hread : readFile c.path = .ok content)
      (hpictures : Pictures content c n shown marks) :
      Entry readFile n c
        (plain [c] ++ (("\t\"" ++ shown ++ "\"\n" : Text) ++ ("\t " ++ marks ++ "\n" : Text)))

def entryText (n : UInt64) (c : Cavity) : FileContent -> Text
  | .ok content => lineOf c ++ (excerptLines (excerpt content c n)).flatten
  | .error _ => lineOf c

variable {readFile : Text -> FileContent}

@[simp]
theorem text_pieces (w : Written) (reads : List Text) :
    Written.text ⟨w.pieces, reads⟩ = w.text := rfl

@[simp]
theorem text_line (t : Text) (pieces : List Piece) (reads : List Text) :
    Written.text ⟨.line t :: pieces, reads⟩ = t ++ Written.text ⟨pieces, reads⟩ :=
  List.flatMap_cons

@[simp]
theorem text_warning (m : Message) (pieces : List Piece) (reads : List Text) :
    Written.text ⟨.warning m :: pieces, reads⟩ = Written.text ⟨pieces, reads⟩ :=
  List.flatMap_cons

@[simp]
theorem text_lines (ts : List Text) (pieces : List Piece) (reads : List Text) :
    Written.text ⟨ts.map Piece.line ++ pieces, reads⟩ =
      ts.flatten ++ Written.text ⟨pieces, reads⟩ := by
  induction ts with
  | nil => rfl
  | cons t ts ih => simp [ih]

/-- Contents that were read before are those that would be read now, so the entry of a cavity
does not depend on the cavities in front of it. -/
theorem text_writeFrom (n : UInt64) (known : List (Text × FileContent)) (cavities : List Cavity)
    (hknown : forall p, p ∈ known -> p.2 = readFile p.1) :
    (writeFrom readFile n known cavities).text =
      cavities.flatMap fun c => entryText n c (readFile c.path) := by
  induction cavities generalizing known with
  | nil => rfl
  | cons c cavities ih =>
      rw [List.flatMap_cons, writeFrom]
      cases hfind : known.find? (·.1 == c.path) with
      | some p =>
          have hcontent : p.2 = readFile c.path := by
            have hpath := List.find?_some hfind
            rw [hknown p (List.mem_of_find?_eq_some hfind), beq_iff_eq.mp hpath]
          rw [← ih known hknown, ← hcontent]
          rcases p with ⟨path, content⟩
          cases content with
          | error cause => simp [entryText]
          | ok content => simp [entryText]
      | none =>
          have hrest := ih ((c.path, readFile c.path) :: known)
            (List.forall_mem_cons.mpr ⟨rfl, hknown⟩)
          dsimp only
          rw [← hrest]
          cases hread : readFile c.path with
          | error cause => simp [entryText]
          | ok content => simp [entryText]

theorem reads_writeFrom (n : UInt64) (known : List (Text × FileContent))
    (cavities : List Cavity) :
    (writeFrom readFile n known cavities).reads =
      ((cavities.map Cavity.path).filter fun p => p ∉ known.map Prod.fst).eraseDups := by
  induction cavities generalizing known with
  | nil => rfl
  | cons c cavities ih =>
      rw [writeFrom, List.map_cons]
      cases hfind : known.find? (·.1 == c.path) with
      | some p =>
          have hmem : c.path ∈ known.map Prod.fst := by
            have hpath := List.find?_some hfind
            rw [← beq_iff_eq.mp hpath]
            exact List.mem_map_of_mem (List.mem_of_find?_eq_some hfind)
          rw [List.filter_cons_of_neg (by simpa using hmem)]
          exact ih known
      | none =>
          have hmem : c.path ∉ known.map Prod.fst := by
            intro h
            rcases List.mem_map.mp h with ⟨p, hp, hpath⟩
            exact List.find?_eq_none.mp hfind p hp (beq_iff_eq.mpr hpath)
          -- Leaving out the later occurrences of the path is the same as knowing it.
          have hnew : forall p, (!p == c.path && decide (p ∉ known.map Prod.fst)) =
              decide (p ∉ ((c.path, readFile c.path) :: known).map Prod.fst) := by
            intro p
            rw [beq_eq_decide, ← decide_not, ← Bool.decide_and, List.map_cons]
            exact decide_eq_decide.mpr (by rw [List.mem_cons, not_or])
          rw [List.filter_cons_of_pos (by simpa using hmem), List.eraseDups_cons,
            List.filter_filter]
          simp only [hnew]
          exact congrArg (c.path :: ·) (ih _)

theorem exists_entries (n : UInt64) (hn : n.toNat < 2 ^ 63) (cavities : List Cavity)
    (hsize : forall path content, readFile path = .ok content -> content.length < 2 ^ 63) :
    exists entries, List.Forall₂ (Entry readFile n.toNat) cavities entries ∧
      (cavities.flatMap fun c => entryText n c (readFile c.path)) = entries.flatten := by
  induction cavities with
  | nil => exact ⟨[], .nil, rfl⟩
  | cons c cavities ih =>
      rcases ih with ⟨entries, hentries, htext⟩
      have hline : lineOf c = plain [c] := (List.append_nil _).symm
      cases hread : readFile c.path with
      | error cause =>
          refine ⟨plain [c] :: entries, .cons (.unreadable hread) hentries, ?_⟩
          rw [List.flatMap_cons, htext, hread, List.flatten_cons, entryText, hline]
      | ok content =>
          rcases exists_pictures content c n.toNat with ⟨shown, marks, hpictures, hlines⟩
          refine ⟨_ :: entries, .cons (.readable hread hpictures) hentries, ?_⟩
          rw [List.flatMap_cons, htext, hread, List.flatten_cons, entryText,
            (excerpt_exact (hsize _ _ hread) hn).1, hlines, hline]

/-- A report with contents is exact, whatever the bounds of the cavities.  For a cavity whose
file can be read, no slice of the file is out of range and no sum wraps.  Every file is read once,
in the order in which the cavities name them first.  The text is one entry after the other: the
line of the cavity, and exactly if the file can be read, the bytes around it and the carets
below. -/
theorem withContext_exact (readFile : Text -> FileContent) (contextBytes : Int64)
    (cavities : List Cavity)
    (hsize : forall path content, readFile path = .ok content -> content.length < 2 ^ 63) :
    (forall c content, c ∈ cavities -> readFile c.path = .ok content ->
      excerpt? content c (UInt64.ofNat contextBytes.toInt.toNat) =
        some (excerpt content c (UInt64.ofNat contextBytes.toInt.toNat))) ∧
    (withContext readFile contextBytes.toInt cavities).reads =
      (cavities.map Cavity.path).eraseDups ∧
    exists entries,
      List.Forall₂ (Entry readFile contextBytes.toInt.toNat) cavities entries ∧
      (withContext readFile contextBytes.toInt cavities).text = entries.flatten := by
  have hbound : contextBytes.toInt.toNat < 2 ^ 63 := by
    have hlt := contextBytes.toInt_lt
    omega
  have hn : (UInt64.ofNat contextBytes.toInt.toNat).toNat = contextBytes.toInt.toNat :=
    UInt64.toNat_ofNat_of_lt' (hbound.trans (by decide))
  generalize hwide : UInt64.ofNat contextBytes.toInt.toNat = n at hn
  rw [← hn] at hbound ⊢
  refine ⟨?_, ?_, ?_⟩
  · intro c content _ hread
    have hexact := excerpt_exact (c := c) (hsize _ _ hread) hbound
    rw [hexact.1, hexact.2]
  · unfold withContext
    rw [hwide, reads_writeFrom, List.filter_eq_self.mpr (by simp)]
  · rcases exists_entries n hbound cavities hsize with ⟨entries, hentries, htext⟩
    refine ⟨entries, hentries, ?_⟩
    unfold withContext
    rw [hwide, text_writeFrom n [] cavities (by simp), htext]

/-- A file with a quote, bytes that are no characters and a letter, and no other file. -/
def drawer (path : Text) : FileContent :=
  if path = "a" then .ok [0x22, 0x00, 0x41, 0xff] else .error "no such file"

/-- A cavity of two bytes, one of a missing file, and one that ends before it begins. -/
def drawerCavities : List Cavity :=
  [⟨"a", 1, 3⟩, ⟨"b", 0, 1⟩, ⟨"a", 9, 2⟩]

theorem withContext_exact_drawer :
    (forall path content, drawer path = .ok content -> content.length < 2 ^ 63) ∧
    (withContext drawer (Int64.ofNat 1).toInt drawerCavities).reads = ["a", "b"] ∧
    exists entries,
      List.Forall₂ (Entry drawer (Int64.ofNat 1).toInt.toNat) drawerCavities entries ∧
      entries.flatten = Text.ofLines ["a\t1 - 3", "\t\"\\\"\\0A\\xff\"", "\t   ^^^", "b\t0 - 1",
        "a\t9 - 2", "\t\"\\xff\"", "\t     "] := by
  have hsize : forall path content, drawer path = .ok content -> content.length < 2 ^ 63 := by
    intro path content hread
    unfold drawer at hread
    split at hread
    · cases hread
      decide
    · cases hread
  rcases withContext_exact drawer (Int64.ofNat 1) drawerCavities hsize with
    ⟨_, hreads, entries, hentries, htext⟩
  exact ⟨hsize, hreads.trans rfl, entries, hentries, htext.symm.trans (by decide +kernel)⟩

end CavityReport
end TaintTrace
