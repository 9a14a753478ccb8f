import Mathlib
import TaintTrace.Command.Session

/-!
# Texts that are harmless to a terminal

A terminal shows most bytes and obeys the others.  A text is harmless when the only
things to obey in it are line ends, tabs and the sequences for colours that the program
itself writes.  Numbers and quoted texts are harmless whatever they are made of.
-/

namespace TaintTrace
namespace Text

/-- Whether a byte is shown, or only moves to another line or column: it is no control byte
but tab, newline or carriage return. -/
def isPlain (b : UInt8) : Bool :=
  b == tab || b == newline || b == 0x0d || (space ≤ b && b != 0x7f)

def colours : List Text :=
  [Session.blue, Session.red, Session.green, Session.reset]

/-- A text of plain bytes and sequences for colours. -/
inductive Harmless : Text -> Prop where
  | nil : Harmless []
  | byte {b : UInt8} {t : Text} (hb : isPlain b = true) (ht : Harmless t) : Harmless (b :: t)
  | colour {c t : Text} (hc : c ∈ colours) (ht : Harmless t) : Harmless (c ++ t)

variable {s t u : Text} {b : UInt8}

theorem Harmless.of_plain (h : forall b, b ∈ t -> isPlain b = true) : Harmless t := by
  induction t with
  | nil => exact .nil
  | cons b t ih =>
      rw [List.forall_mem_cons] at h
      exact .byte h.1 (ih h.2)

theorem Harmless.of_all (h : t.all isPlain = true) : Harmless t :=
  .of_plain (List.all_eq_true.mp h)

def isPlainString (s : String) : Bool :=
  (ofString s).all isPlain

@[simp]
theorem harmless_ofString {s : String} (h : isPlainString s = true) : Harmless (ofString s) :=
  .of_all h

theorem Harmless.append (hs : Harmless s) (ht : Harmless t) : Harmless (s ++ t) := by
  induction hs with
  | nil => exact ht
  | byte hb _ ih => exact .byte hb ih
  | colour hc _ ih =>
      rw [List.append_assoc]
      exact .colour hc ih

theorem harmless_of_mem_colours (h : t ∈ colours) : Harmless t := by
  rw [← List.append_nil t]
  exact .colour h .nil

/-!
## Reading a harmless text

No plain byte begins a colour, and no colour is the beginning of another one.  So a
harmless text can be read in one way only, and what follows a harmless text is harmless
exactly if both together are.
-/

theorem mem_colours_iff {c : Text} : c ∈ colours <->
    c = [0x1b, 0x5b, 0x33, 0x34, 0x6d] ∨ c = [0x1b, 0x5b, 0x33, 0x31, 0x6d] ∨
      c = [0x1b, 0x5b, 0x33, 0x32, 0x6d] ∨ c = [0x1b, 0x5b, 0x30, 0x6d] := by
  have hcolours : colours = [[0x1b, 0x5b, 0x33, 0x34, 0x6d], [0x1b, 0x5b, 0x33, 0x31, 0x6d],
      [0x1b, 0x5b, 0x33, 0x32, 0x6d], [0x1b, 0x5b, 0x30, 0x6d]] := by
    decide
  rw [hcolours]
  simp

theorem exists_of_mem_colours (h : t ∈ colours) : exists rest, t = 0x1b :: rest := by
  rcases mem_colours_iff.mp h with rfl | rfl | rfl | rfl <;> exact ⟨_, rfl⟩

theorem eq_of_append_eq {c d : Text} (hc : c ∈ colours) (hd : d ∈ colours)
    (h : c ++ t = d ++ u) : c = d ∧ t = u := by
  rcases mem_colours_iff.mp hc with rfl | rfl | rfl | rfl <;>
    rcases mem_colours_iff.mp hd with rfl | rfl | rfl | rfl <;>
    simp_all

theorem harmless_cons_iff (hb : isPlain b = true) : Harmless (b :: t) <-> Harmless t := by
  constructor
  · intro h
    generalize hu : b :: t = u at h
    cases h with
    | nil => cases hu
    | byte _ ht =>
        cases hu
        exact ht
    | colour hc _ =>
        rcases exists_of_mem_colours hc with ⟨rest, rfl⟩
        cases hu
        cases hb
  · exact Harmless.byte hb

theorem harmless_colour_iff {c : Text} (hc : c ∈ colours) :
    Harmless (c ++ t) <-> Harmless t := by
  constructor
  · intro h
    generalize hu : c ++ t = u at h
    cases h with
    | nil =>
        rcases exists_of_mem_colours hc with ⟨rest, rfl⟩
        cases hu
    | byte hb _ =>
        rcases exists_of_mem_colours hc with ⟨rest, rfl⟩
        cases hu
        cases hb
    | colour hd ht =>
        rw [(eq_of_append_eq hc hd hu).2]
        exact ht
  · exact Harmless.colour hc

@[simp]
theorem harmless_append_iff (hs : Harmless s) : Harmless (s ++ t) <-> Harmless t := by
  induction hs with
  | nil => rfl
  | byte hb _ ih => rw [List.cons_append, harmless_cons_iff hb, ih]
  | colour hc _ ih => rw [List.append_assoc, harmless_colour_iff hc, ih]

/-- A plain byte that stands in no colour cuts a harmless text into two. -/
theorem harmless_cut_iff (hb : isPlain b = true) (hfree : forall c, c ∈ colours -> b ∉ c) :
    Harmless (s ++ b :: t) <-> Harmless s ∧ Harmless t := by
  constructor
  · intro h
    generalize hu : s ++ b :: t = u at h
    induction h generalizing s with
    | nil => simp at hu
    | byte hd ht ih =>
        cases s with
        | nil =>
            cases hu
            exact ⟨.nil, ht⟩
        | cons d s =>
            cases hu
            rcases ih rfl with ⟨hs, ht⟩
            exact ⟨.byte hd hs, ht⟩
    | colour hc hv ih =>
        rename_i c v
        rcases List.append_eq_append_iff.mp hu with ⟨rest, rfl, hrest⟩ | ⟨rest, rfl, hrest⟩
        · cases rest with
          | nil =>
              rw [List.append_nil] at hc
              rw [List.nil_append] at hrest
              rw [← hrest, harmless_cons_iff hb] at hv
              exact ⟨harmless_of_mem_colours hc, hv⟩
          | cons d rest =>
              cases hrest
              exact absurd (List.mem_append_right s List.mem_cons_self) (hfree _ hc)
        · rcases ih hrest.symm with ⟨hs, ht⟩
          exact ⟨.colour hc hs, ht⟩
  · intro h
    exact h.1.append (.byte hb h.2)

/-!
## Lines on the terminal
-/

theorem onTerminal_cons (b : UInt8) (t : Text) :
    Session.onTerminal (b :: t) =
      (if b = newline then [0x0d, b] else [b]) ++ Session.onTerminal t := rfl

theorem onTerminal_append (s t : Text) :
    Session.onTerminal (s ++ t) = Session.onTerminal s ++ Session.onTerminal t :=
  List.flatMap_append

theorem exists_of_onTerminal_eq_append {c : Text}
    (hc : forall b, b ∈ c -> b ≠ 0x0d ∧ b ≠ newline) (h : Session.onTerminal t = c ++ u) :
    exists rest, t = c ++ rest ∧ Session.onTerminal rest = u := by
  induction c generalizing t with
  | nil => exact ⟨t, rfl, h⟩
  | cons d c ih =>
      rw [List.forall_mem_cons] at hc
      cases t with
      | nil => cases h
      | cons b t =>
          rw [onTerminal_cons] at h
          split at h
          · injection h with hd _
            exact absurd hd.symm hc.1.1
          · injection h with hd hrest
            rcases ih hc.2 hrest with ⟨rest, rfl, hu⟩
            exact ⟨rest, by rw [hd]; rfl, hu⟩

theorem no_lineEnd_of_mem_colours {c : Text} (h : c ∈ colours) :
    forall b, b ∈ c -> b ≠ 0x0d ∧ b ≠ newline := by
  rcases mem_colours_iff.mp h with rfl | rfl | rfl | rfl <;> simp [newline]

theorem Harmless.onTerminal (h : Harmless t) : Harmless (Session.onTerminal t) := by
  induction h with
  | nil => exact .nil
  | byte hb _ ih =>
      rw [onTerminal_cons]
      split
      · exact .byte rfl (.byte hb ih)
      · exact .byte hb ih
  | colour hc _ ih =>
      rename_i c t _
      have hsame : Session.onTerminal c = c := by
        rcases mem_colours_iff.mp hc with rfl | rfl | rfl | rfl <;> rfl
      rw [onTerminal_append, hsame]
      exact .colour hc ih

theorem harmless_onTerminal_iff : Harmless (Session.onTerminal t) <-> Harmless t := by
  constructor
  · intro h
    -- A colour takes several bytes at once, so the induction is on the length.
    induction hn : t.length using Nat.strong_induction_on generalizing t with
    | _ n ih =>
        subst hn
        generalize hu : Session.onTerminal t = u at h
        cases t with
        | nil => exact .nil
        | cons b t =>
            cases h with
            | nil =>
                rw [onTerminal_cons] at hu
                split at hu <;> cases hu
            | byte hb ht =>
                rw [onTerminal_cons] at hu
                split at hu
                · rename_i hline
                  subst hline
                  cases hu
                  change Harmless (newline :: Session.onTerminal t) at ht
                  rw [harmless_cons_iff rfl] at ht
                  exact .byte rfl (ih t.length (Nat.lt_succ_self _) ht rfl)
                · cases hu
                  exact .byte hb (ih t.length (Nat.lt_succ_self _) ht rfl)
            | colour hc ht =>
                rcases exists_of_onTerminal_eq_append (no_lineEnd_of_mem_colours hc) hu with
                  ⟨rest, hrest, rfl⟩
                have hless : rest.length < (b :: t).length := by
                  rcases exists_of_mem_colours hc with ⟨more, rfl⟩
                  rw [hrest]
                  simp
                rw [hrest]
                exact .colour hc (ih rest.length hless ht rfl)
  · exact Harmless.onTerminal

/-!
## Lists of texts
-/

theorem harmless_flatten {ts : List Text} (h : forall t, t ∈ ts -> Harmless t) :
    Harmless ts.flatten := by
  induction ts with
  | nil => exact .nil
  | cons t ts ih =>
      rw [List.forall_mem_cons] at h
      exact h.1.append (ih h.2)

theorem harmless_flatMap {α : Type} {xs : List α} {f : α -> Text}
    (h : forall x, x ∈ xs -> Harmless (f x)) : Harmless (xs.flatMap f) := by
  rw [List.flatMap_def]
  apply harmless_flatten
  intro t ht
  rcases List.mem_map.mp ht with ⟨x, hx, rfl⟩
  exact h x hx

theorem mem_intersperse {separator : Text} {ts : List Text}
    (h : t ∈ List.intersperse separator ts) : t = separator ∨ t ∈ ts := by
  fun_induction List.intersperse separator ts with
  | case1 => exact Or.inr h
  | case2 t' => exact Or.inr h
  | case3 t' t'' ts ih =>
      rw [List.mem_cons, List.mem_cons] at h
      rcases h with rfl | hseparator | hrest
      · exact Or.inr List.mem_cons_self
      · exact Or.inl hseparator
      · exact (ih hrest).imp id (List.mem_cons_of_mem t')

theorem harmless_join {separator : Text} {ts : List Text} (hs : Harmless separator)
    (h : forall t, t ∈ ts -> Harmless t) : Harmless (join separator ts) := by
  apply harmless_flatten
  intro t ht
  rcases mem_intersperse ht with rfl | ht
  · exact hs
  · exact h t ht

theorem harmless_ofLines_iff {ls : List Text} :
    Harmless (ofLines ls) <-> forall l, l ∈ ls -> Harmless l := by
  induction ls with
  | nil => simp [ofLines, Harmless.nil]
  | cons l ls ih =>
      have hcons : ofLines (l :: ls) = l ++ newline :: ofLines ls :=
        List.append_assoc l [newline] (ofLines ls)
      rw [hcons, harmless_cut_iff rfl (by decide), ih, List.forall_mem_cons]

/-!
## Numbers
-/

theorem isPlain_ofNat {n : Nat} (hlow : 0x20 ≤ n) (hhigh : n < 0x100) (h : n ≠ 0x7f) :
    isPlain (UInt8.ofNat n) = true := by
  have htoNat : (UInt8.ofNat n).toNat = n := UInt8.toNat_ofNat_of_lt' hhigh
  have hspace : space ≤ UInt8.ofNat n := by
    rw [UInt8.le_iff_toNat_le, htoNat]
    exact hlow
  have hdelete : UInt8.ofNat n ≠ 0x7f := by
    intro heq
    rw [heq] at htoNat
    exact h htoNat.symm
  simp [isPlain, hspace, hdelete]

/-- The characters that digits are written with; the last one stands for a number that is too
large to be a digit. -/
def digitChars : List Char :=
  ['0', '1', '2', '3', '4', '5', '6', '7', '8', '9', 'a', 'b', 'c', 'd', 'e', 'f', '*']

theorem digitChar_mem (d : Nat) : d.digitChar ∈ digitChars := by
  by_cases hd : d < 16
  · interval_cases d <;> decide
  · have hstar : d.digitChar = '*' := by
      simp (disch := omega) only [Nat.digitChar, if_neg]
    rw [hstar]
    decide

theorem mem_digitChars {base : Nat} (hbase : 1 < base) (n : Nat) :
    forall c, c ∈ Nat.toDigits base n -> c ∈ digitChars := by
  induction n using Nat.strong_induction_on with
  | _ n ih =>
      intro c hc
      rw [Nat.toDigits_eq_if hbase] at hc
      split at hc
      · rw [List.mem_singleton.mp hc]
        exact digitChar_mem n
      · rename_i hlarge
        rcases List.mem_append.mp hc with hc | hc
        · exact ih (n / base) (Nat.div_lt_self (by omega) hbase) c hc
        · rw [List.mem_singleton.mp hc]
          exact digitChar_mem _

theorem isPlain_of_mem_toDigits {base : Nat} (hbase : 1 < base) (n : Nat) :
    forall c, c ∈ Nat.toDigits base n -> isPlain (byte c) = true := by
  intro c hc
  have hall : digitChars.all (fun c => isPlain (byte c)) = true := by decide
  exact List.all_eq_true.mp hall c (mem_digitChars hbase n c hc)

theorem isPlain_of_mem_ofNat {n : Nat} (h : b ∈ ofNat n) : isPlain b = true := by
  rcases List.mem_map.mp h with ⟨c, hc, rfl⟩
  exact isPlain_of_mem_toDigits (by decide) n c hc

@[simp]
theorem harmless_ofNat (n : Nat) : Harmless (ofNat n) :=
  .of_plain fun _ hb => isPlain_of_mem_ofNat hb

@[simp]
theorem harmless_ofInt (i : Int) : Harmless (ofInt i) := by
  unfold ofInt
  split
  · exact .byte rfl (harmless_ofNat _)
  · exact harmless_ofNat _

@[simp]
theorem harmless_label (l : Label) : Harmless l.text :=
  harmless_ofNat _

/-!
## Quoted texts
-/

theorem harmless_hexPadded (width n : Nat) : Harmless (hexPadded width n) := by
  apply Harmless.of_plain
  intro b hb
  rcases List.mem_append.mp hb with hb | hb
  · rw [(List.mem_replicate.mp hb).2]
    rfl
  · rcases List.mem_map.mp hb with ⟨c, hc, rfl⟩
    exact isPlain_of_mem_toDigits (by decide) n c hc

theorem harmless_ofChar {c : Char} (h : c.toNat < 0x80 -> 0x20 ≤ c.toNat ∧ c.toNat < 0x7f) :
    Harmless (ofChar c) := by
  unfold ofChar String.utf8EncodeChar
  change c.val.toNat < 0x80 -> 0x20 ≤ c.val.toNat ∧ c.val.toNat < 0x7f at h
  generalize c.val.toNat = v at h
  dsimp only
  split
  · rename_i hsmall
    have hv := h (by omega)
    exact .byte (isPlain_ofNat hv.1 (by omega) (by omega)) .nil
  · split
    · exact .byte (isPlain_ofNat (by omega) (by omega) (by omega))
        (.byte (isPlain_ofNat (by omega) (by omega) (by omega)) .nil)
    · split
      · exact .byte (isPlain_ofNat (by omega) (by omega) (by omega))
          (.byte (isPlain_ofNat (by omega) (by omega) (by omega))
            (.byte (isPlain_ofNat (by omega) (by omega) (by omega)) .nil))
      · exact .byte (isPlain_ofNat (by omega) (by omega) (by omega))
          (.byte (isPlain_ofNat (by omega) (by omega) (by omega))
            (.byte (isPlain_ofNat (by omega) (by omega) (by omega))
              (.byte (isPlain_ofNat (by omega) (by omega) (by omega)) .nil)))

theorem harmless_quotedChar (c : Char) : Harmless (quotedChar c) := by
  unfold quotedChar
  split
  · rename_i hc
    rcases hc with rfl | rfl
    · exact .byte rfl (.byte rfl .nil)
    · exact .byte rfl (.byte rfl .nil)
  · split
    · rename_i hprintable
      apply harmless_ofChar
      intro hsmall
      rw [Unicode.isPrintable, if_pos hsmall, Bool.and_eq_true] at hprintable
      simpa using hprintable
    · split
      · rename_i e he
        unfold controlEscape? at he
        split at he <;> cases he <;> exact .byte rfl (.byte rfl .nil)
      · split
        · exact .append (harmless_ofString (by decide)) (harmless_hexPadded _ _)
        · split
          · exact .append (harmless_ofString (by decide)) (harmless_hexPadded _ _)
          · exact .append (harmless_ofString (by decide)) (harmless_hexPadded _ _)

@[simp]
theorem harmless_sanitized (t : Text) : Harmless t.sanitized := by
  apply harmless_flatMap
  intro piece _
  cases piece with
  | char c => exact harmless_quotedChar c
  | stray b => exact .append (harmless_ofString (by decide)) (harmless_hexPadded _ _)

@[simp]
theorem harmless_quoted (t : Text) : Harmless t.quoted := by
  refine .append (.append ?_ (harmless_sanitized t)) ?_
  · exact harmless_ofString (by decide)
  · exact harmless_ofString (by decide)

/-!
## Columns
-/

theorem harmless_spaces (n : Nat) : Harmless (List.replicate n space) := by
  apply Harmless.of_plain
  intro b hb
  rw [(List.mem_replicate.mp hb).2]
  rfl

theorem trimRight_append_spaces (t : Text) :
    exists n, Columns.trimRight t ++ List.replicate n space = t := by
  have hspaces : (t.reverse.takeWhile (· == space)).reverse =
      List.replicate (t.reverse.takeWhile (· == space)).length space := by
    rw [List.eq_replicate_iff]
    refine ⟨List.length_reverse, ?_⟩
    intro b hb
    simpa using List.mem_takeWhile_imp (List.mem_reverse.mp hb)
  refine ⟨(t.reverse.takeWhile (· == space)).length, ?_⟩
  rw [← hspaces, Columns.trimRight, ← List.reverse_append, List.takeWhile_append_dropWhile,
    List.reverse_reverse]

theorem Harmless.trimRight (h : Harmless t) : Harmless (Columns.trimRight t) := by
  rcases trimRight_append_spaces t with ⟨n, hsplit⟩
  cases n with
  | zero =>
      rw [List.replicate_zero, List.append_nil] at hsplit
      rw [hsplit]
      exact h
  | succ n =>
      rw [← hsplit, List.replicate_succ, harmless_cut_iff rfl (by decide)] at h
      exact h.1

theorem mem_of_mem_rows {perLine fuel : Nat} {cells row : List Text}
    (hrow : row ∈ Columns.rows perLine fuel cells) (ht : t ∈ row) : t ∈ cells := by
  induction fuel generalizing cells with
  | zero => cases hrow
  | succ fuel ih =>
      cases cells with
      | nil => cases hrow
      | cons cell cells =>
          rw [Columns.rows] at hrow
          · rcases List.mem_cons.mp hrow with hrow | hrow
            · rw [hrow] at ht
              exact List.mem_of_mem_take ht
            · exact List.mem_of_mem_drop (ih hrow)
          · simp

theorem harmless_of_mem_layout {cells : List Text} {indent line : Text} {width : Int}
    (hindent : Harmless indent) (hcells : forall t, t ∈ cells -> Harmless t)
    (hline : line ∈ Columns.layout cells indent width) : Harmless line := by
  rcases List.mem_map.mp hline with ⟨row, hrow, rfl⟩
  apply Harmless.trimRight
  apply hindent.append
  apply harmless_flatMap
  intro t ht
  exact (hcells t (mem_of_mem_rows hrow ht)).append (harmless_spaces _)

end Text
end TaintTrace
