import Mathlib
import TaintTrace.Proofs.PatternFault
import TaintTrace.Proofs.Terminal

/-!
# Lines of printable characters

The words of a line of printable ASCII characters are made of such characters, whatever
quotes and backslashes stand in it.  So what is said about such a word is harmless to a
terminal, also where a part of the word is shown as it is.
-/

namespace TaintTrace
namespace Text

def PrintableChar (c : Char) : Prop :=
  0x20 ≤ c.toNat ∧ c.toNat < 0x7f

def Printable (t : Text) : Prop :=
  forall b, b ∈ t -> 0x20 ≤ b ∧ b < 0x7f

instance (t : Text) : Decidable t.Printable :=
  decidable_of_iff (t.all (fun b => 0x20 ≤ b && b < 0x7f) = true) (by simp [Printable])

variable {t : Text} {cs : List Char}

/-!
## Characters and bytes
-/

theorem printableChar_ofNat {b : UInt8} (hlow : 0x20 ≤ b) (hhigh : b < 0x7f) :
    PrintableChar (Char.ofNat b.toNat) := by
  rw [UInt8.le_iff_toNat_le] at hlow
  rw [UInt8.lt_iff_toNat_lt] at hhigh
  change 0x20 ≤ b.toNat at hlow
  change b.toNat < 0x7f at hhigh
  have hvalid : b.toNat.isValidChar := Or.inl (by omega)
  rw [PrintableChar, Char.toNat_ofNat, if_pos hvalid]
  exact ⟨hlow, hhigh⟩

theorem Printable.chars (h : t.Printable) : forall c, c ∈ t.chars -> PrintableChar c := by
  unfold Text.chars Text.pieces
  induction t with
  | nil =>
      intro c hc
      cases hc
  | cons b t ih =>
      rcases List.forall_mem_cons.mp h with ⟨hb, ht⟩
      have hsmall : b < 0x80 := UInt8.lt_trans hb.2 (by decide)
      have hfirst : firstPiece b t = (.char (Char.ofNat b.toNat), 0) := if_pos hsmall
      rw [piecesAfter, hfirst, List.map_cons]
      intro c hc
      rcases List.mem_cons.mp hc with rfl | hc
      · exact printableChar_ofNat hb.1 hb.2
      · exact ih ht c hc

theorem ofChar_of_printableChar {c : Char} (h : PrintableChar c) :
    ofChar c = [UInt8.ofNat c.toNat] := by
  have hsmall : c.val.toNat ≤ 127 := Nat.le_of_lt h.2
  exact if_pos hsmall

theorem printable_ofChars (h : forall c, c ∈ cs -> PrintableChar c) :
    (ofChars cs).Printable := by
  intro b hb
  rcases List.mem_flatMap.mp hb with ⟨c, hc, hb⟩
  rcases h c hc with ⟨hlow, hhigh⟩
  rw [ofChar_of_printableChar (h c hc), List.mem_singleton] at hb
  have htoNat : b.toNat = c.toNat := by
    rw [hb]
    exact UInt8.toNat_ofNat_of_lt' (Nat.lt_trans hhigh (by decide))
  rw [UInt8.le_iff_toNat_le, UInt8.lt_iff_toNat_lt, htoNat]
  exact ⟨hlow, hhigh⟩

theorem Printable.harmless (h : t.Printable) : Harmless t := by
  apply Harmless.of_plain
  intro b hb
  rcases h b hb with ⟨hlow, hhigh⟩
  have hspace : space ≤ b := hlow
  have hdelete : b ≠ 0x7f := UInt8.ne_of_lt hhigh
  simp [isPlain, hspace, hdelete]

end Text

/-!
## Words
-/

namespace Words

theorem mem_of_splitFrom {mode : Mode} {word cs : List Char} {words : List (List Char)}
    (h : splitFrom mode word cs = some words) {w : List Char} (hw : w ∈ words) {c : Char}
    (hc : c ∈ w) : c ∈ word ∨ c ∈ cs := by
  induction cs generalizing mode word words with
  | nil =>
      cases mode with
      | inWord =>
          cases h
          rw [List.mem_singleton.mp hw, List.mem_reverse] at hc
          exact Or.inl hc
      | between | comment =>
          cases h
          cases hw
      | escaped | quoted | quotedEscaped | singleQuoted => cases h
  | cons d cs ih =>
      -- However the reading goes on, the word so far has at most this character more.
      have hnext : forall {mode' : Mode} {word' : List Char} {words' : List (List Char)},
          word' ⊆ d :: word -> splitFrom mode' word' cs = some words' -> w ∈ words' ->
          c ∈ word ∨ c ∈ d :: cs := by
        intro mode' word' words' hword' h' hw'
        rcases ih h' hw' with hmem | hmem
        · rcases List.mem_cons.mp (hword' hmem) with rfl | hmem
          · exact Or.inr List.mem_cons_self
          · exact Or.inl hmem
        · exact Or.inr (List.mem_cons_of_mem d hmem)
      cases mode with
      | between =>
          rw [splitFrom] at h
          repeat' split at h
          all_goals exact hnext (by simp) h hw
      | inWord =>
          rw [splitFrom] at h
          split at h
          · rcases Option.map_eq_some_iff.mp h with ⟨words', h', rfl⟩
            rcases List.mem_cons.mp hw with rfl | hw'
            · exact Or.inl (List.mem_reverse.mp hc)
            · exact hnext (by simp) h' hw'
          · repeat' split at h
            all_goals exact hnext (by simp) h hw
      | escaped => exact hnext (by simp) h hw
      | quoted =>
          rw [splitFrom] at h
          repeat' split at h
          all_goals exact hnext (by simp) h hw
      | quotedEscaped => exact hnext (by simp) h hw
      | singleQuoted =>
          rw [splitFrom] at h
          split at h
          all_goals exact hnext (by simp) h hw
      | comment =>
          rw [splitFrom] at h
          split at h
          all_goals exact hnext (by simp) h hw

theorem printable_of_mem_split {line w : Text} {words : List Text} (hline : line.Printable)
    (h : split line = some words) (hw : w ∈ words) : w.Printable := by
  rcases Option.map_eq_some_iff.mp h with ⟨split, hsplit, rfl⟩
  rcases List.mem_map.mp hw with ⟨cs, hcs, rfl⟩
  apply Text.printable_ofChars
  intro c hc
  rcases mem_of_splitFrom hsplit hcs hc with hnil | hmem
  · cases hnil
  · exact hline.chars c hmem

end Words

namespace Command

theorem mem_of_mem_args_addWords {pending : Option Text} {words : List Text} {c : Command}
    {w : Text} (h : w ∈ (addWords pending words c).args) : w ∈ c.args ∨ w ∈ words := by
  fun_induction addWords pending words c with
  | case1 => exact Or.inl h
  | case2 name v words c ih =>
      rcases ih h with h | h
      · exact Or.inl h
      · exact Or.inr (List.mem_cons_of_mem v h)
  | case3 v words c _ ih =>
      rcases ih h with h | h
      · exact Or.inl h
      · exact Or.inr (List.mem_cons_of_mem v h)
  | case4 v words c _ _ ih =>
      rcases ih h with h | h
      · exact Or.inl h
      · exact Or.inr (List.mem_cons_of_mem v h)
  | case5 v words c _ _ ih =>
      rcases ih h with h | h
      · rcases List.mem_append.mp h with h | h
        · exact Or.inl h
        · exact Or.inr (List.mem_singleton.mp h ▸ List.mem_cons_self)
      · exact Or.inr (List.mem_cons_of_mem v h)

theorem mem_of_mem_args_ofWords {words : List Text} {w : Text}
    (h : w ∈ (ofWords words).args) : w ∈ words := by
  unfold ofWords at h
  split at h
  · cases h
  · rcases mem_of_mem_args_addWords h with h | h
    · cases h
    · exact List.mem_cons_of_mem _ h

theorem printable_of_mem_args {line w : Text} (hline : line.Printable)
    (h : w ∈ (ofLine line).args) : w.Printable := by
  unfold ofLine at h
  have hmem := mem_of_mem_args_ofWords h
  cases hsplit : Words.split line with
  | none =>
      rw [hsplit] at hmem
      cases hmem
  | some words =>
      rw [hsplit] at hmem
      exact Words.printable_of_mem_split hline hsplit hmem

end Command

/-!
## What is wrong with a word
-/

namespace Pattern

open Text

theorem harmless_problem (p : Problem) : Harmless p.message := by
  cases p <;> exact harmless_ofString (by decide)

theorem harmless_message_of_read_eq_error {t : Text} {f : Fault} (ht : t.Printable)
    (h : read t = .error f) : Harmless f.message := by
  have hpart : Harmless f.part := by
    rcases within_of_read_eq_error h with hpart | ⟨part, hpiece, hpart⟩
    · rw [hpart]
      exact ht.harmless
    · rw [hpart]
      apply Printable.harmless
      apply printable_ofChars
      intro c hc
      exact ht.chars c (hpiece.subset hc)
  simp +decide [Fault.message, harmless_problem, hpart]

end Pattern
end TaintTrace
