import Mathlib
import TaintTrace.Numeral.Integer

/-!
# Decimal numerals

The decimal text of a number has digits only and no zero in front, so it names no other base
and is read back as the number.
-/

namespace TaintTrace
namespace Numeral

theorem ofNat_eq_if (n : Nat) :
    Text.ofNat n =
      if n < 10 then [Text.byte n.digitChar]
      else Text.ofNat (n / 10) ++ [Text.byte (n % 10).digitChar] := by
  unfold Text.ofNat
  rw [Nat.toDigits_eq_if (by decide)]
  split
  · rfl
  · rw [List.map_append]
    rfl

theorem ofNat_ne_nil (n : Nat) : Text.ofNat n ≠ [] := by
  unfold Text.ofNat
  rw [Ne, List.map_eq_nil_iff]
  exact Nat.toDigits_ne_nil

theorem digitValue?_byte {d : Nat} (hd : d < 10) :
    digitValue? (Text.byte d.digitChar) = some d := by
  interval_cases d <;> decide

theorem isDigit_byte {d : Nat} (hd : d < 10) : isDigit (Text.byte d.digitChar) = true := by
  interval_cases d <;> decide

theorem isDigit_of_mem_ofNat {b : UInt8} {n : Nat} (hb : b ∈ Text.ofNat n) :
    isDigit b = true := by
  induction n using Nat.strong_induction_on with
  | _ n ih =>
      rw [ofNat_eq_if] at hb
      split at hb
      · rename_i hsmall
        rw [List.mem_singleton.mp hb]
        exact isDigit_byte hsmall
      · rename_i hlarge
        rcases List.mem_append.mp hb with hb | hb
        · exact ih (n / 10) (by omega) hb
        · rw [List.mem_singleton.mp hb]
          exact isDigit_byte (Nat.mod_lt n (by decide))

theorem not_mem_ofNat {b : UInt8} (hb : isDigit b = false) (n : Nat) : b ∉ Text.ofNat n := by
  intro hmem
  rw [isDigit_of_mem_ofNat hmem] at hb
  cases hb

theorem head?_ofNat_ne_zero {n : Nat} (hn : 0 < n) :
    (Text.ofNat n).head? ≠ some (Text.byte '0') := by
  induction n using Nat.strong_induction_on with
  | _ n ih =>
      rw [ofNat_eq_if]
      split
      · rename_i hsmall
        interval_cases n <;> decide
      · rename_i hlarge
        rw [List.head?_append_of_ne_nil _ (ofNat_ne_nil _)]
        exact ih (n / 10) (by omega) (by omega)

/-!
## Reading back
-/

theorem readDigits_append (base max : Nat) (underscores : Bool) (s t : Text) (value : Nat) :
    readDigits base max underscores (s ++ t) value =
      (readDigits base max underscores s value).bind
        (readDigits base max underscores t) := by
  induction s generalizing value with
  | nil => rfl
  | cons b s ih =>
      rw [List.cons_append, readDigits, readDigits]
      split
      · exact ih value
      · split
        · rfl
        · split
          · rfl
          · split
            · rfl
            · exact ih _

theorem readDigits_digit {max value d : Nat} (hd : d < 10) (hmax : value * 10 + d ≤ max) :
    readDigits 10 max true [Text.byte d.digitChar] value = .ok (value * 10 + d) := by
  have hplain : ¬ (true = true ∧ Text.byte d.digitChar = Text.byte '_') := by
    interval_cases d <;> decide
  rw [readDigits, if_neg hplain, digitValue?_byte hd]
  dsimp only
  rw [if_neg (Nat.not_le.mpr hd), if_neg (Nat.not_lt.mpr hmax)]
  rfl

theorem readDigits_ofNat {max n : Nat} (hmax : n ≤ max) :
    readDigits 10 max true (Text.ofNat n) 0 = .ok n := by
  induction n using Nat.strong_induction_on with
  | _ n ih =>
      rw [ofNat_eq_if]
      split
      · rename_i hsmall
        rw [readDigits_digit hsmall (by omega)]
        simp
      · rename_i hlarge
        rw [readDigits_append, ih (n / 10) (by omega) (by omega)]
        refine (readDigits_digit (Nat.mod_lt n (by decide)) (by omega)).trans ?_
        rw [Nat.div_add_mod']

theorem splitBase_of_head {t : Text} (h : t.head? ≠ some (Text.byte '0')) :
    splitBase t = (10, t) := by
  cases t with
  | nil => rfl
  | cons b rest =>
      have hb : b ≠ Text.byte '0' := by
        intro heq
        rw [heq] at h
        exact h rfl
      exact if_neg hb

theorem natural_ofNat {max n : Nat} (hmax : n ≤ max) :
    natural none max (Text.ofNat n) = .ok n := by
  rcases Nat.eq_zero_or_pos n with rfl | hpos
  · rfl
  · have hnonempty : (Text.ofNat n).isEmpty = false := by
      rw [List.isEmpty_eq_false_iff]
      exact ofNat_ne_nil n
    have hplain : (Text.ofNat n).elem (Text.byte '_') = false := by
      rw [← Bool.not_eq_true, List.elem_iff]
      exact not_mem_ofNat (by decide) n
    unfold natural
    rw [hnonempty, splitBase_of_head (head?_ofNat_ne_zero hpos)]
    dsimp only
    rw [readDigits_ofNat hmax, hplain]
    rfl

end Numeral
end TaintTrace
