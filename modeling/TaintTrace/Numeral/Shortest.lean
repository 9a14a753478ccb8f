import TaintTrace.Numeral.Real

/-!
# Writing decimal fractions

A number is written with as few digits as tell it from all other numbers.  Of the
fractions with so few digits the nearest one is taken, and the even one of two that are
equally near.
-/

namespace TaintTrace
namespace Numeral

/-!
## The shortest fraction

The number of digits grows until a fraction with so many digits stands for the number.
-/

/-- How many digits a number has in front of the decimal point; zeros behind the point
count as digits that are missing. -/
def digitsBefore (m : Nat) (e : Int) : Int :=
  let shift := 400
  let scaled := m * Nat.pow 10 shift
  let whole := if 0 ≤ e then scaled * Nat.pow 2 e.toNat else scaled / Nat.pow 2 (-e).toNat
  (Text.ofNat whole).length - shift

/-- The multiple of a power of ten that stands for `m * 2 ^ e` and is next to it, if there
is one.  What lies closer to a number than half the way to its neighbours stands for it,
and what lies just half the way if the mantissa is even. -/
def nextTo? (m : Nat) (e : Int) (power : Int) : Option Nat :=
  let unit := Nat.pow 2 (e - 2).toNat * Nat.pow 10 (-power).toNat
  let grid := Nat.pow 2 (2 - e).toNat * Nat.pow 10 power.toNat
  let below := if m = mantissaEnd / 2 ∧ -1074 < e then 1 else 2
  let value := 4 * m * unit
  let low := (4 * m - below) * unit
  let high := (4 * m + 2) * unit
  let fits (q : Nat) : Bool :=
    if m % 2 = 0 then low ≤ q * grid && q * grid ≤ high
    else low < q * grid && q * grid < high
  let floor := value / grid
  let upper := roundDiv value grid
  let other := if upper = floor then floor + 1 else floor
  if fits upper then some upper else if fits other then some other else none

def shortest (negative : Bool) (m : Nat) (e : Int) : Decimal :=
  let size := digitsBefore m e
  let found := (List.range 17).findSome? fun (n : Nat) =>
    let power : Int := size - n - 1
    (nextTo? m e power).map fun digits => (⟨negative, digits, power⟩ : Decimal)
  found.getD ⟨negative, 0, 0⟩

/-!
## Text
-/

/-- The text of a power of ten: a sign and at least two digits. -/
def powerText (power : Int) : Text :=
  let digits := Text.ofNat power.natAbs
  (if power < 0 then "e-" else "e+") ++ if digits.length < 2 then Text.byte '0' :: digits else digits

/-- The text of a fraction that is not zero, apart from its sign.  Very small fractions,
and those of a million and more, are written with a power of ten. -/
def fractionText (d : Decimal) : Text :=
  let zero := Text.byte '0'
  let all := Text.ofNat d.digits
  let digits := (all.reverse.dropWhile (· = zero)).reverse
  let power := d.power + all.length - 1
  let pointed (whole part : Text) : Text :=
    if part.isEmpty then whole else whole ++ Text.byte '.' :: part
  if power < -4 ∨ 6 ≤ power then pointed (digits.take 1) (digits.drop 1) ++ powerText power
  else if power < 0 then pointed [zero] (List.replicate (-power - 1).toNat zero ++ digits)
  else
    let before := (power + 1).toNat
    pointed (digits.take before ++ List.replicate (before - digits.length) zero) (digits.drop before)

namespace Real

def text : Real -> Text
  | .nan => "NaN"
  | .infinite negative => if negative then "-Inf" else "+Inf"
  | .finite negative m e =>
      let body : Text := if m = 0 then "0" else fractionText (shortest negative m e)
      if negative then Text.byte '-' :: body else body

end Real
end Numeral
end TaintTrace
