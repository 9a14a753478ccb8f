import TaintTrace.Numeral.Integer

/-!
# Reading decimal fractions

A decimal fraction stands for the nearest number with a mantissa of 53 bits; of two
that are equally near, the one with the even mantissa.
-/

namespace TaintTrace
namespace Numeral

/-- A number that has a sign and may be infinite or none at all.  A finite one is
`mantissa * 2 ^ exponent`. -/
inductive Real where
  | finite (negative : Bool) (mantissa : Nat) (exponent : Int)
  | infinite (negative : Bool)
  | nan
  deriving DecidableEq, Repr

/-- The parts of a decimal fraction: its digits as a whole number and the power of
ten they are multiplied with. -/
structure Decimal where
  negative : Bool
  digits : Nat
  power : Int

/-!
## The text of a fraction

A sign, digits with a point among them or in front of them, and an exponent.
-/

def takeDigits (t : Text) : Text × Text :=
  t.span isDigit

def digitsValue (t : Text) : Nat :=
  t.foldl (fun n b => n * 10 + (b.toNat - 0x30)) 0

def takeSign (t : Text) : Bool × Text :=
  match t with
  | b :: rest =>
      if b = Text.byte '-' then (true, rest)
      else if b = Text.byte '+' then (false, rest)
      else (false, t)
  | [] => (false, t)

/-- Read an exponent that takes the rest of a text; without one it is zero. -/
def exponent? (t : Text) : Option Int :=
  match t with
  | [] => some 0
  | b :: rest =>
      if lower b = Text.byte 'e' then
        let (negative, digits) := takeSign rest
        if digits.isEmpty || !digits.all isDigit then none
        else
          let e : Int := min (digitsValue digits) 100000
          some (if negative then -e else e)
      else none

/-- Read a decimal fraction: a sign, digits with a point among them or in front of
them, and an exponent. -/
def Decimal.read? (t : Text) : Option Decimal :=
  let (negative, t) := takeSign t
  let (whole, t) := takeDigits t
  let (part, t) :=
    match t with
    | b :: rest => if b = Text.byte '.' then takeDigits rest else ([], t)
    | [] => ([], t)
  if whole.isEmpty && part.isEmpty then none
  else
    match exponent? t with
    | none => none
    | some e => some ⟨negative, digitsValue (whole ++ part), e - part.length⟩

/-!
## The nearest number

Numbers are compared in units of the least one, so that the order is that of whole numbers.
-/

/-- The quotient, rounded to the nearest whole number, a half to the even one. -/
def roundDiv (num den : Nat) : Nat :=
  let q := num / den
  let r := num % den
  if 2 * r < den then q else if den < 2 * r then q + 1 else q + q % 2

def mantissaEnd : Nat := 0x20000000000000

/-- The nearest number to a fraction, unless it is too large. -/
def nearest? (negative : Bool) (num den : Nat) : Option Real :=
  let guess : Int := (num.log2 : Int) - (den.log2 : Int) - 52
  let scale (e : Int) : Nat :=
    if 0 ≤ e then roundDiv num (den * Nat.pow 2 e.toNat)
    else roundDiv (num * Nat.pow 2 (-e).toNat) den
  let lowest : Int := -1074
  let e := max lowest (if scale (guess - 1) < mantissaEnd then guess - 1 else guess)
  let m := scale e
  let (m, e) :=
    if m = mantissaEnd then (mantissaEnd / 2, e + 1) else if m = 0 then (0, 0) else (m, e)
  if 971 < e then none else some (.finite negative m e)

/-- The number that a decimal fraction stands for, unless it is too large. -/
def Decimal.toReal? (d : Decimal) : Option Real :=
  let size : Int := (Text.ofNat d.digits).length + d.power
  if d.digits = 0 ∨ size < -400 then some (.finite d.negative 0 0)
  else if 400 < size then none
  else if 0 ≤ d.power then nearest? d.negative (d.digits * Nat.pow 10 d.power.toNat) 1
  else nearest? d.negative d.digits (Nat.pow 10 (-d.power).toNat)

def real? (t : Text) : Option Real :=
  (Decimal.read? t).bind Decimal.toReal?

namespace Real

/-- The whole part of a number as a 64-bit word.  A number below all words, or the
power of two next to the greatest one, gives the least word; a greater number, or no
number, gives none. -/
def toWord? : Real -> Option Int
  | .nan => none
  | .infinite negative => if negative then some (-half64) else none
  | .finite negative m e =>
      let whole : Nat :=
        if 0 ≤ e then m * Nat.pow 2 e.toNat else m / Nat.pow 2 (-e).toNat
      if negative then some (max (-(whole : Int)) (-half64))
      else if whole < half64 then some whole
      else if whole = half64 then some (-half64)
      else none

/-- Whether two numbers are the same; what is no number is the same as nothing. -/
def isSame : Real -> Real -> Bool
  | .nan, _ => false
  | .finite a m e, .finite b n f => m == n && e == f && (a == b || m == 0)
  | r, s => r == s

def units (negative : Bool) (m : Nat) (e : Int) : Int :=
  let size := m * Nat.pow 2 (e + 1074).toNat
  if negative then -size else size

/-- The order of numbers, with what is no number in front. -/
def le : Real -> Real -> Bool
  | .nan, _ => true
  | _, .nan => false
  | .infinite a, .infinite b => a || !b
  | .infinite a, .finite _ _ _ => a
  | .finite _ _ _, .infinite b => !b
  | .finite a m e, .finite b n f => units a m e ≤ units b n f

end Real
end Numeral
end TaintTrace
