import TaintTrace.Text.Basic

/-!
# Reading whole numbers

A numeral may have a base in front: `0x`, `0o` or `0b`, or a zero for base eight.
Then underscores may stand between its digits.  A numeral is read from the left, and
the first digit that makes it too large ends the reading.
-/

namespace TaintTrace
namespace Numeral

inductive Fault where
  | malformed
  | outOfRange
  deriving DecidableEq, Repr

def lower (b : UInt8) : UInt8 :=
  if 0x41 ≤ b ∧ b ≤ 0x5a then b + 0x20 else b

def isDigit (b : UInt8) : Bool :=
  0x30 ≤ b && b ≤ 0x39

def digitValue? (b : UInt8) : Option Nat :=
  if isDigit b then some (b.toNat - 0x30)
  else if 0x61 ≤ lower b ∧ lower b ≤ 0x7a then some ((lower b).toNat - 0x61 + 10)
  else none

/-- What the byte before was, while underscores are checked. -/
inductive Before where
  | start
  | digit
  | underscore
  | other
  deriving DecidableEq, Repr

/-- Whether each underscore stands between two digits. -/
def separates (hex : Bool) : Before -> Text -> Bool
  | before, [] => before != .underscore
  | before, b :: rest =>
      if isDigit b || (hex && 0x61 ≤ lower b && lower b ≤ 0x66) then separates hex .digit rest
      else if b = Text.byte '_' then before == .digit && separates hex .underscore rest
      else before != .underscore && separates hex .other rest

/-- Whether the underscores of a numeral stand between digits; a base in front counts
as a digit. -/
def underscoresFit (t : Text) : Bool :=
  let t :=
    match t with
    | b :: rest => if b = Text.byte '-' ∨ b = Text.byte '+' then rest else t
    | [] => t
  match t with
  | z :: b :: rest =>
      if z = Text.byte '0' ∧ (lower b = Text.byte 'b' ∨ lower b = Text.byte 'o'
          ∨ lower b = Text.byte 'x') then
        separates (lower b = Text.byte 'x') .digit rest
      else separates false .start t
  | _ => separates false .start t

def splitBase (t : Text) : Nat × Text :=
  match t with
  | z :: rest =>
      if z = Text.byte '0' then
        match rest with
        | b :: d :: more =>
            if lower b = Text.byte 'b' then (2, d :: more)
            else if lower b = Text.byte 'o' then (8, d :: more)
            else if lower b = Text.byte 'x' then (16, d :: more)
            else (8, rest)
        | _ => (8, rest)
      else (10, t)
  | [] => (10, t)

def readDigits (base max : Nat) (underscores : Bool) : Text -> (value : Nat) -> Except Fault Nat
  | [], value => .ok value
  | b :: rest, value =>
      if underscores ∧ b = Text.byte '_' then readDigits base max underscores rest value
      else
        match digitValue? b with
        | none => .error .malformed
        | some d =>
            if base ≤ d then .error .malformed
            else if max < value * base + d then .error .outOfRange
            else readDigits base max underscores rest (value * base + d)

/-- Read a number up to a greatest one.  Without a base, the numeral tells it. -/
def natural (base : Option Nat) (max : Nat) (t : Text) : Except Fault Nat :=
  if t.isEmpty then .error .malformed
  else
    match base with
    | some base => readDigits base max false t 0
    | none =>
        let (base, digits) := splitBase t
        match readDigits base max true digits 0 with
        | .error e => .error e
        | .ok n =>
            if t.elem (Text.byte '_') && !underscoresFit t then .error .malformed else .ok n

def max64 : Nat := 0xffffffffffffffff

def half64 : Nat := 0x8000000000000000

def integer (base : Option Nat) (t : Text) : Except Fault Int :=
  let (negative, digits) :=
    match t with
    | b :: rest =>
        if b = Text.byte '+' then (false, rest)
        else if b = Text.byte '-' then (true, rest)
        else (false, t)
    | [] => (false, t)
  match natural base max64 digits with
  | .error e => .error e
  | .ok n =>
      if negative then if n ≤ half64 then .ok (-n) else .error .outOfRange
      else if n < half64 then .ok n
      else .error .outOfRange

def decimal? (t : Text) : Option Int :=
  (integer (some 10) t).toOption

end Numeral
end TaintTrace
