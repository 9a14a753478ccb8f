import TaintTrace.Numeral.Integer

/-!
# Base 64

Binary texts are written with 64 characters that stand for six bits each.  Four
characters make three bytes, and the last group may be padded.
-/

namespace TaintTrace
namespace Text

def sextet? (b : UInt8) : Option Nat :=
  if 0x41 ≤ b ∧ b ≤ 0x5a then some (b.toNat - 0x41)
  else if 0x61 ≤ b ∧ b ≤ 0x7a then some (b.toNat - 0x61 + 26)
  else if Numeral.isDigit b then some (b.toNat - 0x30 + 52)
  else if b = Text.byte '+' then some 62
  else if b = Text.byte '/' then some 63
  else none

/-- Read groups of four characters of base 64; the last group may be padded. -/
def readGroups? : Text -> Option Text
  | [] => some []
  | a :: b :: c :: d :: rest => do
      let pad := Text.byte '='
      let x ← sextet? a
      let y ← sextet? b
      let first := (x * 4 + y / 16).toUInt8
      if c = pad ∧ d = pad ∧ rest.isEmpty then return [first]
      let z ← sextet? c
      let second := (y % 16 * 16 + z / 4).toUInt8
      if d = pad ∧ rest.isEmpty then return [first, second]
      let u ← sextet? d
      let others ← readGroups? rest
      return first :: second :: (z % 4 * 64 + u).toUInt8 :: others
  | _ => none

/-- Read a text of base 64; line breaks in it have no meaning. -/
def ofBase64? (t : Text) : Option Text :=
  readGroups? (t.filter fun b => b ≠ 0x0a ∧ b ≠ 0x0d)

end Text
end TaintTrace
