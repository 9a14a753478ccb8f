import TaintTrace.Text.Basic

/-!
# Escaped contents

The contents of a file are shown byte by byte in printable ASCII.
-/

namespace TaintTrace
namespace Text

def escapedByte (b : UInt8) : Text :=
  if b = byte '\\' then "\\\\"
  else if b = byte '"' then "\\\""
  else if 0x20 ≤ b ∧ b ≤ 0x7e then [b]
  else if b = 0 then "\\0"
  else if b = newline then "\\n"
  else if b = tab then "\\t"
  else if b = 0x0d then "\\r"
  else if b < 10 then "\\" ++ ofNat b.toNat
  else "\\x" ++ hex b.toNat

def escaped (t : Text) : Text :=
  t.flatMap escapedByte

end Text
end TaintTrace
