import TaintTrace.Text.Utf8
import TaintTrace.Unicode.Category

/-!
# Quoted texts

A quoted text stands between double quotes.  Printable characters stand for
themselves; a quote and a backslash have a backslash in front; everything else is
written with the escape of its control character or with hexadecimal digits, so
that the result can be shown on any terminal.
-/

namespace TaintTrace
namespace Text

def controlEscape? (c : Nat) : Option Char :=
  match c with
  | 0x07 => some 'a'
  | 0x08 => some 'b'
  | 0x09 => some 't'
  | 0x0a => some 'n'
  | 0x0b => some 'v'
  | 0x0c => some 'f'
  | 0x0d => some 'r'
  | _ => none

def quotedChar (c : Char) : Text :=
  if c = '"' ∨ c = '\\' then [byte '\\', byte c]
  else if Unicode.isPrintable c.toNat then ofChar c
  else
    match controlEscape? c.toNat with
    | some e => [byte '\\', byte e]
    | none =>
        if c.toNat < 0x20 ∨ c.toNat = 0x7f then "\\x" ++ hexPadded 2 c.toNat
        else if c.toNat < 0x10000 then "\\u" ++ hexPadded 4 c.toNat
        else "\\U" ++ hexPadded 8 c.toNat

def quotedPiece : Piece -> Text
  | .char c => quotedChar c
  | .stray b => "\\x" ++ hexPadded 2 b.toNat

def sanitized (t : Text) : Text :=
  t.pieces.flatMap quotedPiece

def quoted (t : Text) : Text :=
  "\"" ++ t.sanitized ++ "\""

end Text
end TaintTrace
