/-!
# Byte texts

File names, messages and reports may hold any bytes, valid UTF-8 or not, so a
text is a list of bytes.  A string literal stands for its UTF-8 bytes wherever a
text is expected.
-/

namespace TaintTrace

abbrev Text := List UInt8

namespace Text

def ofString (s : String) : Text :=
  s.toUTF8.data.toList

instance : Coe String Text := ⟨ofString⟩

def byte (c : Char) : UInt8 :=
  c.toUInt8

def newline : UInt8 := 0x0a

def tab : UInt8 := 0x09

def space : UInt8 := 0x20

def toString? (t : Text) : Option String :=
  String.fromUTF8? ⟨t.toArray⟩

/-!
## Numbers

Numbers are written without leading zeros, unless a width is asked for, and letters in lower
case.
-/

/-- The digit of a number below 36, letters in lower case. -/
def digit (n : Nat) : UInt8 :=
  if n < 10 then (0x30 + n).toUInt8 else (0x57 + n).toUInt8

def ofNat (n : Nat) : Text :=
  (Nat.toDigits 10 n).map byte

/-- Decimal digits, with a minus sign in front of a negative number. -/
def ofInt (i : Int) : Text :=
  if i < 0 then byte '-' :: ofNat i.natAbs else ofNat i.natAbs

/-- Lower-case hexadecimal digits, no leading zero. -/
def hex (n : Nat) : Text :=
  (Nat.toDigits 16 n).map byte

/-- Lower-case hexadecimal digits, padded with zeros to a width. -/
def hexPadded (width n : Nat) : Text :=
  List.replicate (width - (hex n).length) (byte '0') ++ hex n

def ofOption (t : Option Text) : Text :=
  t.getD (ofString "none")

/-!
## Searching and joining

Texts are compared byte by byte.  A last line need not end with a newline.
-/

/-- The texts of a list one after the other, a separator between neighbours. -/
def join (separator : Text) (ts : List Text) : Text :=
  separator.intercalate ts

def startsWith (t start : Text) : Bool :=
  start.isPrefixOf t

def contains (t part : Text) : Bool :=
  match t with
  | [] => part.isEmpty
  | _ :: rest => startsWith t part || contains rest part

def endingLine (t : Text) : Text :=
  if t.getLast? = some newline then t else t ++ [newline]

def ofLines (ls : List Text) : Text :=
  ls.flatMap fun l => l ++ [newline]

/-- Cut a text after each newline; a last line without newline is kept. -/
def lines : Text -> List Text
  | [] => []
  | b :: rest =>
      if b = newline then [b] :: lines rest
      else
        match lines rest with
        | [] => [[b]]
        | line :: others => (b :: line) :: others

def lt : Text -> Text -> Bool
  | [], [] => false
  | [], _ :: _ => true
  | _ :: _, [] => false
  | a :: s, b :: t => if a < b then true else if b < a then false else lt s t

/-- Bytewise lexicographic order, equal texts included. -/
def le (s t : Text) : Bool :=
  !lt t s

def sort (ts : List Text) : List Text :=
  ts.mergeSort le

end Text
end TaintTrace
