import TaintTrace.Text.Utf8

/-!
# Characters of a YAML stream

A stream is encoded in UTF-8 or, when a byte order mark says so, in UTF-16.  Control
characters other than tabs and line breaks are not allowed.  A stream is decoded block
by block, so a fault in it shows only when its block is asked for.
-/

namespace TaintTrace
namespace Yaml

/-- Why a stream is not valid, with the number of a line if one is known. -/
structure SyntaxError where
  line : Nat
  problem : Text

namespace SyntaxError

def plain (problem : Text) : SyntaxError :=
  ⟨0, problem⟩

def message (e : SyntaxError) : Text :=
  let place : Text := if e.line = 0 then [] else "line " ++ Text.ofNat e.line ++ ": "
  "yaml: " ++ place ++ e.problem

end SyntaxError

/-!
## Decoding

A character may be cut off at the end of the bytes that are known, and is then completed by
the bytes that follow.
-/

inductive Encoding where
  | utf8
  | utf16le
  | utf16be
  deriving DecidableEq, Repr

/-- The encoding that the first bytes of a stream tell, and the bytes after the byte
order mark. -/
def encodingOf (bytes : Text) : Encoding × Text :=
  match bytes with
  | 0xff :: 0xfe :: rest => (.utf16le, rest)
  | 0xfe :: 0xff :: rest => (.utf16be, rest)
  | 0xef :: 0xbb :: 0xbf :: rest => (.utf8, rest)
  | _ => (.utf8, bytes)

def isAllowed (c : Nat) : Bool :=
  c == 0x09 || c == 0x0a || c == 0x0d || (0x20 ≤ c && c ≤ 0x7e) || c == 0x85
    || (0xa0 ≤ c && c ≤ 0xd7ff) || (0xe000 ≤ c && c ≤ 0xfffd)
    || (0x10000 ≤ c && c ≤ 0x10ffff)

/-- What some bytes begin with: a character of some width, bytes that more bytes must
follow, or a fault. -/
inductive Opening where
  | char (c : Char) (width : Nat)
  | cut (problem : Text)
  | fault (problem : Text)

namespace Opening

def ofCode (code width : Nat) : Opening :=
  if isAllowed code then .char (Char.ofNat code) width
  else .fault "control characters are not allowed"

/-- The width that the first byte of a character in UTF-8 tells. -/
def width? (b : UInt8) : Option Nat :=
  if b.toNat < 128 then some 1
  else if b.toNat / 32 = 6 then some 2
  else if b.toNat / 16 = 14 then some 3
  else if b.toNat / 8 = 30 then some 4
  else none

def ofUtf8 (b : UInt8) (rest : Text) : Opening :=
  match width? b with
  | none => .fault "invalid leading UTF-8 octet"
  | some 1 => ofCode b.toNat 1
  | some width =>
      let more := rest.take (width - 1)
      if more.length + 1 < width then .cut "incomplete UTF-8 octet sequence"
      else if more.any fun c => c.toNat / 64 ≠ 2 then .fault "invalid trailing UTF-8 octet"
      else
        let high := b.toNat % (if width = 2 then 32 else if width = 3 then 16 else 8)
        let code := more.foldl (fun n c => n * 64 + c.toNat % 64) high
        let least := if width = 2 then 0x80 else if width = 3 then 0x800 else 0x10000
        if code < least then .fault "invalid length of a UTF-8 sequence"
        else if !code.isValidChar then .fault "invalid Unicode character"
        else ofCode code width

/-- What bytes begin with in UTF-16, given how two bytes make a unit. -/
def ofUtf16 (unit : UInt8 -> UInt8 -> Nat) (bytes : Text) : Opening :=
  match bytes with
  | a :: b :: rest =>
      let high := unit a b
      if high / 1024 = 55 then .fault "unexpected low surrogate area"
      else if high / 1024 = 54 then
        match rest with
        | c :: d :: _ =>
            let low := unit c d
            if low / 1024 = 55 then ofCode (0x10000 + high % 1024 * 1024 + low % 1024) 4
            else .fault "expected low surrogate area"
        | _ => .cut "incomplete UTF-16 surrogate pair"
      else ofCode high 2
  | _ => .cut "incomplete UTF-16 character"

def of (encoding : Encoding) (b : UInt8) (rest : Text) : Opening :=
  match encoding with
  | .utf8 => ofUtf8 b rest
  | .utf16le => ofUtf16 (fun a b => b.toNat * 256 + a.toNat) (b :: rest)
  | .utf16be => ofUtf16 (fun a b => a.toNat * 256 + b.toNat) (b :: rest)

end Opening

/-- What became of some bytes: the characters read so far, the bytes of a character
that is cut off, and a fault if one was met. -/
structure Decoded where
  chars : Array Char
  held : Text
  fault : Option SyntaxError

/-- Decode bytes onto the characters before them, after some bytes of the character
before.  When no bytes follow, a character that is cut off is a fault. -/
def decodeBytes (encoding : Encoding) (atEnd : Bool) : (skip : Nat) -> Text -> Array Char -> Decoded
  | _, [], chars => ⟨chars, [], none⟩
  | skip + 1, _ :: rest, chars => decodeBytes encoding atEnd skip rest chars
  | 0, b :: rest, chars =>
      match Opening.of encoding b rest with
      | .char c width => decodeBytes encoding atEnd (width - 1) rest (chars.push c)
      | .cut problem => ⟨chars, b :: rest, if atEnd then some (.plain problem) else none⟩
      | .fault problem => ⟨chars, b :: rest, some (.plain problem)⟩

/-!
## Blocks

A block is filled up to its size unless the stream ends.
-/

/-- The characters of a stream up to its end or its first fault.  `blocks` has the number
of characters that are known after each block; the end or the fault shows after the
last one. -/
structure Source where
  chars : Array Char
  blocks : List Nat
  fault : Option SyntaxError

namespace Source

def blockSize : Nat := 512

/-- Decode the blocks of some bytes after those decoded before, whose ends come last one
first.  Each block is filled up behind the bytes that were held back.  The fuel bounds
the number of blocks. -/
def readBlocks (encoding : Encoding) : (fuel : Nat) -> Decoded -> (bytes : Text) ->
    (blocks : List Nat) -> Source
  | 0, d, _, blocks => ⟨d.chars, blocks.reverse, d.fault⟩
  | fuel + 1, d, bytes, blocks =>
      if d.fault.isSome then ⟨d.chars, blocks.reverse, d.fault⟩
      else
        let blocks := d.chars.size :: blocks
        let next := decodeBytes encoding bytes.isEmpty 0
          (d.held ++ bytes.take (blockSize - d.held.length)) d.chars
        if bytes.isEmpty then ⟨next.chars, blocks.reverse, next.fault⟩
        else readBlocks encoding fuel next (bytes.drop (blockSize - d.held.length)) blocks

/-- The characters of a stream.  The end of a stream of less than three bytes is known at
once. -/
def ofBytes (bytes : Text) : Source :=
  let (encoding, first) := encodingOf (bytes.take blockSize)
  if bytes.length < 3 then
    let d := decodeBytes encoding true 0 first #[]
    ⟨d.chars, [], d.fault⟩
  else
    readBlocks encoding bytes.length (decodeBytes encoding false 0 first #[])
      (bytes.drop blockSize) []

end Source

/-!
## Classes of characters

The end of a stream reads as the character zero, which no stream holds.
-/

def isBlank (c : Char) : Bool :=
  c == ' ' || c == '\t'

def isBreak (c : Char) : Bool :=
  c == '\r' || c == '\n' || c.toNat == 0x85 || c.toNat == 0x2028 || c.toNat == 0x2029

def isEnd (c : Char) : Bool :=
  c.toNat == 0

def isBreakOrEnd (c : Char) : Bool :=
  isBreak c || isEnd c

def isBlankOrEnd (c : Char) : Bool :=
  isBlank c || isBreakOrEnd c

/-- Whether a character may stand in the name of an anchor or a directive. -/
def isWordChar (c : Char) : Bool :=
  c.isAlphanum || c == '_' || c == '-'

def hexDigit? (c : Char) : Option Nat :=
  if c.isDigit then some (c.toNat - 48)
  else if 'a' ≤ c ∧ c ≤ 'f' then some (c.toNat - 87)
  else if 'A' ≤ c ∧ c ≤ 'F' then some (c.toNat - 55)
  else none

end Yaml
end TaintTrace
