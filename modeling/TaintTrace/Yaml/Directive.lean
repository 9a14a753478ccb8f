import TaintTrace.Yaml.Token

/-!
# Directives, anchors and tags

A tag is a handle and the bytes after it.  Bytes of a tag may be written as escapes,
which need not make up characters.
-/

namespace TaintTrace
namespace Yaml
namespace Walk

def readAnchor (isReference : Bool) : Walk TokenKind := do
  let start ← mark
  skip
  let name ← readWhile isWordChar
  let x ← here
  if name.isEmpty || !(isBlankOrEnd x || "?:,]\x7d%@`".toList.contains x) then
    fail start "did not find expected alphabetic or numeric character"
  return if isReference then .reference name else .anchor name

/-!
## Tags

The bytes read so far come last one first.
-/

def isTagChar (c : Char) : Bool :=
  isWordChar c || ";/?:@&=+$,.!~*'()[]%".toList.contains c

def readOctet (start : Mark) : Walk UInt8 := do
  need 3
  let c ← get
  match c.here, hexDigit? (c.ahead 1), hexDigit? (c.ahead 2) with
  | '%', some a, some b => return (a * 16 + b).toUInt8
  | _, _, _ => fail start "did not find URI escaped octet"

/-- Read escapes for the bytes that follow the first one of a character onto those
before, last one first. -/
def readTrailing (start : Mark) : (count : Nat) -> (read : Text) -> Walk Text
  | 0, read => pure read
  | count + 1, read => do
      let b ← readOctet start
      if b.toNat / 64 ≠ 2 then fail start "found an incorrect trailing UTF-8 octet"
      skipN 3
      readTrailing start count (b :: read)

def readEscaped (start : Mark) (read : Text) : Walk Text := do
  let b ← readOctet start
  match Opening.width? b with
  | none => fail start "found an incorrect leading UTF-8 octet"
  | some width => do
      skipN 3
      readTrailing start (width - 1) (b :: read)

/-- Read the bytes of a tag onto those before, last one first. -/
def readTagBytes (start : Mark) : (fuel : Nat) -> (read : Text) -> Walk Text
  | 0, read => pure read
  | fuel + 1, read => do
      need 1
      let x ← here
      if x == '%' then readTagBytes start fuel (← readEscaped start read)
      else if isTagChar x then
        skip
        readTagBytes start fuel (Text.byte x :: read)
      else return read

def readTagRest (start : Mark) (head : Text) : Walk Text := do
  let before ← mark
  let bytes ← readTagBytes start (← fuel) []
  if head.isEmpty && (← mark).index == before.index then
    fail start "did not find expected tag URI"
  return head.drop 1 ++ bytes.reverse

def readTagHandle (isDirective : Bool) (start : Mark) : Walk Text := do
  need 1
  if (← here) != '!' then fail start "did not find expected '!'"
  skip
  let name := Text.ofChars (← readWhile isWordChar)
  if (← here) == '!' then
    skip
    return "!" ++ name ++ "!"
  else
    if isDirective && !name.isEmpty then fail start "did not find expected '!'"
    return "!" ++ name

def readTag : Walk TokenKind := do
  let start ← mark
  need 2
  let kind ←
    if (← ahead 1) == '<' then do
      skipN 2
      let suffix ← readTagRest start []
      if (← here) != '>' then fail start "did not find the expected '>'"
      skip
      pure (.tag [] suffix)
    else do
      let handle ← readTagHandle false start
      if 1 < handle.length && handle.getLast? == some (Text.byte '!') then
        pure (.tag handle (← readTagRest start []))
      else
        let suffix ← readTagRest start handle
        pure (if suffix.isEmpty then .tag [] "!" else .tag "!" suffix)
  need 1
  if !isBlankOrEnd (← here) then fail start "did not find expected whitespace or line break"
  return kind

/-!
## Directives

A directive takes a line of its own, in front of a document.
-/

def readVersionNumber (start : Mark) : Walk Nat := do
  let digits ← readWhile Char.isDigit
  if 2 < digits.length then fail start "found extremely long version number"
  if digits.isEmpty then fail start "did not find expected version number"
  return digits.foldl (fun n d => n * 10 + (d.toNat - 48)) 0

def readVersion (start : Mark) : Walk TokenKind := do
  skipWhile isBlank
  let major ← readVersionNumber start
  if (← here) != '.' then fail start "did not find expected digit or '.' character"
  skip
  return .versionDirective major (← readVersionNumber start)

def readTagDirective (start : Mark) : Walk TokenKind := do
  skipWhile isBlank
  let handle ← readTagHandle true start
  need 1
  if !isBlank (← here) then fail start "did not find expected whitespace"
  skipWhile isBlank
  let replacement ← readTagRest start []
  if !isBlankOrEnd (← here) then fail start "did not find expected whitespace or line break"
  return .tagDirective handle replacement

/-- Read a line that starts with a percent sign, and tell where the directive on it
ends. -/
def readDirective : Walk (TokenKind × Mark) := do
  let start ← mark
  skip
  let name ← readWhile isWordChar
  if name.isEmpty then fail start "could not find expected directive name"
  if !isBlankOrEnd (← here) then fail start "found unexpected non-alphabetical character"
  let kind ←
    if name == "YAML".toList then readVersion start
    else if name == "TAG".toList then readTagDirective start
    else fail start "found unknown directive name"
  let stop ← mark
  skipWhile isBlank
  if (← here) == '#' then skipToBreak
  if !isBreakOrEnd (← here) then fail start "did not find expected comment or line break"
  skipLine
  return (kind, stop)

end Walk
end Yaml
end TaintTrace
