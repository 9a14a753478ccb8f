import TaintTrace.Yaml.Source

/-!
# Reading positions

A cursor walks over the characters of a stream and counts lines and columns.  It
also counts the line breaks it has passed since the last character that is not
blank.  Characters must be asked for before they are looked at; asking may reach a
block with a fault.
-/

namespace TaintTrace
namespace Yaml

structure Mark where
  index : Nat
  line : Nat
  column : Nat

/-- A reading position.  The first `known` characters have been asked for, those from
`window` on since the last time a block was needed; `blocks` are left to be read.
`pending` is a fault that was met by looking further ahead than was necessary. -/
structure Cursor where
  source : Source
  blocks : List Nat
  known : Nat := 0
  window : Nat := 0
  index : Nat := 0
  line : Nat := 0
  column : Nat := 0
  newlines : Nat := 0
  pending : Option SyntaxError := none

namespace Cursor

def ofSource (s : Source) : Cursor :=
  { source := s, blocks := s.blocks }

def mark (c : Cursor) : Mark :=
  ⟨c.index, c.line, c.column⟩

def ahead (c : Cursor) (n : Nat) : Char :=
  c.source.chars.getD (c.index + n) (Char.ofNat 0)

def here (c : Cursor) : Char :=
  c.ahead 0

def fuel (c : Cursor) : Nat :=
  c.source.chars.size - c.index + 4

def skip (c : Cursor) : Cursor :=
  { c with
    index := c.index + 1
    column := c.column + 1
    newlines := if isBlank c.here then c.newlines else 0 }

/-- Move on by one line break, if there is one; a carriage return and the line feed
after it are one. -/
def skipLine (c : Cursor) : Cursor :=
  let width :=
    if c.here == '\r' && c.ahead 1 == '\n' then 2 else if isBreak c.here then 1 else 0
  if width = 0 then c
  else
    { c with
      index := c.index + width
      line := c.line + 1
      column := 0
      newlines := c.newlines + 1 }

/-- Read blocks until some characters ahead are known.  The end of the stream counts as
one character more each time it is reached. -/
def fillFrom (n : Nat) (c : Cursor) : (blocks : List Nat) -> Except SyntaxError Cursor
  | [] =>
      match c.source.fault with
      | some e => .error e
      | none => .ok { c with blocks := [], known := max c.known c.source.chars.size + 1 }
  | size :: rest =>
      if c.index + n ≤ size then .ok { c with blocks := rest, known := size }
      else fillFrom n c rest

def fill (n : Nat) (c : Cursor) : Except SyntaxError Cursor :=
  if c.index + n ≤ c.known then .ok c else fillFrom n { c with window := c.index } c.blocks

/-- Whether three equal characters and a blank stand at the start of a line here. -/
def atIndicator (c : Cursor) (x : Char) : Bool :=
  c.column == 0 && c.here == x && c.ahead 1 == x && c.ahead 2 == x && isBlankOrEnd (c.ahead 3)

/-- Whether a line that starts or ends a document begins here. -/
def atDocumentIndicator (c : Cursor) : Bool :=
  c.atIndicator '-' || c.atIndicator '.'

/-- Whether a byte order mark is to be passed: it is looked for at the start of the
window, when the cursor is at the start of a line. -/
def atByteOrderMark (c : Cursor) : Bool :=
  c.column == 0 && (c.source.chars.getD c.window (Char.ofNat 0)).toNat == 0xfeff

end Cursor

/-- A fault found while reading tokens, with the place where the token begins. -/
def scanError (context : Mark) (c : Cursor) (problem : Text) : SyntaxError :=
  let line :=
    if context.line ≠ 0 then context.line + 1 else if c.line ≠ 0 then c.line + 1 else 0
  ⟨line, problem⟩

abbrev Walk (α : Type) : Type :=
  StateT Cursor (Except SyntaxError) α

namespace Walk

def fail {α : Type} (context : Mark) (problem : Text) : Walk α := do
  throw (scanError context (← get) problem)

def need (n : Nat) : Walk Unit := do
  set (← (← get).fill n)

/-- Try to make some characters ahead known.  A fault in them is kept, and all characters
in front of it are known then. -/
def reach (n : Nat) : Walk Bool := do
  let c ← get
  match c.fill n with
  | .ok c => do
      set c
      return true
  | .error e => do
      set { c with blocks := [], known := c.source.chars.size, window := c.index, pending := some e }
      return false

def mark : Walk Mark := do
  return (← get).mark

def here : Walk Char := do
  return (← get).here

def ahead (n : Nat) : Walk Char := do
  return (← get).ahead n

def fuel : Walk Nat := do
  return (← get).fuel

def skip : Walk Unit :=
  modify Cursor.skip

def skipN : Nat -> Walk Unit
  | 0 => pure ()
  | n + 1 => do
      skip
      skipN n

def skipLine : Walk Unit := do
  if isBreak (← here) then
    need 2
    modify Cursor.skipLine

/-- Read a line break.  The separators of lines and paragraphs are kept, all other
breaks become a line feed. -/
def readLine : Walk (List Char) := do
  need 2
  let c ← get
  if isBreak c.here then
    set c.skipLine
    return [if c.here.toNat == 0x2028 || c.here.toNat == 0x2029 then c.here else '\n']
  else
    set { c with newlines := c.newlines + 1 }
    return []

/-- Read characters of a class onto those before, last one first.  The fuel bounds their
number. -/
def readWhileFrom (p : Char -> Bool) : (fuel : Nat) -> (read : List Char) -> Walk (List Char)
  | 0, read => pure read.reverse
  | fuel + 1, read => do
      need 1
      let x ← here
      if p x then
        skip
        readWhileFrom p fuel (x :: read)
      else return read.reverse

def readWhile (p : Char -> Bool) : Walk (List Char) := do
  readWhileFrom p (← fuel) []

/-- Pass characters of a class.  The fuel bounds their number. -/
def skipWhileFrom (p : Char -> Bool) : (fuel : Nat) -> Walk Unit
  | 0 => pure ()
  | fuel + 1 => do
      need 1
      if p (← here) then
        skip
        skipWhileFrom p fuel

def skipWhile (p : Char -> Bool) : Walk Unit := do
  skipWhileFrom p (← fuel)

def skipToBreak : Walk Unit :=
  skipWhile fun x => !isBreakOrEnd x

/-!
## Comments

Comments are looked for at most `window` characters ahead, and not behind a fault.
-/

def window : Nat := 512

def contentAhead? : (fuel n : Nat) -> Walk (Option Nat)
  | 0, _ => pure none
  | fuel + 1, n => do
      if !(← reach (n + 1)) then return none
      else if isBlank (← ahead n) then contentAhead? fuel (n + 1)
      else return some n

/-- Skip blanks and a comment that follows on the same line, unless a line break was
just passed. -/
def skipLineComment : Walk Unit := do
  if (← get).newlines = 0 then
    match ← contentAhead? window 0 with
    | none => pure ()
    | some n =>
        if (← ahead n) == '#' then
          skipN n
          skipToBreak

/-- The place ahead of a comment on a line that follows.  Between the two are only blanks
and the line breaks that take one byte. -/
def commentAhead? : (fuel n : Nat) -> Walk (Option Nat)
  | 0, _ => pure none
  | fuel + 1, n => do
      if !(← reach (n + 1)) then return none
      else
        let x ← ahead n
        if isBlank x || x == '\r' || x == '\n' then commentAhead? fuel (n + 1)
        else return if x == '#' then some n else none

def advanceTo (index : Nat) : (fuel : Nat) -> Walk Unit
  | 0 => pure ()
  | fuel + 1 => do
      need 1
      let c ← get
      if c.index < index then
        if isBreak c.here then skipLine else skip
        advanceTo index fuel

def skipComments : (fuel : Nat) -> Walk Unit
  | 0 => pure ()
  | fuel + 1 => do
      skipToBreak
      let c ← get
      if c.here == '\r' || c.here == '\n' then
        match ← commentAhead? (window - 1) 1 with
        | none => pure ()
        | some n => do
            advanceTo (c.index + n) c.fuel
            skipComments fuel

end Walk
end Yaml
end TaintTrace
