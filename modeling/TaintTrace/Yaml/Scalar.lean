import TaintTrace.Yaml.Token

/-!
# Reading scalars

Plain, quoted and block scalars.  A line break inside a plain or quoted scalar reads
as a space; empty lines after it read as line feeds.
-/

namespace TaintTrace
namespace Yaml

/-- Blanks and line breaks of a scalar that wait until it is known whether more follows,
last ones first. -/
structure Pending where
  blanks : List Char := []
  firstBreak : List Char := []
  moreBreaks : List Char := []
  /-- Whether a line break was passed. -/
  broken : Bool := false

namespace Pending

/-- Add the characters that the blanks and line breaks between two parts read as to those
before, last one first. -/
def joinOnto (p : Pending) (read : List Char) : List Char :=
  if p.broken then
    if p.firstBreak = ['\n'] then
      if p.moreBreaks.isEmpty then ' ' :: read else p.moreBreaks ++ read
    else p.moreBreaks ++ p.firstBreak ++ read
  else p.blanks ++ read

/-- Add a blank; after a line break blanks have no meaning. -/
def withBlank (p : Pending) (x : Char) : Pending :=
  if p.broken then p else { p with blanks := x :: p.blanks }

def withBreak (p : Pending) (line : List Char) : Pending :=
  if p.broken then { p with moreBreaks := line ++ p.moreBreaks }
  else ⟨[], line, p.moreBreaks, true⟩

end Pending

/-!
## Quoted scalars

The characters read so far come last one first.
-/

def escapeChar? (c : Char) : Option Char :=
  match c with
  | '0' => some (Char.ofNat 0)
  | 'a' => some (Char.ofNat 7)
  | 'b' => some (Char.ofNat 8)
  | 't' => some '\t'
  | '\t' => some '\t'
  | 'n' => some '\n'
  | 'v' => some (Char.ofNat 11)
  | 'f' => some (Char.ofNat 12)
  | 'r' => some '\r'
  | 'e' => some (Char.ofNat 27)
  | ' ' => some ' '
  | '"' => some '"'
  | '\'' => some '\''
  | '\\' => some '\\'
  | 'N' => some (Char.ofNat 0x85)
  | '_' => some (Char.ofNat 0xa0)
  | 'L' => some (Char.ofNat 0x2028)
  | 'P' => some (Char.ofNat 0x2029)
  | _ => none

def escapeDigits? (c : Char) : Option Nat :=
  match c with
  | 'x' => some 2
  | 'u' => some 4
  | 'U' => some 8
  | _ => none

def codeAhead? (c : Cursor) : (count n : Nat) -> (value : Nat) -> Option Nat
  | 0, _, value => some value
  | count + 1, n, value =>
      match hexDigit? (c.ahead n) with
      | some d => codeAhead? c count (n + 1) (value * 16 + d)
      | none => none

namespace Walk

def readEscape (start : Mark) : Walk Char := do
  let x ← ahead 1
  match escapeChar? x with
  | some y => do
      skipN 2
      return y
  | none =>
      match escapeDigits? x with
      | none => fail start "found unknown escape character"
      | some digits => do
          skipN 2
          need digits
          match codeAhead? (← get) digits 0 0 with
          | none => fail start "did not find expected hexdecimal number"
          | some code =>
              if code.isValidChar then
                skipN digits
                return Char.ofNat code
              else fail start "found invalid Unicode character escape code"

/-- Read a run of characters of a quoted scalar without blanks and line breaks onto those
before, last one first.  The answer also says whether it ended with an escaped line
break. -/
def readQuotedRun (single : Bool) (start : Mark) : (fuel : Nat) -> (read : List Char) ->
    Walk (List Char × Bool)
  | 0, read => pure (read, false)
  | fuel + 1, read => do
      let x ← here
      if isBlankOrEnd x then return (read, false)
      else if single && x == '\'' then
        if (← ahead 1) == '\'' then
          skipN 2
          need 2
          readQuotedRun single start fuel ('\'' :: read)
        else return (read, false)
      else if !single && x == '"' then return (read, false)
      else if !single && x == '\\' then
        if isBreak (← ahead 1) then
          need 3
          skip
          skipLine
          return (read, true)
        else
          let y ← readEscape start
          need 2
          readQuotedRun single start fuel (y :: read)
      else
        skip
        need 2
        readQuotedRun single start fuel (x :: read)

def readQuotedBlanks : (fuel : Nat) -> Pending -> Walk Pending
  | 0, p => pure p
  | fuel + 1, p => do
      need 1
      let x ← here
      if isBlank x then
        skip
        readQuotedBlanks fuel (p.withBlank x)
      else if isBreak x then
        readQuotedBlanks fuel (p.withBreak (← readLine))
      else return p

/-- Read a quoted scalar after its opening quote.  The characters read so far come
last one first. -/
def readQuotedParts (single : Bool) (start : Mark) : (fuel : Nat) -> (read : List Char) ->
    Walk (List Char)
  | 0, _ => fail start "found unexpected end of stream"
  | fuel + 1, read => do
      need 4
      if (← get).atDocumentIndicator then fail start "found unexpected document indicator"
      if isEnd (← here) then fail start "found unexpected end of stream"
      let (read, escapedBreak) ← readQuotedRun single start (← Walk.fuel) read
      need 1
      if (← here) == (if single then '\'' else '"') then
        skip
        return read.reverse
      else
        let p ← readQuotedBlanks (← Walk.fuel) { broken := escapedBreak }
        readQuotedParts single start fuel (p.joinOnto read)

def readQuoted (single : Bool) : Walk (List Char) := do
  let start ← mark
  skip
  readQuotedParts single start (← fuel) []

/-!
## Plain scalars

A plain scalar goes on over line breaks, as long as its lines are indented.
-/

/-- Whether a plain scalar ends in front of a character that is no blank. -/
def endsPlain (inFlow : Bool) (c : Cursor) : Bool :=
  (c.here == ':' && isBlankOrEnd (c.ahead 1))
    || (inFlow && ",?[]\x7b\x7d".toList.contains c.here)

/-- Read a run of characters of a plain scalar without blanks and line breaks onto those
before, last one first. -/
def readPlainRun (inFlow : Bool) : (fuel : Nat) -> (read : List Char) -> Walk (List Char)
  | 0, read => pure read
  | fuel + 1, read => do
      let c ← get
      if isBlankOrEnd c.here || endsPlain inFlow c then return read
      else
        skip
        need 2
        readPlainRun inFlow fuel (c.here :: read)

def readPlainBlanks (start : Mark) (indent : Int) : (fuel : Nat) -> Pending -> Walk Pending
  | 0, p => pure p
  | fuel + 1, p => do
      need 1
      let c ← get
      if isBlank c.here then
        if p.broken ∧ c.column < indent ∧ c.here = '\t' then
          fail start "found a tab character that violates indentation"
        skip
        readPlainBlanks start indent fuel (p.withBlank c.here)
      else if isBreak c.here then
        readPlainBlanks start indent fuel (p.withBreak (← readLine))
      else return p

/-- A plain scalar: its characters, where its last part ends, and whether a line
break was passed after it. -/
structure PlainScalar where
  value : List Char
  stop : Mark
  broken : Bool

/-- Read the parts of a plain scalar.  The characters read so far come last one first. -/
def readPlainParts (start : Mark) (inFlow : Bool) (indent : Int) : (fuel : Nat) ->
    (read : List Char) -> (stop : Mark) -> Pending -> Walk PlainScalar
  | 0, read, stop, p => pure ⟨read.reverse, stop, p.broken⟩
  | fuel + 1, read, stop, p => do
      need 4
      let c ← get
      if c.atDocumentIndicator || c.here == '#' then return ⟨read.reverse, stop, p.broken⟩
      else
        let run ← readPlainRun inFlow (← Walk.fuel) []
        let last ← mark
        let (read, stop, p) :=
          if run.isEmpty then (read, stop, p) else (run ++ p.joinOnto read, last, {})
        let x ← here
        if !(isBlank x || isBreak x) then return ⟨read.reverse, stop, p.broken⟩
        else
          let p ← readPlainBlanks start indent (← Walk.fuel) p
          if !inFlow && (← get).column < indent then return ⟨read.reverse, stop, p.broken⟩
          else readPlainParts start inFlow indent fuel read stop p

def readPlain (inFlow : Bool) (indent : Int) : Walk PlainScalar := do
  let start ← mark
  readPlainParts start inFlow (indent + 1) (← fuel) [] start {}

/-!
## Block scalars

A header may tell the indentation and what becomes of the last line breaks.  An indentation
that is not told is found from the first lines.
-/

/-- What becomes of the line breaks at the end of a block scalar. -/
inductive Chomping where
  | clip
  | strip
  | keep
  deriving DecidableEq, Repr

/-- Read what becomes of the last line breaks, if that is given. -/
def readChomping? : Walk (Option Chomping) := do
  need 1
  let x ← here
  if x == '+' then
    skip
    return some .keep
  else if x == '-' then
    skip
    return some .strip
  else return none

/-- Read by how much a block scalar is indented; zero if that is not given. -/
def readIncrement (start : Mark) : Walk Nat := do
  need 1
  let x ← here
  if x.isDigit then
    if x == '0' then fail start "found an indentation indicator equal to 0"
    skip
    return x.toNat - 48
  else return 0

def readBlockHeader (start : Mark) : Walk (Chomping × Nat) := do
  match ← readChomping? with
  | some chomping => return (chomping, ← readIncrement start)
  | none => do
      let increment ← readIncrement start
      if increment = 0 then return (.clip, 0)
      else return ((← readChomping?).getD .clip, increment)

/-- Read indentation and empty lines of a block scalar.  An indentation of zero is
not known yet.  The answer has the line breaks, last one first, and the greatest
column. -/
def readBlockBreaks (start : Mark) (indent : Nat) : (fuel : Nat) -> (breaks : List Char) ->
    (widest : Nat) -> Walk (List Char × Nat)
  | 0, breaks, widest => pure (breaks, widest)
  | fuel + 1, breaks, widest => do
      need 1
      let c ← get
      let within := indent = 0 ∨ c.column < indent
      if within ∧ c.here = ' ' then
        skip
        readBlockBreaks start indent fuel breaks widest
      else if within ∧ c.here = '\t' then
        fail start "found a tab character where an indentation space is expected"
      else if isBreak c.here then
        let line ← readLine
        readBlockBreaks start indent fuel (line ++ breaks) (max widest c.column)
      else return (breaks, max widest c.column)

/-- The parts of a block scalar, last characters first: its lines, the line break of the
last line and the empty lines after it. -/
structure BlockLines where
  read : List Char
  lastBreak : List Char
  moreBreaks : List Char

/-- Read the lines of a block scalar.  `blankStart` says whether the line before began
with a blank. -/
def readBlockLines (start : Mark) (literal : Bool) (indent : Nat) : (fuel : Nat) -> BlockLines ->
    (blankStart : Bool) -> Walk BlockLines
  | 0, lines, _ => pure lines
  | fuel + 1, ⟨read, lastBreak, moreBreaks⟩, blankStart => do
      need 1
      let c ← get
      if c.column ≠ indent ∨ isEnd c.here then return ⟨read, lastBreak, moreBreaks⟩
      else
        let blank := isBlank c.here
        let glue :=
          if !literal && !blankStart && !blank && lastBreak == ['\n'] then
            if moreBreaks.isEmpty then [' '] else []
          else lastBreak
        let line ← readWhile fun x => !isBreakOrEnd x
        let lastBreak ← readLine
        let (breaks, _) ← readBlockBreaks start indent (← Walk.fuel) [] 0
        readBlockLines start literal indent fuel
          ⟨line.reverse ++ (moreBreaks ++ (glue ++ read)), lastBreak, breaks⟩ blank

def readBlock (literal : Bool) (parentIndent : Int) : Walk (List Char) := do
  let start ← mark
  skip
  let (chomping, increment) ← readBlockHeader start
  skipWhile isBlank
  if (← here) == '#' then skipToBreak
  if !isBreakOrEnd (← here) then fail start "did not find expected comment or line break"
  skipLine
  let given := if 0 < increment then (max parentIndent 0).toNat + increment else 0
  let (breaks, widest) ← readBlockBreaks start given (← fuel) [] 0
  let indent :=
    if given = 0 then max (max widest (parentIndent + 1).toNat) 1 else given
  let lines ← readBlockLines start literal indent (← fuel) ⟨[], [], breaks⟩ false
  let tail :=
    match chomping with
    | .strip => []
    | .clip => lines.lastBreak
    | .keep => lines.moreBreaks ++ lines.lastBreak
  return (tail ++ lines.read).reverse

end Walk
end Yaml
end TaintTrace
