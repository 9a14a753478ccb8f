import TaintTrace.Yaml.Scalar
import TaintTrace.Yaml.Directive

/-!
# Token streams

A stream hands out tokens one by one.  Indentation opens and closes blocks.  A word
may turn out to be a key only when a colon follows it, so a stream reads ahead and
keeps the places where a key may begin; the token of a key is then inserted there.
-/

namespace TaintTrace
namespace Yaml

/-- A place where a key may begin.  Tokens are held back as long as the place is
awaited. -/
structure KeyPlace where
  possible : Bool := false
  awaited : Bool := false
  required : Bool := false
  tokenNumber : Nat := 0
  mark : Mark := ⟨0, 0, 0⟩

/-- A stream of tokens.  `queue` holds the tokens that were read and not yet taken,
`keys` one place for each flow collection that is open and one for the block, the
innermost first. -/
structure TokenStream where
  cursor : Cursor
  started : Bool := false
  flowLevel : Nat := 0
  indent : Int := -1
  indents : List Int := []
  keyAllowed : Bool := false
  keys : List KeyPlace := []
  queue : List Token := []
  taken : Nat := 0

abbrev Scan (α : Type) : Type :=
  StateT TokenStream (Except SyntaxError) α

namespace TokenStream

def ofSource (s : Source) : TokenStream :=
  { cursor := Cursor.ofSource s }

def nextNumber (s : TokenStream) : Nat :=
  s.taken + s.queue.length

def maxDepth : Nat := 10000

end TokenStream

namespace Scan

def walk {α : Type} (steps : Walk α) : Scan α := do
  let s ← get
  match steps.run s.cursor with
  | .error e => throw e
  | .ok (a, c) => do
      set { s with cursor := c }
      return a

def fail {α : Type} (context : Mark) (problem : Text) : Scan α :=
  walk (Walk.fail context problem)

def failHere {α : Type} (problem : Text) : Scan α := do
  fail (← get).cursor.mark problem

def allowKey (allowed : Bool) : Scan Unit :=
  modify fun s => { s with keyAllowed := allowed }

def push (kind : TokenKind) (start stop : Mark) : Scan Unit :=
  modify fun s => { s with queue := s.queue ++ [⟨kind, start, stop⟩] }

/-- Insert a token with a given number; if the token that has this number was taken, it
comes last. -/
def insertAt (number : Nat) (kind : TokenKind) (mark : Mark) : Scan Unit := do
  let s ← get
  if number < s.taken then push kind mark mark
  else
    let n := number - s.taken
    modify fun s => { s with queue := s.queue.take n ++ ⟨kind, mark, mark⟩ :: s.queue.drop n }

def pushRead (steps : Walk TokenKind) : Scan Unit := do
  let start := (← get).cursor.mark
  let kind ← walk steps
  push kind start (← get).cursor.mark

def pushMark (kind : TokenKind) (width : Nat) : Scan Unit :=
  pushRead do
    Walk.skipN width
    return kind

/-!
## Places of keys

A place is remembered as long as a key may begin there.
-/

def missingColon : Text := "could not find expected ':'"

/-- Whether a key may still begin at a place: a key ends on the line where it begins
and has at most 1024 characters. -/
def keyIsValid (k : KeyPlace) : Scan Bool := do
  if !k.possible then return false
  let c := (← get).cursor
  if k.mark.line < c.line || k.mark.index + 1024 < c.index then
    if k.required then fail k.mark missingColon else return false
  else return true

def setKey (k : KeyPlace) : Scan Unit :=
  modify fun s =>
    match s.keys with
    | [] => s
    | _ :: rest => { s with keys := k :: rest }

def currentKey : Scan KeyPlace := do
  return (← get).keys.headD {}

def removeKey : Scan Unit := do
  let k ← currentKey
  if k.possible then
    if k.required then fail k.mark missingColon
    setKey { k with possible := false, awaited := false }

def saveKey : Scan Unit := do
  let s ← get
  if s.keyAllowed then
    let required := s.flowLevel == 0 && s.indent == (s.cursor.column : Int)
    let number := s.nextNumber
    removeKey
    setKey ⟨true, true, required, number, s.cursor.mark⟩

/-!
## Indentation

Blocks are open one inside of the other, each indented further than the one around it.
-/

/-- Open a block, unless one with this indentation is open. -/
def rollIndent (column : Nat) (number : Option Nat) (kind : TokenKind) (mark : Mark) :
    Scan Unit := do
  let s ← get
  if s.flowLevel == 0 && s.indent < (column : Int) then
    set { s with indents := s.indent :: s.indents, indent := (column : Int) }
    if TokenStream.maxDepth < s.indents.length + 1 then
      fail (← currentKey).mark "exceeded max depth of 10000"
    insertAt (number.getD s.nextNumber) kind mark

def unrollIndents (column : Int) : (indents : List Int) -> Scan Unit
  | [] => pure ()
  | outer :: rest => do
      let s ← get
      if s.indent > column then
        push .blockEnd s.cursor.mark s.cursor.mark
        modify fun s => { s with indent := outer, indents := rest }
        unrollIndents column rest

def unrollIndent (column : Int) : Scan Unit := do
  let s ← get
  if s.flowLevel == 0 then unrollIndents column s.indents

/-!
## The next token

A token is told by its first characters.  In front of it blanks and comments are skipped,
and blocks that end here are closed.
-/

/-- Close all blocks; a key may not begin here. -/
def closeBlocks : Scan Unit := do
  unrollIndent (-1)
  removeKey
  allowKey false

def fetchStreamStart : Scan Unit := do
  let mark := (← get).cursor.mark
  modify fun s => { s with started := true, keyAllowed := true, keys := [{}] }
  push .streamStart mark mark

def fetchStreamEnd : Scan Unit := do
  modify fun s =>
    if s.cursor.column = 0 then s
    else { s with cursor := { s.cursor with column := 0, line := s.cursor.line + 1 } }
  closeBlocks
  let mark := (← get).cursor.mark
  push .streamEnd mark mark

def fetchFlowStart (kind : TokenKind) : Scan Unit := do
  saveKey
  modify fun s =>
    { s with
      flowLevel := s.flowLevel + 1
      keys := { tokenNumber := s.nextNumber, mark := s.cursor.mark } :: s.keys }
  if TokenStream.maxDepth < (← get).flowLevel then
    fail (← currentKey).mark "exceeded max depth of 10000"
  allowKey true
  pushMark kind 1

/-- Close a flow collection.  A place that has the number of the innermost one is not
awaited any longer. -/
def closeFlow : Scan Unit :=
  modify fun s =>
    match s.keys with
    | inner :: k :: outer =>
        let release (k : KeyPlace) : KeyPlace :=
          if k.tokenNumber = inner.tokenNumber then { k with awaited := false } else k
        { s with flowLevel := s.flowLevel - 1, keys := (k :: outer).map release }
    | _ => s

def fetchFlowEnd (kind : TokenKind) : Scan Unit := do
  removeKey
  closeFlow
  allowKey false
  pushMark kind 1

def fetchFlowEntry : Scan Unit := do
  removeKey
  allowKey true
  pushMark .flowEntry 1

/-- In a block, open one at this column if a key may begin here. -/
def openBlock (kind : TokenKind) (problem : Text) : Scan Unit := do
  let s ← get
  if s.flowLevel == 0 then
    if !s.keyAllowed then failHere problem
    rollIndent s.cursor.column none kind s.cursor.mark

def fetchBlockEntry : Scan Unit := do
  openBlock .blockSequenceStart "block sequence entries are not allowed in this context"
  removeKey
  allowKey true
  pushMark .blockEntry 1

def fetchKey : Scan Unit := do
  openBlock .blockMappingStart "mapping keys are not allowed in this context"
  removeKey
  allowKey ((← get).flowLevel == 0)
  pushMark .key 1

def fetchValue : Scan Unit := do
  let k ← currentKey
  if ← keyIsValid k then
    insertAt k.tokenNumber .key k.mark
    rollIndent k.mark.column (some k.tokenNumber) .blockMappingStart k.mark
    setKey { k with possible := false, awaited := false }
    allowKey false
  else
    openBlock .blockMappingStart "mapping values are not allowed in this context"
    allowKey ((← get).flowLevel == 0)
  pushMark .value 1

def fetchBlockScalar (literal : Bool) : Scan Unit := do
  removeKey
  allowKey true
  let s ← get
  pushRead do
    return .scalar (← Walk.readBlock literal s.indent) (if literal then .literal else .folded)

def fetchQuoted (single : Bool) : Scan Unit := do
  saveKey
  allowKey false
  pushRead do
    return .scalar (← Walk.readQuoted single) (if single then .singleQuoted else .doubleQuoted)

def fetchPlain : Scan Unit := do
  saveKey
  allowKey false
  let s ← get
  let plain ← walk (Walk.readPlain (0 < s.flowLevel) s.indent)
  if plain.broken then allowKey true
  push (.scalar plain.value .plain) s.cursor.mark plain.stop

/-- Skip blanks, comments and line breaks in front of the next token. -/
def skipToToken : (fuel : Nat) -> Scan Unit
  | 0 => pure ()
  | fuel + 1 => do
      let s ← get
      let tabs := 0 < s.flowLevel || !s.keyAllowed
      let x ← walk do
        Walk.need 1
        if (← get).atByteOrderMark then Walk.skip
        Walk.skipWhile fun x => x == ' ' || (tabs && x == '\t')
        if (← Walk.here) == '#' then Walk.skipComments (← Walk.fuel)
        Walk.here
      if isBreak x then
        walk Walk.skipLine
        if s.flowLevel == 0 then allowKey true
        skipToToken fuel

def startsPlain (flowLevel : Nat) (c : Cursor) : Bool :=
  !(isBlankOrEnd c.here || "-?:,[]\x7b\x7d#&*!|>'\"%@`".toList.contains c.here)
    || (c.here == '-' && !isBlank (c.ahead 1))
    || (flowLevel == 0 && (c.here == '?' || c.here == ':') && !isBlankOrEnd (c.ahead 1))

/-- Read the token that begins here and is no directive and no document mark. -/
def fetchContent : Scan Unit := do
  let s ← get
  let c := s.cursor
  let inFlow := 0 < s.flowLevel
  let x := c.here
  if x == '[' then fetchFlowStart .flowSequenceStart
  else if x == '\x7b' then fetchFlowStart .flowMappingStart
  else if x == ']' then fetchFlowEnd .flowSequenceEnd
  else if x == '\x7d' then fetchFlowEnd .flowMappingEnd
  else if x == ',' then fetchFlowEntry
  else if x == '-' && isBlankOrEnd (c.ahead 1) then fetchBlockEntry
  else if x == '?' && (inFlow || isBlankOrEnd (c.ahead 1)) then fetchKey
  else if x == ':' && (inFlow || isBlankOrEnd (c.ahead 1)) then fetchValue
  else if x == '*' || x == '&' then do
    saveKey
    allowKey false
    pushRead (Walk.readAnchor (x == '*'))
  else if x == '!' then do
    saveKey
    allowKey false
    pushRead Walk.readTag
  else if x == '|' && !inFlow then fetchBlockScalar true
  else if x == '>' && !inFlow then fetchBlockScalar false
  else if x == '\'' then fetchQuoted true
  else if x == '"' then fetchQuoted false
  else if startsPlain s.flowLevel c then fetchPlain
  else failHere "found character that cannot start any token"
  let last := (← get).queue.getLast?
  if (last.map (·.kind)) != some .blockEntry then walk Walk.skipLineComment

def fetchNext : Scan Unit := do
  walk (Walk.need 1)
  if !(← get).started then fetchStreamStart
  else
    skipToToken (← get).cursor.fuel
    unrollIndent (← get).cursor.column
    walk (Walk.need 4)
    let c := (← get).cursor
    if isEnd c.here then fetchStreamEnd
    else if c.column == 0 && c.here == '%' then do
      closeBlocks
      let start := c.mark
      let (kind, stop) ← walk Walk.readDirective
      push kind start stop
    else if c.atIndicator '-' then do
      closeBlocks
      pushMark .documentStart 3
    else if c.atIndicator '.' then do
      closeBlocks
      pushMark .documentEnd 3
    else fetchContent

/-- Read until three tokens wait and the first of them is no word that may turn out
to be a key. -/
def fetchMore : (fuel : Nat) -> Scan Unit
  | 0 => pure ()
  | fuel + 1 => do
      let s ← get
      if s.queue.length ≤ 2 then
        fetchNext
        fetchMore fuel
      else
        match s.keys.find? fun k => k.awaited && k.tokenNumber == s.taken with
        | none => pure ()
        | some k =>
            if ← keyIsValid k then
              fetchNext
              fetchMore fuel

def peek : Scan Token := do
  fetchMore ((← get).cursor.fuel + 4)
  return (← get).queue.headD ⟨.streamEnd, (← get).cursor.mark, (← get).cursor.mark⟩

def take : Scan Unit :=
  modify fun s => { s with queue := s.queue.tail, taken := s.taken + 1 }

end Scan
end Yaml
end TaintTrace
