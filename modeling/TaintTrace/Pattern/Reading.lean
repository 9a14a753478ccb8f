import TaintTrace.Pattern.Assembly

/-!
# Reading patterns

A pattern is read from the left, and the first fault ends the reading.  Groups may
change how the text inside them is read: without regard to case, line by line, or
with dots that match newlines.
-/

namespace TaintTrace
namespace Pattern

/-!
## Escapes and sets

Inside and outside of brackets, an escape stands for a code point or for a set of them.
-/

def isOctal (c : Char) : Bool :=
  '0' ≤ c && c ≤ '7'

def hexDigit? (c : Char) : Option Nat :=
  if c.isDigit then some (c.toNat - 48)
  else if 'a' ≤ c ∧ c ≤ 'f' then some (c.toNat - 87)
  else if 'A' ≤ c ∧ c ≤ 'F' then some (c.toNat - 55)
  else none

/-- Read the digits of a code in braces, after `digits` of them.  If they are not
valid, the place where the reading stopped is returned. -/
def readBraced : List Char -> (value digits : Nat) -> Except (List Char) (Nat × List Char)
  | [], _, _ => .error []
  | c :: rest, value, digits =>
      if c = '\x7d' then if digits = 0 then .error rest else .ok (value, rest)
      else
        match hexDigit? c with
        | none => .error rest
        | some d =>
            if 0x10ffff < value * 16 + d then .error rest
            else readBraced rest (value * 16 + d) (digits + 1)

def readHex (cs : List Char) : Except (List Char) (Nat × List Char) :=
  match cs with
  | [] => .error []
  | '\x7b' :: rest => readBraced rest 0 0
  | [_] => .error []
  | a :: b :: rest =>
      match hexDigit? a, hexDigit? b with
      | some x, some y => .ok (x * 16 + y, rest)
      | _, _ => .error rest

def readOctal (first : Char) (cs : List Char) : Nat × List Char :=
  let digits := (cs.take 2).takeWhile isOctal
  (digits.foldl (fun n c => n * 8 + (c.toNat - 48)) (first.toNat - 48), cs.drop digits.length)

/-- Read an escaped code point.  The text starts with the backslash. -/
def readEscape (cs : List Char) : Except Fault (Nat × List Char) :=
  match cs.drop 1 with
  | [] => .error ⟨.trailingBackslash, []⟩
  | c :: rest =>
      let bad (stop : List Char) : Except Fault (Nat × List Char) :=
        .error (.between .escape cs stop)
      if c = '0' ∨ (isOctal c ∧ rest.head?.any isOctal) then .ok (readOctal c rest)
      else if c = 'x' then
        match readHex rest with
        | .ok r => .ok r
        | .error stop => bad stop
      else if c = 'a' then .ok (7, rest)
      else if c = 'f' then .ok (12, rest)
      else if c = 'n' then .ok (10, rest)
      else if c = 'r' then .ok (13, rest)
      else if c = 't' then .ok (9, rest)
      else if c = 'v' then .ok (11, rest)
      else if c.toNat < 0x80 ∧ !c.isAlphanum then .ok (c.toNat, rest)
      else bad rest

def digits : List (Nat × Nat) := [(48, 57)]
def spaces : List (Nat × Nat) := [(9, 10), (12, 13), (32, 32)]
def words : List (Nat × Nat) := [(48, 57), (65, 90), (95, 95), (97, 122)]

def signed (negated : Bool) (s : CharSet) : CharSet :=
  if negated then s.complement else s

/-- A set as it is meant under some flags, maybe inverted. -/
def adapted (flags : Flags) (negated : Bool) (s : CharSet) : CharSet :=
  signed negated (if flags.fold then s.withCases else s)

/-- The ranges of an escape such as `\d`, and whether the set is inverted. -/
def escapedSet? (c : Char) : Option (Bool × List (Nat × Nat)) :=
  match c with
  | 'd' => some (false, digits)
  | 'D' => some (true, digits)
  | 's' => some (false, spaces)
  | 'S' => some (true, spaces)
  | 'w' => some (false, words)
  | 'W' => some (true, words)
  | _ => none

def namedSets : List (String × List (Nat × Nat)) :=
  [("alnum", [(48, 57), (65, 90), (97, 122)]), ("alpha", [(65, 90), (97, 122)]),
    ("ascii", [(0, 127)]), ("blank", [(9, 9), (32, 32)]), ("cntrl", [(0, 31), (127, 127)]),
    ("digit", digits), ("graph", [(33, 126)]), ("lower", [(97, 122)]), ("print", [(32, 126)]),
    ("punct", [(33, 47), (58, 64), (91, 96), (123, 126)]), ("space", [(9, 13), (32, 32)]),
    ("upper", [(65, 90)]), ("word", words), ("xdigit", [(48, 57), (65, 70), (97, 102)])]

/-- The characters up to a closing mark of two characters, and those after it. -/
def cutAt (a b : Char) : List Char -> Option (List Char × List Char)
  | [] => none
  | c :: rest =>
      match rest with
      | d :: more =>
          if c = a ∧ d = b then some ([], more)
          else (cutAt a b rest).map fun (x, y) => (c :: x, y)
      | [] => none

/-- Read a named set such as `[:alpha:]`, if one stands here. -/
def readNamedSet? (flags : Flags) (cs : List Char) :
    Except Fault (Option (CharSet × List Char)) :=
  match cs with
  | '[' :: ':' :: inner =>
      match cutAt ':' ']' inner with
      | none => .ok none
      | some (name, rest) =>
          let (negated, key) :=
            match name with
            | '^' :: key => (true, key)
            | key => (false, key)
          match namedSets.lookup (String.ofList key) with
          | some members => .ok (some (adapted flags negated (.ofRanges members), rest))
          | none => .error (.between .charRange cs rest)
  | _ => .ok none

/-- Read a property such as `\pL` or `\p{Greek}`, if one stands here. -/
def readProperty? (flags : Flags) (cs : List Char) :
    Except Fault (Option (CharSet × List Char)) :=
  match cs with
  | '\\' :: c :: after =>
      if c ≠ 'p' ∧ c ≠ 'P' then .ok none
      else
        let found : Except Fault (List Char × List Char) :=
          match after with
          | [] => .ok ([], [])
          | '\x7b' :: inner =>
              if inner.contains '\x7d' then
                .ok (inner.takeWhile (· ≠ '\x7d'), (inner.dropWhile (· ≠ '\x7d')).drop 1)
              else .error (.whole .charRange cs)
          | letter :: rest => .ok ([letter], rest)
        match found with
        | .error e => .error e
        | .ok (name, rest) =>
            let (inverted, key) :=
              match name with
              | '^' :: key => (true, key)
              | key => (false, key)
            match CharSet.named? flags.fold key with
            | some set => .ok (some (signed ((c == 'P') != inverted) set, rest))
            | none => .error (.between .charRange cs rest)
  | _ => .ok none

/-- Read a set such as `\d`, if one stands here. -/
def readEscapedSet? (flags : Flags) (cs : List Char) : Option (CharSet × List Char) :=
  match cs with
  | '\\' :: c :: rest =>
      (escapedSet? c).map fun (negated, members) =>
        (adapted flags negated (.ofRanges members), rest)
  | _ => none

def readMember (whole cs : List Char) : Except Fault (Nat × List Char) :=
  match cs with
  | [] => .error (.whole .missingBracket whole)
  | '\\' :: _ => readEscape cs
  | c :: rest => .ok (c.toNat, rest)

def readRange (flags : Flags) (whole cs : List Char) : Except Fault (CharSet × List Char) := do
  let (low, rest) ← readMember whole cs
  let range (high : Nat) : CharSet := adapted flags false ⟨[(low, high)]⟩
  match rest with
  | '-' :: next :: more =>
      if next = ']' then return (range low, rest)
      else
        let (high, rest) ← readMember whole (next :: more)
        if high < low then .error (.between .charRange cs rest)
        else return (range high, rest)
  | _ => return (range low, rest)

/-- Read the members of a set up to the closing bracket.  A bracket that comes first
is a member. -/
def readMembers (flags : Flags) (whole : List Char) : (fuel : Nat) -> (first : Bool) ->
    List Char -> (read : List (Nat × Nat)) -> Except Fault (CharSet × List Char)
  | 0, _, _, _ => .error (.whole .missingBracket whole)
  | fuel + 1, first, cs, read =>
      match cs with
      | [] => .error (.whole .missingBracket whole)
      | c :: rest =>
          if c = ']' ∧ !first then .ok (.ofRanges read, rest)
          else do
            let (members, rest) ← readMembersHere cs
            readMembers flags whole fuel false rest (members.ranges ++ read)
where
  /-- Read a set inside of brackets, or a code point or a range of them. -/
  readMembersHere (cs : List Char) : Except Fault (CharSet × List Char) := do
    match ← readNamedSet? flags cs with
    | some found => return found
    | none =>
        match ← readProperty? flags cs with
        | some found => return found
        | none =>
            match readEscapedSet? flags cs with
            | some found => return found
            | none => readRange flags whole cs

/-- Read a set in brackets.  The text starts with the opening bracket. -/
def readSet (flags : Flags) (cs : List Char) : Except Fault (CharSet × List Char) := do
  let (negated, inner) :=
    match cs.drop 1 with
    | '^' :: rest => (true, rest)
    | rest => (false, rest)
  let (members, rest) ← readMembers flags cs (inner.length + 1) true inner []
  return (if negated then members.complement else members, rest)

/-!
## Repetitions

Braces that hold no counts stand for themselves.
-/

/-- Read a count, which has no leading zero.  A count of more than eight digits is
too large to be told. -/
def readCount? (cs : List Char) : Option (Option Nat × List Char) :=
  let found := cs.takeWhile Char.isDigit
  if found.isEmpty ∨ (found.head? = some '0' ∧ 1 < found.length) then none
  else
    let value := found.foldl (fun n c => n * 10 + (c.toNat - 48)) 0
    some (if 9 < found.length then none else some value, cs.drop found.length)

/-- The counts of a repetition in braces: the least and the greatest, if there is one.
A count that is too large makes them none. -/
def readCounts? (cs : List Char) : Option (Option (Nat × Option Nat) × List Char) :=
  match cs with
  | '\x7b' :: inner =>
      match readCount? inner with
      | some (least, '\x7d' :: rest) => some (least.map fun n => (n, some n), rest)
      | some (least, ',' :: '\x7d' :: rest) => some (least.map fun n => (n, none), rest)
      | some (least, ',' :: more) =>
          match readCount? more with
          | some (most, '\x7d' :: rest) =>
              some (least.bind fun n => most.map fun m => (n, some m), rest)
          | _ => none
      | _ => none
  | _ => none

def maxCount : Nat := 1000

/-!
## Groups and branches

The place where a repetition right before began is carried along, as two of them must not
follow each other.
-/

/-- Put a repetition around the last part.  `start` is where the repetition begins,
`stop` where it ends unless a question mark follows, and `last` where a repetition
right before it begins.  The answer is the rest of the text. -/
def readRepeat (wrap : (sparing : Bool) -> Pattern -> Pattern) (start stop : List Char)
    (last : Option (List Char)) : Assembling (List Char) := do
  let (marked, stop) :=
    match stop with
    | '?' :: rest => (true, rest)
    | _ => (false, stop)
  if let some before := last then throw (.between .nestedRepeat before stop)
  let sparing := (← get).flags.sparing != marked
  let p ← Assembling.wrapLast (wrap sparing) (.between .missingOperand start stop)
  if !countsFit maxCount p then throw (.between .repeatCount start stop)
  return stop

def isNameChar (c : Char) : Bool :=
  c.isAlphanum || c == '_'

/-- Read the flags of a group, up to the colon or the closing mark.  `on` tells
whether flags are set or cleared, `seen` whether one was read. -/
def readFlags (start : List Char) : List Char -> Flags -> (on seen : Bool) ->
    Except Fault (Flags × Bool × List Char)
  | [], _, _, _ => .error (.whole .groupFlags start)
  | c :: rest, flags, on, seen =>
      if c = 'i' then readFlags start rest { flags with fold := on } on true
      else if c = 'm' then readFlags start rest { flags with lines := on } on true
      else if c = 's' then readFlags start rest { flags with dotNewline := on } on true
      else if c = 'U' then readFlags start rest { flags with sparing := on } on true
      else if c = '-' ∧ on then readFlags start rest flags false false
      else if (c = ':' ∨ c = ')') ∧ (on ∨ seen) then .ok (flags, c == ':', rest)
      else .error (.between .groupFlags start rest)

def readGroupStart (cs : List Char) : Assembling (List Char) := do
  let flags := (← get).flags
  let inner := cs.drop 2
  let name? : Option (List Char) :=
    match inner with
    | 'P' :: '<' :: c :: rest => some (c :: rest)
    | '<' :: c :: rest => some (c :: rest)
    | _ => none
  match name? with
  | some more =>
      if more.contains '>' then
        let name := more.takeWhile (· ≠ '>')
        let rest := (more.dropWhile (· ≠ '>')).drop 1
        if name.isEmpty || !name.all isNameChar then throw (.between .namedGroup cs rest)
        Assembling.openGroup true flags
        return rest
      else throw (.whole .namedGroup cs)
  | none =>
      let (flags, opens, rest) ← (readFlags cs inner flags true false : Except Fault _)
      if opens then Assembling.openGroup false flags
      else modify fun a => { a with flags := flags }
      return rest

def escapedPlace? (c : Char) : Option Assertion :=
  match c with
  | 'A' => some .textStart
  | 'b' => some .wordBoundary
  | 'B' => some .noWordBoundary
  | 'z' => some .textEnd
  | _ => none

/-- Add a character.  Without regard to case, the first one of its cases stands for
all of them. -/
def pushChar (c : Nat) : Assembling Unit := do
  let flags := (← get).flags
  Assembling.pushNew (.literal flags [(casesOf flags c).foldl min c])

def quotation (cs : List Char) : List Char × List Char :=
  (cutAt '\\' 'E' cs).getD (cs, [])

def readBackslash (cs : List Char) : Assembling (List Char) := do
  let flags := (← get).flags
  match cs with
  | '\\' :: 'Q' :: rest =>
      let (quoted, rest) := quotation rest
      quoted.forM fun c => pushChar c.toNat
      return rest
  | '\\' :: 'C' :: rest => throw (.between .escape cs rest)
  | _ =>
      match (cs[1]?).bind escapedPlace? with
      | some a =>
          Assembling.pushNew (.place a)
          return cs.drop 2
      | none =>
          match ← (readProperty? flags cs : Except Fault _) with
          | some (set, rest) =>
              Assembling.pushNew (.oneOf set)
              return rest
          | none =>
              match readEscapedSet? flags cs with
              | some (set, rest) =>
                  Assembling.pushNew (.oneOf set)
                  return rest
              | none =>
                  let (c, rest) ← (readEscape cs : Except Fault _)
                  pushChar c
                  return rest

/-- Read a repetition in braces, or a brace that stands for itself.  The answer also
says which of both it was. -/
def readBraces (cs : List Char) (last : Option (List Char)) : Assembling (List Char × Bool) := do
  match readCounts? cs with
  | none =>
      pushChar 0x7b
      return (cs.drop 1, false)
  | some (none, rest) => throw (.between .repeatCount cs rest)
  | some (some (least, most), rest) =>
      if maxCount < least ∨ most.any fun m => maxCount < m || m < least then
        throw (.between .repeatCount cs rest)
      return (← readRepeat (fun sparing => .counted sparing least most) cs rest last, true)

/-- Read the part that begins with a character.  `last` is where a repetition right
before this place begins.  The answer also says whether the part is a repetition. -/
def readPart (c : Char) (cs rest : List Char) (last : Option (List Char)) :
    Assembling (List Char × Bool) := do
  let flags := (← get).flags
  if c = '(' then
    if rest.head? = some '?' then return (← readGroupStart cs, false)
    else
      Assembling.openGroup true flags
      return (rest, false)
  else if c = '|' then
    Assembling.branch
    return (rest, false)
  else if c = ')' then
    Assembling.closeGroup
    return (rest, false)
  else if c = '^' then
    Assembling.pushNew (.place (if flags.lines then .lineStart else .textStart))
    return (rest, false)
  else if c = '$' then
    Assembling.pushNew (.place (if flags.lines then .lineEnd else .textEnd))
    return (rest, false)
  else if c = '.' then
    Assembling.pushNew (if flags.dotNewline then .anything else .notNewline)
    return (rest, false)
  else if c = '[' then
    let (set, rest) ← (readSet flags cs : Except Fault _)
    Assembling.pushNew (.oneOf set)
    return (rest, false)
  else if c = '*' then return (← readRepeat (fun _ => .star) cs rest last, true)
  else if c = '+' then return (← readRepeat (fun _ => .plus) cs rest last, true)
  else if c = '?' then return (← readRepeat (fun _ => .optional) cs rest last, true)
  else if c = '\x7b' then readBraces cs last
  else if c = '\\' then return (← readBackslash cs, false)
  else
    pushChar c.toNat
    return (rest, false)

/-- Read the parts of a pattern.  `last` is where a repetition right before this
place begins. -/
def readParts : (fuel : Nat) -> List Char -> (last : Option (List Char)) -> Assembling Unit
  | 0, _, _ => pure ()
  | _, [], _ => pure ()
  | fuel + 1, c :: rest, last => do
      let (after, isRepeat) ← readPart c (c :: rest) rest last
      readParts fuel after (if isRepeat then some (c :: rest) else none)

def read (t : Text) : Except Fault Pattern :=
  if !Text.isUtf8 t then .error ⟨.encoding, t⟩
  else
    let cs := Text.chars t
    let assembling : Assembling Pattern := do
      readParts (cs.length + 1) cs none
      Assembling.finish
    (assembling.run { whole := cs }).map Prod.fst

end Pattern
end TaintTrace
