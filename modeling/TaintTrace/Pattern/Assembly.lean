import TaintTrace.Pattern.Basic
import TaintTrace.Pattern.Fault

/-!
# Putting patterns together

The parts of a pattern come one by one and are joined when a branch or a group ends.
Literals that follow each other become one, a sequence never holds a sequence and a
choice never holds a choice.  Branches that begin alike share their beginning, and
branches for one character become one set.

While parts are joined, the depth and the size of the pattern are checked.  The size is
looked at only when it may be too large, which is told from the number of nodes that
were needed so far and the counts of the repetitions.  Nodes that are given up are used
again before new ones are made.
-/

namespace TaintTrace
namespace Pattern

/-- A group that is being read: the flags around it, its finished branches and the
parts of its last branch.  Branches, parts and the characters of literals among the
parts come last one first. -/
structure Group where
  captures : Bool := false
  outside : Flags := {}
  branches : List Pattern := []
  parts : List Pattern := []

/-- A pattern that is being read: its text, the groups that are open, the innermost
first and apart, and what is known about its size. -/
structure Assembly where
  whole : List Char
  flags : Flags := {}
  group : Group := {}
  outer : List Group := []
  /-- The number of nodes that were made. -/
  made : Nat := 0
  /-- The number of nodes that were given up and not used again. -/
  spare : Nat := 0
  /-- The product of the counts of the repetitions. -/
  repeats : Nat := 1
  /-- Whether sizes are looked at. -/
  sized : Bool := false

abbrev Assembling (α : Type) : Type :=
  StateT Assembly (Except Fault) α

namespace Assembling

def fail {α : Type} (problem : Problem) : Assembling α := do
  throw (.whole problem (← get).whole)

/-!
## Nodes and limits

Nodes are counted as they are taken into use and given up, and each pattern that is put
together is checked against the limits.
-/

def maxHeight : Nat := 1000

def maxSize : Nat := 3355443

def useNode : Assembling Unit :=
  modify fun a => if a.spare = 0 then { a with made := a.made + 1 } else { a with spare := a.spare - 1 }

def giveUp : Assembling Unit :=
  modify fun a => { a with spare := a.spare + 1 }

def pending (a : Assembly) : List Pattern :=
  (a.group :: a.outer).flatMap fun g => g.branches ++ g.parts

def countRepeats (repeats : Nat) : Pattern -> Nat
  | .counted _ least most _ =>
      let n := max 1 (most.getD least)
      if maxSize / repeats < n then maxSize else repeats * n
  | _ => repeats

def checkSize (p : Pattern) : Assembling Unit := do
  let a ← get
  if !a.sized then
    let repeats := countRepeats a.repeats p
    if a.made < maxSize / repeats then
      set { a with repeats := repeats }
    else
      set { a with repeats := repeats, sized := true }
      if (pending a).any fun q => maxSize < q.size then fail .size
      if maxSize < p.size then fail .size
  else if maxSize < p.size then fail .size

def check (p : Pattern) : Assembling Unit := do
  checkSize p
  if maxHeight ≤ (← get).made && maxHeight < p.height then fail .depth

/-!
## Branches that begin alike

Runs of branches are formed three times: those that begin with the same characters, those
that begin with the same part, and those for one character each.  The lists of runs come
last one first.
-/

def rank : Pattern -> Nat
  | .oneOf _ => 1
  | .notNewline => 2
  | .anything => 3
  | _ => 0

/-- Join two patterns for one character, the first of which is not less complex. -/
def mergeSingle (p q : Pattern) : Pattern :=
  match p with
  | .anything => .anything
  | .notNewline => if q.charSet.has 10 then .anything else .notNewline
  | _ => if rank p = 0 && sameLiteral p q then p else .oneOf (p.charSet.union q.charSet)
where
  sameLiteral : Pattern -> Pattern -> Bool
    | .literal f cs, .literal g ds => f == g && cs == ds
    | _, _ => false

/-- Recognize the sets that have a form of their own. -/
def tidy : Pattern -> Pattern
  | .oneOf s => ofCharSet s
  | p => p

/-- The characters that a pattern begins with, and whether their case counts. -/
def leadingChars : Pattern -> List Nat × Bool
  | .literal f cs => (cs, f.fold)
  | .seq (.literal f cs :: _) => (cs, f.fold)
  | _ => ([], false)

def dropChars (n : Nat) : Pattern -> Assembling Pattern
  | .literal f cs => return shortened f cs
  | .seq (.literal f cs :: rest) => do
      match shortened f cs with
      | .empty =>
          giveUp
          match rest with
          | [p] =>
              giveUp
              return p
          | _ => return .seq rest
      | p => return .seq (p :: rest)
  | p => return p
where
  shortened (f : Flags) (cs : List Nat) : Pattern :=
    if (cs.drop n).isEmpty then .empty else .literal f (cs.drop n)

def leadingPart? : Pattern -> Option Pattern
  | .empty => none
  | .seq (.empty :: _) => none
  | .seq (p :: _) => some p
  | p => some p

def dropPart (gone : Bool) : Pattern -> Assembling Pattern
  | .seq (_ :: rest) => do
      if gone then giveUp
      match rest with
      | [] => return .empty
      | [p] =>
          giveUp
          return p
      | _ => return .seq rest
  | _ => do
      if gone then giveUp
      useNode
      return .empty

/-- Whether a pattern stands for a fixed number of characters of one kind. -/
def isFixed : Pattern -> Bool
  | .counted _ least most p => most == some least && p.isSingle
  | p => p.isSingle

def alike : Pattern -> Pattern -> Bool
  | .literal _ cs, .literal _ ds => cs == ds
  | .oneOf s, .oneOf t => s == t
  | .notNewline, .notNewline => true
  | .anything, .anything => true
  | .counted f least most p, .counted g least' most' q =>
      f == g && least == least' && most == most' && alike p q
  | _, _ => false

def commonLength : List Nat -> List Nat -> Nat
  | a :: as, b :: bs => if a = b then commonLength as bs + 1 else 0
  | _, _ => 0

/-- Branches that begin with the same characters, last one first. -/
structure CharRun where
  chars : List Nat
  fold : Bool
  members : List Pattern

/-- Cut branches into runs that begin with the same characters, last one first. -/
def charRuns (branches : List Pattern) : List CharRun :=
  branches.foldl
    (fun runs p =>
      let (cs, fold) := leadingChars p
      match runs with
      | run :: rest =>
          let n := if fold = run.fold then commonLength run.chars cs else 0
          if 0 < n then ⟨run.chars.take n, fold, p :: run.members⟩ :: rest
          else ⟨cs, fold, [p]⟩ :: runs
      | [] => [⟨cs, fold, [p]⟩])
    []

/-- Cut branches into runs that begin with the same part, last one first. -/
def partRuns (branches : List Pattern) : List (Option Pattern × List Pattern) :=
  branches.foldl
    (fun runs p =>
      let first := leadingPart? p
      match runs with
      | (some part, members) :: rest =>
          if isFixed part && first.any (alike part) then (some part, p :: members) :: rest
          else (first, [p]) :: runs
      | _ => (first, [p]) :: runs)
    []

/-- Cut branches into runs of patterns for one character and single other patterns,
last one first. -/
def singleRuns (branches : List Pattern) : List (List Pattern) :=
  branches.foldl
    (fun runs p =>
      match runs with
      | (q :: run) :: rest =>
          if p.isSingle && q.isSingle then (p :: q :: run) :: rest else [p] :: runs
      | _ => [p] :: runs)
    []

def mergeSingles (run : List Pattern) : Assembling Pattern := do
  match run with
  | [] => return .empty
  | [p] => return p
  | p :: rest =>
      let most := rest.foldl (fun m q => if rank m < rank q then q else m) p
      let others := run.eraseIdx ((run.findIdx? fun q => rank q == rank most).getD 0)
      others.forM fun _ => giveUp
      return tidy (others.foldl mergeSingle most)

def dropEmpty : List Pattern -> List Pattern
  | [] => []
  | p :: rest =>
      match p, rest with
      | .empty, .empty :: _ => dropEmpty rest
      | _, _ => p :: dropEmpty rest

def flattenChoices : List Pattern -> Assembling (List Pattern)
  | [] => return []
  | .either inner :: rest => do
      giveUp
      return inner ++ (← flattenChoices rest)
  | p :: rest => return p :: (← flattenChoices rest)

def flattenSequences : List Pattern -> Assembling (List Pattern)
  | [] => return []
  | .seq inner :: rest => do
      giveUp
      return inner ++ (← flattenSequences rest)
  | p :: rest => return p :: (← flattenSequences rest)

/-- Join branches into a choice.  Branches that begin alike share their beginning.
The fuel bounds how often their ends begin alike again. -/
def choice : (fuel : Nat) -> List Pattern -> Assembling Pattern
  | _, [p] => return p
  | 0, branches => return .either branches
  | fuel + 1, branches => do
      useNode
      let branches ← flattenChoices branches
      let branches ← (charRuns branches).reverse.mapM fun run => do
        match run.members with
        | [p] => return p
        | members =>
            useNode
            let rests ← members.reverse.mapM fun p => do
              let p ← dropChars run.chars.length p
              check p
              return p
            let rest ← choice fuel rests
            useNode
            return .seq [.literal { fold := run.fold } run.chars, rest]
      let branches ← (partRuns branches).reverse.mapM fun (first, members) => do
        match first, members with
        | some part, _ :: _ :: _ =>
            let rests ← members.reverse.zipIdx.mapM fun (p, i) => do
              let p ← dropPart (0 < i) p
              check p
              return p
            let rest ← choice fuel rests
            useNode
            return .seq [part, rest]
        | _, p :: _ => return p
        | _, [] => return .empty
      let branches ← (singleRuns branches).reverse.mapM fun run => mergeSingles run.reverse
      match dropEmpty branches with
      | [p] =>
          giveUp
          return p
      | branches => return .either branches

def sequence (parts : List Pattern) : Assembling Pattern := do
  match parts with
  | [p] => return p
  | _ =>
      useNode
      return .seq (← flattenSequences parts)

/-!
## Parts and groups

The parts of the open branch and the branches of the open groups are kept last one first.
-/

def turned : Pattern -> Pattern
  | .literal f cs => .literal f cs.reverse
  | p => p

def setParts (parts : List Pattern) : Assembling Unit :=
  modify fun a => { a with group := { a.group with parts := parts } }

def joinLiterals? : List Pattern -> Option (List Pattern)
  | .literal f cs :: .literal g ds :: rest =>
      if f.fold = g.fold then some (.literal g (cs ++ ds) :: rest) else none
  | _ => none

def joinLiterals : Assembling Unit := do
  match joinLiterals? (← get).group.parts with
  | some parts =>
      giveUp
      setParts parts
  | none => pure ()

/-- Add a part to the branch.  A set of one character is a literal; it takes the place
of a literal that was joined with the one before. -/
def push (p : Pattern) : Assembling Unit := do
  let a ← get
  let isSet := rank p == 1
  let p := simplified a.flags p
  match (if isSet && rank p == 0 then joinLiterals? a.group.parts else none) with
  | some parts => setParts (p :: parts)
  | none =>
      joinLiterals
      setParts (turned p :: (← get).group.parts)
      check p

def pushNew (p : Pattern) : Assembling Unit := do
  useNode
  push p

/-- Write a set of one character as a literal, and check a pattern. -/
def settle (p : Pattern) : Assembling Pattern := do
  let p := simplified (← get).flags p
  check p
  return p

def endParts : Assembling Pattern := do
  joinLiterals
  let parts := (← get).group.parts.reverse.map turned
  setParts []
  if parts.isEmpty then
    useNode
    settle .empty
  else settle (← sequence parts)

/-- The branches of a group with one more, last one first.  Two patterns for one
character become one. -/
def addBranch (branches : List Pattern) (p : Pattern) : Assembling (List Pattern) := do
  match branches with
  | q :: rest =>
      if p.isSingle && q.isSingle then
        giveUp
        return (if rank q < rank p then mergeSingle p q else mergeSingle q p) :: rest
      else return p :: tidy q :: rest
  | [] => return [p]

def branch : Assembling Unit := do
  let p ← endParts
  let branches := (← get).group.branches
  let more ← addBranch branches p
  modify fun a => { a with group := { a.group with branches := more } }
  if branches.isEmpty then
    useNode
    check .empty

def endBranches : Assembling Pattern := do
  let p ← endParts
  let branches ← addBranch (← get).group.branches p
  modify fun a => { a with group := { a.group with branches := [] } }
  let branches :=
    match branches with
    | last :: rest => (tidy last :: rest).reverse
    | [] => []
  settle (← choice (← get).whole.length branches)

def openGroup (captures : Bool) (flags : Flags) : Assembling Unit := do
  useNode
  joinLiterals
  modify fun a =>
    { a with
      flags := flags
      group := { captures := captures, outside := a.flags }
      outer := a.group :: a.outer }
  check .empty

def closeGroup : Assembling Unit := do
  let inner ← endBranches
  let a ← get
  match a.outer with
  | [] => fail .unexpectedParen
  | g :: outer =>
      set { a with flags := a.group.outside, group := g, outer := outer }
      push (if a.group.captures then .group inner else inner)

def wrapLast (wrap : Pattern -> Pattern) (missing : Fault) : Assembling Pattern := do
  match (← get).group.parts with
  | [] => throw missing
  | p :: rest =>
      useNode
      let q := wrap (turned p)
      setParts (q :: rest)
      check q
      return q

def finish : Assembling Pattern := do
  let p ← endBranches
  if (← get).outer.isEmpty then return p else fail .missingParen

end Assembling
end Pattern
end TaintTrace
