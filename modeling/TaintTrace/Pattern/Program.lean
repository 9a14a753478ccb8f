import TaintTrace.Pattern.Basic
import TaintTrace.Text.Utf8

/-!
# Matching

A pattern is turned into a program whose steps read a character, ask for a condition
or choose how to go on.  The program walks over a text once and is at several steps at
the same time, so the length of the text and the number of steps bound the work.  A
pattern matches a text if some part of the text, maybe an empty one, has the form that
it describes.
-/

namespace TaintTrace
namespace Pattern

/-- The steps of a program.  A step that reads a character or asks for a condition is
followed by the next one; a fork is followed by two given ones. -/
inductive Step where
  | read (s : CharSet)
  | require (a : Assertion)
  | fork (first second : Nat)
  | accept
  deriving DecidableEq, Repr

end Pattern

structure PatternProgram where
  steps : Array Pattern.Step := #[]
  deriving DecidableEq, Repr

namespace PatternProgram

open Pattern

/-!
## Writing programs

Steps are written at the end of a program.  A fork is written before it is known where it
leads, and its exit is set later.
-/

def push (g : PatternProgram) (s : Step) : PatternProgram :=
  ⟨g.steps.push s⟩

def set (g : PatternProgram) (n : Nat) (s : Step) : PatternProgram :=
  ⟨g.steps.setIfInBounds n s⟩

def next (g : PatternProgram) : Nat :=
  g.steps.size

def times (f : PatternProgram -> PatternProgram) : Nat -> PatternProgram -> PatternProgram
  | 0, g => g
  | n + 1, g => times f n (f g)

def optionally (f : PatternProgram -> PatternProgram) (g : PatternProgram) : PatternProgram :=
  let start := g.next
  let g := f (g.push .accept)
  g.set start (.fork (start + 1) g.next)

def repeatedly (f : PatternProgram -> PatternProgram) (g : PatternProgram) : PatternProgram :=
  let start := g.next
  let g := f (g.push .accept)
  let g := g.push (.fork start start)
  g.set start (.fork (start + 1) g.next)

/-- Write steps that may be left after each of up to `n` rounds.  `exits` are the
forks that lead out. -/
def upTo (f : PatternProgram -> PatternProgram) : (n : Nat) -> (exits : List Nat) ->
    PatternProgram -> PatternProgram
  | 0, exits, g => exits.foldl (fun g e => g.set e (.fork (e + 1) g.next)) g
  | n + 1, exits, g => upTo f n (g.next :: exits) (f (g.push .accept))

mutual

def add : Pattern -> PatternProgram -> PatternProgram
  | .empty, g => g
  | .literal flags cs, g =>
      cs.foldl (fun g c => g.push (.read (.ofList (casesOf flags c)))) g
  | .oneOf s, g => g.push (.read s)
  | .notNewline, g => g.push (.read (charSet .notNewline))
  | .anything, g => g.push (.read .all)
  | .place a, g => g.push (.require a)
  | .group p, g => add p g
  | .star p, g => repeatedly (add p) g
  | .plus p, g => repeatedly (add p) (add p g)
  | .optional p, g => optionally (add p) g
  | .counted _ least most p, g =>
      let g := times (add p) least g
      match most with
      | none => repeatedly (add p) g
      | some most => upTo (add p) (most - least) [] g
  | .seq parts, g => addAll parts g
  | .either branches, g => addBranches branches [] g

def addAll : List Pattern -> PatternProgram -> PatternProgram
  | [], g => g
  | p :: rest, g => addAll rest (add p g)

/-- Write the steps of the branches of a choice.  `exits` are the steps at the ends of
the branches before. -/
def addBranches : List Pattern -> (exits : List Nat) -> PatternProgram -> PatternProgram
  | [], exits, g => exits.foldl (fun g e => g.set e (.fork g.next g.next)) g
  | p :: rest, exits, g =>
      let start := g.next
      let g := add p (g.push .accept)
      let exit := g.next
      let g := g.push .accept
      let g := g.set start (if rest.isEmpty then .fork (start + 1) (start + 1)
        else .fork (start + 1) g.next)
      addBranches rest (exit :: exits) g

end

def ofPattern (p : Pattern) : PatternProgram :=
  (add p {}).push .accept

/-!
## Running programs

From one character to the next a program is at the steps that wait for a character; it
spreads from there over all steps that need none.
-/

def isWord (c : Nat) : Bool :=
  (48 ≤ c && c ≤ 57) || (65 ≤ c && c ≤ 90) || c == 95 || (97 ≤ c && c ≤ 122)

def holds (before after : Option Nat) : Assertion -> Bool
  | .textStart => before.isNone
  | .textEnd => after.isNone
  | .lineStart => before.isNone || before == some 10
  | .lineEnd => after.isNone || after == some 10
  | .wordBoundary => before.any isWord != after.any isWord
  | .noWordBoundary => before.any isWord == after.any isWord

/-- The steps that a program is at: those that wait for a character, whether one
accepts, and for each step the last round in which it was reached. -/
structure Front where
  waiting : List Nat
  accepted : Bool
  reached : Array Nat

/-- Move on from some steps as far as no character is needed.  Rounds count from one.
The fuel bounds the number of steps. -/
def spread (g : PatternProgram) (round : Nat) (before after : Option Nat) :
    (fuel : Nat) -> (todo : List Nat) -> Front -> Front
  | 0, _, front => front
  | _, [], front => front
  | fuel + 1, n :: todo, front =>
      if front.reached.getD n round = round then spread g round before after fuel todo front
      else
        let front := { front with reached := front.reached.setIfInBounds n round }
        match g.steps[n]? with
        | none => spread g round before after fuel todo front
        | some (.read _) =>
            spread g round before after fuel todo { front with waiting := n :: front.waiting }
        | some (.require a) =>
            spread g round before after fuel (if holds before after a then (n + 1) :: todo else todo)
              front
        | some (.fork i j) => spread g round before after fuel (i :: j :: todo) front
        | some .accept => { front with accepted := true }

def advance (g : PatternProgram) (c : Nat) (waiting : List Nat) : List Nat :=
  waiting.filterMap fun n =>
    match (g.steps[n]? : Option Step) with
    | some (.read s) => if s.has c then some (n + 1) else none
    | _ => none

/-- Whether a program accepts somewhere in the rest of a text, where it may begin at
any place. -/
def acceptsFrom (g : PatternProgram) : (round : Nat) -> (before : Option Nat) -> List Nat ->
    (todo : List Nat) -> (reached : Array Nat) -> Bool
  | round, before, cs, todo, reached =>
      let front :=
        spread g round before cs.head? (2 * g.steps.size + todo.length + 2) (0 :: todo) ⟨[], false, reached⟩
      if front.accepted then true
      else
        match cs with
        | [] => false
        | c :: rest => acceptsFrom g (round + 1) (some c) rest (g.advance c front.waiting) front.reached

/-- The code points of a text; a byte that belongs to no character reads as the
replacement character. -/
def codePoints (t : Text) : List Nat :=
  (Text.chars t).map Char.toNat

def matchesText (g : PatternProgram) (t : Text) : Bool :=
  g.acceptsFrom 1 none (codePoints t) [] (Array.replicate g.steps.size 0)

end PatternProgram
end TaintTrace
