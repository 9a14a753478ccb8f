import TaintTrace.Label.Basic

/-!
# Label sets

A set of labels is a bitmap of 64-bit words that grows when a label beyond its
last word is added.
-/

namespace TaintTrace

/-- A set of labels, one bit for each. -/
structure LabelSet where
  words : Array UInt64
  deriving Repr

namespace LabelSet

def empty : LabelSet :=
  ⟨#[]⟩

def withRoom (count : Nat) : LabelSet :=
  ⟨Array.replicate ((count + 63) / 64) 0⟩

def withRoom? (count : Int) : Option LabelSet :=
  if (count + 63).tdiv 64 < 0 then none else some (withRoom count.toNat)

def wordIndex (l : Label) : Nat :=
  l.toNat / 64

def mask (l : Label) : UInt64 :=
  1 <<< UInt64.ofNat (l.toNat % 64)

def has (s : LabelSet) (l : Label) : Bool :=
  s.words.getD (wordIndex l) 0 &&& mask l != 0

/-- Zero words at the end, until there are at least `n` words. -/
def grow (words : Array UInt64) (n : Nat) : Array UInt64 :=
  if words.size < n then words ++ Array.replicate (n - words.size) 0 else words

def insert (s : LabelSet) (l : Label) : LabelSet :=
  ⟨(grow s.words (wordIndex l + 1)).modify (wordIndex l) (· ||| mask l)⟩

def popCount (w : UInt64) : Nat :=
  if w = 0 then 0 else (List.range 64).countP (w.toNat.testBit ·)

def size (s : LabelSet) : Nat :=
  s.words.foldl (fun n w => n + popCount w) 0

def ofList (ls : List Label) : LabelSet :=
  ls.foldl insert empty

/-- Add a label, and tell whether it was not a member before. -/
def add (s : LabelSet) (l : Label) : Bool × LabelSet :=
  if s.has l then (false, s) else (true, s.insert l)

/-!
## Operations

A run of operations gives the answer of each, in order.
-/

inductive Operation where
  | add (label : Label)
  | has (label : Label)
  | size
  deriving DecidableEq, Repr

inductive Answer where
  | truth (value : Bool)
  | number (value : Nat)
  deriving DecidableEq, Repr

def perform (s : LabelSet) : Operation -> Answer × LabelSet
  | .add l => (.truth (s.add l).1, (s.add l).2)
  | .has l => (.truth (s.has l), s)
  | .size => (.number s.size, s)

def performAll (s : LabelSet) : List Operation -> List Answer × LabelSet
  | [] => ([], s)
  | op :: ops =>
      let first := s.perform op
      let rest := first.2.performAll ops
      (first.1 :: rest.1, rest.2)

/-!
## Searching

A search keeps the labels still to look at on a stack, and those it has looked at
in a set.
-/

/-- Take labels off a stack until one is not in a set. -/
def nextUnseen (seen : LabelSet) : List Label -> Option (Label × List Label)
  | [] => none
  | l :: stack => if seen.has l then seen.nextUnseen stack else some (l, stack)

def pushAll (ls stack : List Label) : List Label :=
  ls.foldl (fun stack l => l :: stack) stack

end LabelSet
end TaintTrace
