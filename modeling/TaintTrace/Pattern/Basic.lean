import TaintTrace.Pattern.CharSet

/-!
# Patterns

A pattern is a regular expression over code points.  Parts that follow each other and
branches of a choice are kept as lists.  How deep and how large a pattern may be is
measured on this form.
-/

namespace TaintTrace
namespace Pattern

/-- How the text of a pattern is read: without regard to case, line by line, with dots
that stand for newlines too, with repetitions that take as little as they can. -/
structure Flags where
  fold : Bool := false
  lines : Bool := false
  dotNewline : Bool := false
  sparing : Bool := false
  deriving DecidableEq, Repr

inductive Assertion where
  | textStart
  | textEnd
  | lineStart
  | lineEnd
  | wordBoundary
  | noWordBoundary
  deriving DecidableEq, Repr

end Pattern

/-- A regular expression.  The characters of a literal follow each other. -/
inductive Pattern where
  | empty
  | literal (flags : Pattern.Flags) (chars : List Nat)
  | oneOf (s : Pattern.CharSet)
  | notNewline
  | anything
  | place (a : Pattern.Assertion)
  | group (p : Pattern)
  | star (p : Pattern)
  | plus (p : Pattern)
  | optional (p : Pattern)
  | counted (sparing : Bool) (least : Nat) (most : Option Nat) (p : Pattern)
  | seq (parts : List Pattern)
  | either (branches : List Pattern)
  deriving Repr

namespace Pattern

/-!
## Single characters

Some patterns stand for one character, and can be written as the set of characters they
stand for.
-/

def isSingle : Pattern -> Bool
  | .literal _ [_] => true
  | .oneOf _ => true
  | .notNewline => true
  | .anything => true
  | _ => false

/-- All code points that differ from a given one only in case. -/
def casesOf (flags : Flags) (c : Nat) : List Nat :=
  if flags.fold then c :: Unicode.foldOrbit c else [c]

def charSet : Pattern -> CharSet
  | .literal flags cs => .ofList (cs.flatMap (casesOf flags))
  | .oneOf s => s
  | .notNewline => (CharSet.ofList [10]).complement
  | .anything => .all
  | _ => ⟨[]⟩

def ofCharSet (s : CharSet) : Pattern :=
  if s = .all then .anything
  else if s = (CharSet.ofList [10]).complement then .notNewline
  else .oneOf s

/-- Write a set of one character as a literal, also if the character is given in two
cases. -/
def simplified (flags : Flags) (p : Pattern) : Pattern :=
  match p with
  | .oneOf ⟨[(a, b)]⟩ =>
      if a = b then .literal { flags with fold := false } [a]
      else if b = a + 1 ∧ isPair a b then .literal { flags with fold := true } [a]
      else p
  | .oneOf ⟨[(a, b), (c, d)]⟩ =>
      if a = b ∧ c = d ∧ isPair a c then .literal { flags with fold := true } [a] else p
  | _ => p
where
  /-- Whether two code points differ in case from each other and from no others. -/
  isPair (a b : Nat) : Bool :=
    (CharSet.ofList (casesOf { fold := true } a)) == CharSet.ofList [a, b]

/-!
## Measures

Repetitions inside of each other multiply, so their counts are bounded as a product.
-/

mutual

def height : Pattern -> Nat
  | .group p => height p + 1
  | .star p => height p + 1
  | .plus p => height p + 1
  | .optional p => height p + 1
  | .counted _ _ _ p => height p + 1
  | .seq parts => greatestHeight parts + 1
  | .either branches => greatestHeight branches + 1
  | _ => 1

def greatestHeight : List Pattern -> Nat
  | [] => 0
  | p :: rest => max (height p) (greatestHeight rest)

end

mutual

/-- How many steps a pattern takes when its repetitions are written out. -/
def size : Pattern -> Nat
  | .literal _ cs => max 1 cs.length
  | .group p => size p + 2
  | .star p => size p + 2
  | .plus p => size p + 1
  | .optional p => size p + 1
  | .counted _ least none p => if least = 0 then size p + 2 else least * size p + 1
  | .counted _ least (some most) p => max 1 (most * size p + (most - least))
  | .seq parts => max 1 (totalSize parts)
  | .either branches => max 1 (totalSize branches + (branches.length - 1))
  | _ => 1

def totalSize : List Pattern -> Nat
  | [] => 0
  | p :: rest => size p + totalSize rest

end

mutual

/-- Whether the counts of repetitions inside of each other have a product up to a
greatest one. -/
def countsFit (budget : Nat) : Pattern -> Bool
  | .counted _ least most p =>
      let m := most.getD least
      if most = some 0 then true
      else if budget < m then false
      else countsFit (if 0 < m then budget / m else budget) p
  | .group p => countsFit budget p
  | .star p => countsFit budget p
  | .plus p => countsFit budget p
  | .optional p => countsFit budget p
  | .seq parts => allCountsFit budget parts
  | .either branches => allCountsFit budget branches
  | _ => true

def allCountsFit (budget : Nat) : List Pattern -> Bool
  | [] => true
  | p :: rest => countsFit budget p && allCountsFit budget rest

end

end Pattern
end TaintTrace
