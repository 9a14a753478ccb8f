/-!
# Runs of code points

A property of code points is written as the lengths of the runs of code points
that have one value, each length followed by the value.
-/

namespace TaintTrace
namespace Unicode

/-- Code points from a first one on and below a last one, with a value. -/
structure Run where
  first : Nat
  stop : Nat
  value : String

def hexValue? (c : Char) : Option Nat :=
  if '0' ≤ c ∧ c ≤ '9' then some (c.toNat - 48)
  else if 'a' ≤ c ∧ c ≤ 'f' then some (c.toNat - 87)
  else none

/-- The number of the hexadecimal digits at the start of a text, after a number. -/
def hexNumber : List Char -> Nat -> Nat
  | [], n => n
  | c :: cs, n =>
      match hexValue? c with
      | some d => hexNumber cs (n * 16 + d)
      | none => n

/-- Read runs from a code point on, whose values have `size` letters. -/
def readRunsFrom (size : Nat) : (fuel : Nat) -> (first : Nat) -> List Char -> List Run
  | 0, _, _ => []
  | _, _, [] => []
  | fuel + 1, first, cs =>
      let digits := cs.takeWhile fun c => (hexValue? c).isSome
      let rest := cs.drop digits.length
      let stop := first + hexNumber digits 0
      ⟨first, stop, String.ofList (rest.take size)⟩ :: readRunsFrom size fuel stop (rest.drop size)

/-- Read runs from zero on, whose values have `size` letters and start with an
upper-case one. -/
def readRuns (size : Nat) (lines : List String) : List Run :=
  let cs := lines.flatMap String.toList
  readRunsFrom size cs.length 0 cs

/-- The value of the run that holds a code point, among the runs from `low` on and
below `high`.  The fuel bounds the number of halvings. -/
def findRunIn? (runs : Array Run) (c : Nat) : (fuel low high : Nat) -> Option String
  | 0, _, _ => none
  | fuel + 1, low, high =>
      if low < high then
        let middle := (low + high) / 2
        match runs[middle]? with
        | none => none
        | some r =>
            if c < r.first then findRunIn? runs c fuel low middle
            else if r.stop ≤ c then findRunIn? runs c fuel (middle + 1) high
            else some r.value
      else none

/-- The value of the run that holds a code point; the runs are in increasing order. -/
def findRun? (runs : Array Run) (c : Nat) : Option String :=
  findRunIn? runs c (runs.size + 1) 0 runs.size

end Unicode
end TaintTrace
