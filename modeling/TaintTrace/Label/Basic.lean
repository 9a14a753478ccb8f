import TaintTrace.Text.Basic

/-!
# Taint labels

Every tainted value of a traced run has a label.  Label zero means "not tainted",
so it names no node.
-/

namespace TaintTrace

abbrev Label := UInt32

namespace Label

def max : Nat := 0x7fffffff

def total : Nat := 0x100000000

def text (l : Label) : Text :=
  Text.ofNat l.toNat

end Label

/-- A label that a trace has no node for, and the largest label it has one for. -/
structure InvalidLabel where
  label : Label
  max : Label
  deriving DecidableEq, Repr

namespace InvalidLabel

def message (e : InvalidLabel) : Text :=
  "invalid label " ++ e.label.text ++ " (trace labels are 1.." ++ e.max.text ++ ")"

/-- The fault of a label in a trace of a given number of labels, label zero
included: only the labels from one on and below the count are valid. -/
def find? (label : Label) (count : Nat) : Option InvalidLabel :=
  if label = 0 ∨ count ≤ label.toNat then
    some ⟨label, UInt32.ofNat (count - 1)⟩
  else
    none

end InvalidLabel
end TaintTrace
