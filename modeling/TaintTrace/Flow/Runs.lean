import TaintTrace.Text.Basic

/-!
# Runs of zeros

The maximal runs of zeros of a list of marks, as half-open ranges.  The run that
reaches the end of the list is closed at a given place: the end of the list, or one
mark short of it under the rule of older reports.
-/

namespace TaintTrace

structure OffsetRange where
  first : UInt64
  stop : UInt64
  deriving DecidableEq, Repr

namespace Runs

/-- The runs of the marks from an index on, when a run may have begun before. -/
def runsFrom (trailing : UInt64) : (index : Nat) -> (open? : Option UInt64) ->
    List UInt8 -> List OffsetRange
  | _, none, [] => []
  | _, some first, [] => [⟨first, trailing⟩]
  | index, none, m :: marks =>
      if m = 0 then runsFrom trailing (index + 1) (some (UInt64.ofNat index)) marks
      else runsFrom trailing (index + 1) none marks
  | index, some first, m :: marks =>
      if m = 0 then runsFrom trailing (index + 1) (some first) marks
      else ⟨first, UInt64.ofNat index⟩ :: runsFrom trailing (index + 1) none marks

def zeroRuns (marks : List UInt8) : List OffsetRange :=
  runsFrom (UInt64.ofNat marks.length) 0 none marks

/-- The maximal runs of zeros, a run at the end closed one mark short of it. -/
def legacyZeroRuns (marks : List UInt8) : List OffsetRange :=
  runsFrom (UInt64.ofNat (marks.length - 1)) 0 none marks

end Runs
end TaintTrace
