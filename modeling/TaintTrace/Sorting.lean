/-!
# Sorting and counting

Reports list things in order and each of them once, or how often they occur.
-/

namespace TaintTrace
namespace Sorting

variable {α : Type} [DecidableEq α]

/-- Put an element in front of a list, unless the list begins with it. -/
def consNew (a : α) (xs : List α) : List α :=
  if xs.head? = some a then xs else a :: xs

def dropRepeats (xs : List α) : List α :=
  xs.foldr consNew []

def distinct (le : α -> α -> Bool) (xs : List α) : List α :=
  dropRepeats (xs.mergeSort le)

/-- How often each element of a list occurs in it, by first occurrence. -/
def tally (xs : List α) : List (α × Nat) :=
  xs.eraseDups.map fun x => (x, xs.count x)

end Sorting
end TaintTrace
