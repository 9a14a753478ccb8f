import TaintTrace.Unicode.Category
import TaintTrace.Unicode.Folding
import TaintTrace.Unicode.Script

/-!
# Sets of code points

A set of code points is a list of ranges in increasing order, of which no two overlap
or touch, so that equal sets have equal ranges.  Sets are joined, inverted and closed
under changes of case.  Some sets have names: the general categories and the scripts
of the Unicode character database.
-/

namespace TaintTrace
namespace Pattern

def lastCodePoint : Nat := 0x10ffff

/-- A set of code points, by the first and the last one of each range. -/
structure CharSet where
  ranges : List (Nat × Nat)
  deriving DecidableEq, Repr

namespace CharSet

def has (s : CharSet) (c : Nat) : Bool :=
  s.ranges.any fun r => r.1 ≤ c && c ≤ r.2

/-!
## Making sets

Ranges are sorted and joined before they become a set; ranges that touch are joined as well.
-/

/-- Join a range and the ranges after it, which begin at or after its beginning. -/
def joinRanges (low high : Nat) : List (Nat × Nat) -> List (Nat × Nat)
  | [] => [(low, high)]
  | (a, b) :: rest =>
      if a ≤ high + 1 then joinRanges low (max high b) rest
      else (low, high) :: joinRanges a b rest

def ofRanges (ranges : List (Nat × Nat)) : CharSet :=
  match ranges.mergeSort fun a b => a.1 ≤ b.1 with
  | [] => ⟨[]⟩
  | (low, high) :: rest => ⟨joinRanges low high rest⟩

def ofList (cs : List Nat) : CharSet :=
  ofRanges (cs.map fun c => (c, c))

def union (s t : CharSet) : CharSet :=
  ofRanges (s.ranges ++ t.ranges)

/-- The ranges between given ones, from a code point on. -/
def gapsFrom (next : Nat) : List (Nat × Nat) -> List (Nat × Nat)
  | [] => if next ≤ lastCodePoint then [(next, lastCodePoint)] else []
  | (a, b) :: rest =>
      if next < a then (next, a - 1) :: gapsFrom (b + 1) rest else gapsFrom (b + 1) rest

def complement (s : CharSet) : CharSet :=
  ⟨gapsFrom 0 s.ranges⟩

/-- A set and the code points that differ from one of its members only in case. -/
def withCases (s : CharSet) : CharSet :=
  ofRanges (s.ranges ++ (Unicode.foldOrbits.filter fun orbit => orbit.any s.has).flatMap fun orbit =>
    orbit.map fun c => (c, c))

def all : CharSet :=
  ⟨[(0, lastCodePoint)]⟩

def ascii : CharSet :=
  ⟨[(0, 0x7f)]⟩

/-!
## Sets with names

In names of sets, case, spaces, hyphens and underscores do not count.
-/

def ofRuns (runs : Array Unicode.Run) (p : String -> Bool) : CharSet :=
  ofRanges (runs.toList.filterMap fun r => if p r.value then some (r.first, r.stop - 1) else none)

/-- The code points of the given categories; a category may be given by its first
letter only. -/
def ofCategories (codes : List String) : CharSet :=
  ofRuns Unicode.categoryTable fun value =>
    codes.any fun code => code.toList.isPrefixOf value.toList

def ofScript (code : String) : CharSet :=
  ofRuns Unicode.scriptTable (· == code)

def categoryNames : List (String × List String) :=
  [("C", ["C"]), ("Other", ["C"]), ("Cc", ["Cc"]), ("Control", ["Cc"]), ("cntrl", ["Cc"]),
    ("Cf", ["Cf"]), ("Format", ["Cf"]), ("Cn", ["Cn"]), ("Unassigned", ["Cn"]), ("Co", ["Co"]),
    ("Private_Use", ["Co"]), ("Cs", ["Cs"]), ("Surrogate", ["Cs"]), ("L", ["L"]),
    ("Letter", ["L"]), ("LC", ["Lu", "Ll", "Lt"]), ("Cased_Letter", ["Lu", "Ll", "Lt"]),
    ("Ll", ["Ll"]), ("Lowercase_Letter", ["Ll"]), ("Lm", ["Lm"]), ("Modifier_Letter", ["Lm"]),
    ("Lo", ["Lo"]), ("Other_Letter", ["Lo"]), ("Lt", ["Lt"]), ("Titlecase_Letter", ["Lt"]),
    ("Lu", ["Lu"]), ("Uppercase_Letter", ["Lu"]), ("M", ["M"]), ("Mark", ["M"]),
    ("Combining_Mark", ["M"]), ("Mc", ["Mc"]), ("Spacing_Mark", ["Mc"]), ("Me", ["Me"]),
    ("Enclosing_Mark", ["Me"]), ("Mn", ["Mn"]), ("Nonspacing_Mark", ["Mn"]), ("N", ["N"]),
    ("Number", ["N"]), ("Nd", ["Nd"]), ("Decimal_Number", ["Nd"]), ("digit", ["Nd"]),
    ("Nl", ["Nl"]), ("Letter_Number", ["Nl"]), ("No", ["No"]), ("Other_Number", ["No"]),
    ("P", ["P"]), ("Punctuation", ["P"]), ("punct", ["P"]), ("Pc", ["Pc"]),
    ("Connector_Punctuation", ["Pc"]), ("Pd", ["Pd"]), ("Dash_Punctuation", ["Pd"]),
    ("Pe", ["Pe"]), ("Close_Punctuation", ["Pe"]), ("Pf", ["Pf"]), ("Final_Punctuation", ["Pf"]),
    ("Pi", ["Pi"]), ("Initial_Punctuation", ["Pi"]), ("Po", ["Po"]), ("Other_Punctuation", ["Po"]),
    ("Ps", ["Ps"]), ("Open_Punctuation", ["Ps"]), ("S", ["S"]), ("Symbol", ["S"]), ("Sc", ["Sc"]),
    ("Currency_Symbol", ["Sc"]), ("Sk", ["Sk"]), ("Modifier_Symbol", ["Sk"]), ("Sm", ["Sm"]),
    ("Math_Symbol", ["Sm"]), ("So", ["So"]), ("Other_Symbol", ["So"]), ("Z", ["Z"]),
    ("Separator", ["Z"]), ("Zl", ["Zl"]), ("Line_Separator", ["Zl"]), ("Zp", ["Zp"]),
    ("Paragraph_Separator", ["Zp"]), ("Zs", ["Zs"]), ("Space_Separator", ["Zs"])]

/-- What counts in a name: letters in any case, and no spaces, hyphens and
underscores. -/
def nameKey (name : List Char) : List Char :=
  (name.filter fun c => c ≠ ' ' ∧ c ≠ '-' ∧ c ≠ '_').map Char.toLower

/-- The set with a name, if asked for with all cases of its members.  A set of several
categories has no more than its members. -/
def named? (anyCase : Bool) (name : List Char) : Option CharSet :=
  let key := nameKey name
  let isNamed (known : String) : Bool := nameKey known.toList == key
  let adapt (s : CharSet) : CharSet := if anyCase then s.withCases else s
  if isNamed "Any" then some all
  else if isNamed "Assigned" then some (ofCategories ["Cn"]).complement
  else if isNamed "ASCII" then some (adapt ascii)
  else
    match categoryNames.find? fun entry => isNamed entry.1 with
    | some (_, [code]) => some (adapt (ofCategories [code]))
    | some (_, codes) => some (ofCategories codes)
    | none =>
        (Unicode.scriptsByName.find? fun entry => isNamed entry.1).map fun entry =>
          adapt (ofScript entry.2)

end CharSet
end Pattern
end TaintTrace
