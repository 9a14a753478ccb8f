import TaintTrace.Text.Utf8

/-!
# Faults in patterns

What can be wrong with the text of a pattern, and which part of it is to blame.
-/

namespace TaintTrace
namespace Pattern

inductive Problem where
  | charRange
  | escape
  | namedGroup
  | groupFlags
  | nestedRepeat
  | repeatCount
  | encoding
  | missingBracket
  | missingParen
  | missingOperand
  | trailingBackslash
  | unexpectedParen
  | depth
  | size
  deriving DecidableEq, Repr

namespace Problem

def message : Problem -> Text
  | charRange => "invalid character class range"
  | escape => "invalid escape sequence"
  | namedGroup => "invalid named capture"
  | groupFlags => "invalid or unsupported Perl syntax"
  | nestedRepeat => "invalid nested repetition operator"
  | repeatCount => "invalid repeat count"
  | encoding => "invalid UTF-8"
  | missingBracket => "missing closing ]"
  | missingParen => "missing closing )"
  | missingOperand => "missing argument to repetition operator"
  | trailingBackslash => "trailing backslash at end of expression"
  | unexpectedParen => "unexpected )"
  | depth => "expression nests too deeply"
  | size => "expression too large"

end Problem

structure Fault where
  problem : Problem
  part : Text

namespace Fault

def message (f : Fault) : Text :=
  "error parsing regexp: " ++ f.problem.message ++ ": `" ++ f.part ++ "`"

def between (problem : Problem) (start stop : List Char) : Fault :=
  ⟨problem, Text.ofChars (start.take (start.length - stop.length))⟩

def whole (problem : Problem) (cs : List Char) : Fault :=
  ⟨problem, Text.ofChars cs⟩

end Fault
end Pattern
end TaintTrace
