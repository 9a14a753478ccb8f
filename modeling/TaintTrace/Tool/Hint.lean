import TaintTrace.Numeral.Integer

/-!
# Hints

Some faults have a hint that may help the user.  It is found by the text of the
fault; the first rule that applies decides.
-/

namespace TaintTrace
namespace Hint

def anyEnd (p : Text -> Bool) : Text -> Bool
  | [] => p []
  | b :: rest => p (b :: rest) || anyEnd p rest

def after? (start t : Text) : Option Text :=
  if t.startsWith start then some (t.drop start.length) else none

def isWordByte (b : UInt8) : Bool :=
  Numeral.isDigit b || (0x61 ≤ Numeral.lower b && Numeral.lower b ≤ 0x7a) || b == 0x5f

def beginsFlag (t : Text) : Bool :=
  match after? " -" t with
  | some (b :: _) => isWordByte b
  | _ => false

/-- Whether a text begins with the fault of several trace files, one of which looks
like a flag. -/
def beginsMisplacedFlag (t : Text) : Bool :=
  match after? "expected exactly one trace file, got " t with
  | none => false
  | some rest =>
      (rest.head?.any Numeral.isDigit) &&
        match after? " arguments [" (rest.dropWhile Numeral.isDigit) with
        | none => false
        | some args => anyEnd beginsFlag (args.takeWhile (· ≠ Text.newline))

def beginsInvalidLabel (t : Text) : Bool :=
  match after? "invalid label " t with
  | some (b :: _) => Numeral.isDigit b
  | _ => false

def beginsMalformed (t : Text) : Bool :=
  match after? "malformed " t with
  | none => false
  | some rest =>
      (rest.head?.any isWordByte) && Text.startsWith (rest.dropWhile isWordByte) " section"

def misplacedFlag : Text :=
  "all command line flags should be before the path to the trace file"

def notTrace : Text :=
  "make sure the path leads to a trace file produced by the tracer (usually polytracker.tdag)"

def incomplete : Text :=
  "the trace is incomplete; the traced program may have been killed before the trace was written"

def inconsistent : Text :=
  "the trace is inconsistent; run `polyprocess check` on it to list the problems"

def unreadable : Text :=
  "make sure the trace file exists and is readable"

def find? (message : Text) : Option Text :=
  if anyEnd beginsMisplacedFlag message then some misplacedFlag
  else if message.contains "not a taint trace file"
      || message.contains "unsupported trace version" then
    some notTrace
  else if message.contains "truncated taint trace file" then some incomplete
  else if anyEnd beginsInvalidLabel message || message.contains "unknown input"
      || anyEnd beginsMalformed message then
    some inconsistent
  else if message.contains "could not open trace" then some unreadable
  else none

end Hint
end TaintTrace
