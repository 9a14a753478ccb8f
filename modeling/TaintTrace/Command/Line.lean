import TaintTrace.Command.Words
import TaintTrace.Label.Basic
import TaintTrace.Numeral.Integer
import TaintTrace.Text.Quoted

/-!
# Command lines

A command line has a name, arguments by position, named arguments and flags.  In
`tree 12 --depth 4 -x`, the name is `tree`, `12` an argument, `depth` a named argument
with the value `4` and `x` a flag.
-/

namespace TaintTrace

/-- A command line, cut into its parts.  Of two values with one name the later one
counts. -/
structure Command where
  name : Text := []
  args : List Text := []
  named : List (Text × Text) := []
  flags : List Text := []
  deriving DecidableEq, Repr

namespace Command

def dash : UInt8 := 0x2d

/-- Add words to a command.  `pending` is a name that waits for its value; the value
may be any word. -/
def addWords : (pending : Option Text) -> List Text -> Command -> Command
  | _, [], c => c
  | some name, w :: ws, c => addWords none ws { c with named := c.named ++ [(name, w)] }
  | none, w :: ws, c =>
      if w.startsWith [dash, dash] ∧ 2 < w.length then addWords (some (w.drop 2)) ws c
      else if w.startsWith [dash] ∧ 1 < w.length then
        addWords none ws { c with flags := c.flags ++ [w.drop 1] }
      else addWords none ws { c with args := c.args ++ [w] }

/-- The command of some words; without words it has no name. -/
def ofWords (words : List Text) : Command :=
  match words with
  | [] => {}
  | name :: rest => addWords none rest { name := name }

/-- The command of a line.  A line that cannot be cut into words has no name. -/
def ofLine (line : Text) : Command :=
  ofWords ((Words.split line).getD [])

def value? (c : Command) (name : Text) : Option Text :=
  c.named.reverse.lookup name

def hasFlag (c : Command) (name : Text) : Bool :=
  c.flags.contains name

/-- The names with values, each once and in order, with the values that count. -/
def namedValues (c : Command) : List (Text × Text) :=
  (Text.sort (c.named.map Prod.fst).eraseDups).filterMap fun n => (c.value? n).map fun v => (n, v)

def flagNames (c : Command) : List Text :=
  Text.sort c.flags.eraseDups

/-!
## Arguments of a kind

Commands ask for labels and for counts.  Label zero is no argument, and a named argument
that is not given has no value.
-/

inductive ArgumentFault where
  | labelExpected (command : Text)
  | invalidLabel (word : Text)
  | invalidCount (name word : Text)
  deriving DecidableEq, Repr

namespace ArgumentFault

def message : ArgumentFault -> Text
  | labelExpected command => command ++ " expects a label"
  | invalidLabel word => "invalid label " ++ Text.quoted word
  | invalidCount name word => name ++ " should be a positive integer, got " ++ Text.quoted word

end ArgumentFault

def readLabel (word : Text) : Except ArgumentFault Label :=
  match Numeral.natural none (Label.total - 1) word with
  | .ok n => if n = 0 then .error (.invalidLabel word) else .ok (UInt32.ofNat n)
  | .error _ => .error (.invalidLabel word)

def label (c : Command) (position : Nat) : Except ArgumentFault Label :=
  match c.args[position]? with
  | none => .error (.labelExpected c.name)
  | some word => readLabel word

def count (c : Command) (name : Text) : Except ArgumentFault (Option Nat) :=
  match c.value? name with
  | none => .ok none
  | some word =>
      match Numeral.decimal? word with
      | some (.ofNat n) => .ok (some n)
      | _ => .error (.invalidCount name word)

end Command
end TaintTrace
