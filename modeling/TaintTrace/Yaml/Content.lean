import TaintTrace.Numeral.Shortest
import TaintTrace.Text.Quoted
import TaintTrace.Yaml.Value

/-!
# Contents

What a document stands for when nothing is known of its types: scalars, sequences, and
mappings from scalars to other contents.  Contents are shown in messages with the
entries of each mapping in the order of their keys.
-/

namespace TaintTrace
namespace Yaml

/-!
## Scalars

Keys of different kinds come one kind after the other.
-/

namespace Value

/-- Keys of different kinds come one kind after the other. -/
def rank : Value -> Nat
  | .null => 0
  | .truth _ => 1
  | .text _ => 2
  | .real _ => 3
  | .integer n => if n < Numeral.half64 then 4 else 5
  | .date _ => 6

def le (v w : Value) : Bool :=
  if v.rank ≠ w.rank then v.rank < w.rank
  else
    match v, w with
    | .truth a, .truth b => !a || b
    | .real r, .real s => r.le s
    | .integer m, .integer n => m ≤ n
    | .text s, .text t => Text.le s t
    | .date d, .date e => d.le e
    | _, _ => true

/-- A scalar as a term.  Numbers beyond the signed words are in hexadecimal digits. -/
def shown : Value -> Text
  | .null => "interface \x7b\x7d(nil)"
  | .truth b => if b then "true" else "false"
  | .real r => r.text
  | .integer n => if n < Numeral.half64 then Text.ofInt n else "0x" ++ Text.hex n.toNat
  | .text t => Text.quoted t
  | .date d => d.shown

end Value

/-!
## Collections

A mapping whose keys are all names is told apart from other mappings.
-/

/-- A content of any type.  A mapping whose keys are all names is told apart. -/
inductive Content where
  | scalar (v : Value)
  | sequence (items : List Content)
  | mapping (named : Bool) (entries : List (Value × Content))

namespace Content

def isSet (k : Value) (entries : List (Value × Content)) : Bool :=
  entries.any fun e => e.1.isSameKey k

/-- Set a key in place of any entry with the same key. -/
def put (k : Value) (c : Content) (entries : List (Value × Content)) : List (Value × Content) :=
  (k, c) :: entries.filter fun e => !e.1.isSameKey k

def braced (parts : List Text) : Text :=
  "\x7b" ++ Text.join ", " parts ++ "\x7d"

def shown : Content -> Text
  | .scalar v => v.shown
  | .sequence items => "[]interface \x7b\x7d" ++ braced (items.map fun c => c.shown)
  | .mapping named entries =>
      let keys : Text := if named then "string" else "interface \x7b\x7d"
      let parts : List (Value × Text) :=
        entries.map fun e => (e.1, Value.shown e.1 ++ Text.byte ':' :: shown e.2)
      "map[" ++ keys ++ "]interface \x7b\x7d"
        ++ braced ((parts.mergeSort fun a b => a.1.le b.1).map (·.2))
decreasing_by
  · have h := List.sizeOf_lt_of_mem ‹c ∈ items›
    simp only [sequence.sizeOf_spec]
    omega
  · have h := List.sizeOf_lt_of_mem ‹e ∈ entries›
    have h' : sizeOf e = 1 + sizeOf e.1 + sizeOf e.2 := rfl
    simp only [mapping.sizeOf_spec]
    omega

end Content
end Yaml
end TaintTrace
