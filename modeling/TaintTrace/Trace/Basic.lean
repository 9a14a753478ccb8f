import TaintTrace.Node.Basic

/-!
# Traces

A trace is what a traced run leaves behind: the files it opened, a node for each
label, the tainted bytes it wrote (sinks), and for each byte of an output the
label it carries (output taints).
-/

namespace TaintTrace

/-- A file opened by the traced program.  The labels from `labelBegin` on and
below `labelEnd` were set aside for its bytes, in order. -/
structure Header where
  name : Text
  fd : Int32
  labelBegin : Label
  labelEnd : Label
  deriving DecidableEq, Repr

namespace Header

/-- The number of labels set aside for the file. -/
def length (h : Header) : Nat :=
  h.labelEnd.toNat - h.labelBegin.toNat

def contains (h : Header) (l : Label) : Bool :=
  h.labelBegin ≤ l && l < h.labelEnd

def text (h : Header) : Text :=
  h.name ++ " (fd " ++ Text.ofInt h.fd.toInt ++ ", labels [" ++ h.labelBegin.text ++ ", "
    ++ h.labelEnd.text ++ "))"

end Header

/-- An input or output file of a trace; its identifier is the index of its header. -/
structure Input where
  id : Int
  path : Text
  deriving DecidableEq, Repr

/-- A tainted byte written to the output with the given header index. -/
structure Sink where
  label : Label
  offset : UInt64
  output : UInt8
  deriving DecidableEq, Repr

structure OutputTaint where
  output : Int
  offset : UInt64
  label : Label
  deriving DecidableEq, Repr

/-- A trace: its tables, and the node of each label that has one. -/
structure Trace where
  headers : List Header
  labelCount : Nat
  sinks : List Sink
  taints : List OutputTaint
  decode : Label -> Except InvalidLabel Node

namespace Trace

def labels (t : Trace) : List Label :=
  (List.range' 1 (t.labelCount - 1)).map UInt32.ofNat

def inputs (t : Trace) : List Input :=
  t.headers.mapIdx fun i h => ⟨i, h.name⟩

def input? (t : Trace) (id : Int) : Option Input :=
  if id < 0 then none
  else t.headers[id.toNat]?.map fun h => ⟨id, h.name⟩

def without (t : Trace) (labels : List Label) : Trace :=
  { t with decode := fun l => if l ∈ labels then .error ⟨l, 0⟩ else t.decode l }

end Trace
end TaintTrace
