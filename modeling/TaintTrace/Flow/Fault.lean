import TaintTrace.Trace.Basic

/-!
# Faults of analyses

An analysis of a flow fails on a label without node or on a file without header.
What the analysis was about when it failed is kept around the cause.
-/

namespace TaintTrace

structure ByteOffset where
  file : Input
  offset : UInt64
  deriving DecidableEq, Repr

namespace ByteOffset

def text (b : ByteOffset) : Text :=
  b.file.path ++ "[" ++ Text.ofNat b.offset.toNat ++ "]"

/-- The order by file, then by offset, equal bytes included. -/
def le (a b : ByteOffset) : Bool :=
  if a.file.id = b.file.id then a.offset ≤ b.offset else a.file.id < b.file.id

end ByteOffset

inductive Context where
  | resolving (label : Label)
  | searching (label : Label)
  | taintAtOffset (offset : UInt64)
  | taintAt (byte : ByteOffset)
  | headerOf (name : Text)
  | controlFlowPass
  | sink (index : Nat)
  | cavitiesOf (name : Text)
  deriving DecidableEq, Repr

namespace Context

def text : Context -> Text
  | resolving l => "while resolving sources of " ++ l.text
  | searching l => "while searching sources of label " ++ l.text
  | taintAtOffset offset => "output taint at offset " ++ Text.ofNat offset.toNat
  | taintAt b => "output taint at " ++ b.text
  | headerOf name => "header of " ++ name
  | controlFlowPass => "control flow pass"
  | sink i => "sink " ++ Text.ofNat i
  | cavitiesOf name => "while computing cavities of " ++ name

end Context

inductive Fault where
  | invalidLabel (cause : InvalidLabel)
  | unknownInput (id : Int)
  | within (context : Context) (cause : Fault)
  deriving DecidableEq, Repr

namespace Fault

def message : Fault -> Text
  | invalidLabel cause => cause.message
  | unknownInput id => "unknown input: no file header with index " ++ Text.ofInt id
  | within context cause => context.text ++ ": " ++ cause.message

def root : Fault -> Fault
  | within _ cause => cause.root
  | cause => cause

end Fault
end TaintTrace
