import TaintTrace.Trace.Image.Layout
import TaintTrace.Trace.Lookup

/-!
# Writing trace files

A trace is written with five sections, in the order of their tags: headers, names
one after the other, node words, sinks and output taints.  The word of label zero
is written as zero.  The bytes go through a buffer to a sink that may take only so
many of them; the first failure of the sink is kept and ends the writing.
-/

namespace TaintTrace
namespace Image

inductive WriteError where
  | undecodable (cause : InvalidLabel)
  | unencodable (label : Label) (cause : EncodeError)
  | refused
  deriving DecidableEq, Repr

namespace WriteError

def message : WriteError -> Text
  | undecodable cause => cause.message
  | unencodable l cause => "label " ++ l.text ++ ": " ++ cause.message
  | refused => "write limit reached"

end WriteError

/-!
## The parts of a file

The table is computed from the sizes of the sections, before any of them is written.  Words
are written between the other parts, since a label may turn out to have none.
-/

/-- The offset of each header's name, when names are written one after the other. -/
def nameOffsets : (offset : Nat) -> List Header -> List Nat
  | _, [] => []
  | offset, h :: hs => offset :: nameOffsets (offset + h.name.length) hs

def nameBytes (hs : List Header) : Text :=
  hs.flatMap Header.name

def sectionSize (t : Trace) : SectionKind -> Nat
  | .headers => t.headers.length * SectionKind.headers.entrySize
  | .names => (nameBytes t.headers).length
  | .labels => t.labelCount * SectionKind.labels.entrySize
  | .sinks => t.sinks.length * SectionKind.sinks.entrySize
  | .taints => t.taints.length * SectionKind.taints.entrySize

def sectionOrder : List SectionKind :=
  [.headers, .names, .labels, .sinks, .taints]

def tableFrom (t : Trace) : (offset : Nat) -> List SectionKind -> List TableEntry
  | _, [] => []
  | offset, kind :: kinds =>
      ⟨kind.tag, kind.entrySize, offset, sectionSize t kind⟩
        :: tableFrom t (offset + sectionSize t kind) kinds

def writtenTable (t : Trace) : List TableEntry :=
  tableFrom t (preambleSize + sectionOrder.length * tableEntrySize) sectionOrder

def preamble : Text :=
  magic ++ littleEndian 2 version ++ littleEndian 2 sectionOrder.length ++ littleEndian 8 0

def partsBeforeWords (t : Trace) : List Text :=
  preamble :: (writtenTable t).map TableEntry.bytes
    ++ List.zipWith headerBytes (nameOffsets 0 t.headers) t.headers
    ++ [nameBytes t.headers]
    ++ if t.labelCount = 0 then [] else [littleEndian 8 0]

def partsAfterWords (t : Trace) : List Text :=
  t.sinks.map sinkBytes ++ t.taints.map taintBytes

/-!
## Buffered writing

Once the sink has failed nothing is handed to it any more.
-/

/-- A sink that takes at most `room` bytes, if that is given, with a buffer in
front of it. -/
structure Output where
  room : Option Nat
  accepted : Text := []
  pending : Text := []
  failed : Bool := false

namespace Output

def bufferSize : Nat := 4096

/-- Hand bytes to the sink, which may take only a part of them. -/
def hand (o : Output) (bytes : Text) : Output :=
  match o.room with
  | none => { o with accepted := o.accepted ++ bytes }
  | some room =>
      { o with
        accepted := o.accepted ++ bytes.take room
        room := some (room - bytes.length)
        failed := room < bytes.length }

def flush (o : Output) : Output :=
  if o.failed then o else { o.hand o.pending with pending := [] }

/-- Put bytes in the buffer.  Where they do not fit, the buffer is filled up and handed
on, and the rest waits in the buffer, or passes it by if it is too long for that. -/
def put (o : Output) (bytes : Text) : Output :=
  if o.failed then o
  else if o.pending.length + bytes.length ≤ bufferSize then
    { o with pending := o.pending ++ bytes }
  else if o.pending.isEmpty then o.hand bytes
  else
    let free := bufferSize - o.pending.length
    let filled := { o with pending := o.pending ++ bytes.take free }.flush
    if filled.failed then filled
    else if (bytes.drop free).length ≤ bufferSize then { filled with pending := bytes.drop free }
    else filled.hand (bytes.drop free)

/-- Put the parts of a file in the buffer one after the other. -/
def putAll (o : Output) (parts : List Text) : Output :=
  parts.foldl put o

end Output

/-- Write the words of consecutive labels, up to the first one without node or word. -/
def putWords : (count label : Nat) -> Output -> Lookup (Output × Except WriteError Unit)
  | 0, _, o => .done (o, .ok ())
  | count + 1, label, o =>
      .decode (UInt32.ofNat label) fun
        | .error e => .done (o, .error (.undecodable e))
        | .ok n =>
            match NodeWord.encode n with
            | .error e => .done (o, .error (.unencodable (UInt32.ofNat label) e))
            | .ok w => putWords count (label + 1) (o.put (littleEndian 8 w.toNat))

/-- Write a trace to a sink.  A label without node or word ends the writing at
once, and the buffer is not handed on; a failure of the sink shows at the end. -/
def writeTo (t : Trace) (o : Output) : Lookup (Output × Except WriteError Unit) :=
  (putWords (t.labelCount - 1) 1 (o.putAll (partsBeforeWords t))).bind fun
    | (o, .error e) => .done (o, .error e)
    | (o, .ok ()) =>
        let o := (o.putAll (partsAfterWords t)).flush
        .done (o, if o.failed then .error .refused else .ok ())

def write (t : Trace) : Lookup (Except WriteError Text) :=
  (writeTo t ⟨none, [], [], false⟩).bind fun (o, outcome) =>
    .done (outcome.map fun _ => o.accepted)

end Image
end TaintTrace
