import TaintTrace.Node.Word
import TaintTrace.Trace.Basic

/-!
# Recordings

A recording holds a trace in memory, each node in its word.  The word of label
zero is never read.  A recording grows label by label; the checked operations
refuse labels that do not exist yet, so that nodes only refer to earlier ones.
-/

namespace TaintTrace

/-- A trace held in memory. -/
structure Recording where
  headers : Array Header
  words : Array UInt64
  sinks : Array Sink
  taints : Array OutputTaint

inductive RecordingFault where
  | unencodable (cause : EncodeError)
  | labelTooLarge (label : Label)
  | missingLabel (label : Label)
  | tooManyFiles
  | offsetOutside (offset : Int) (header : Header)
  | missingFile (file : Int)

namespace RecordingFault

def message : RecordingFault -> Text
  | unencodable cause => "tdag builder: " ++ cause.message
  | labelTooLarge l => "tdag builder: label " ++ l.text ++ " exceeds the maximum label"
  | missingLabel l => "tdag builder: label " ++ l.text ++ " does not exist"
  | tooManyFiles => "tdag builder: too many files"
  | offsetOutside offset h =>
      "tdag builder: offset " ++ Text.ofInt offset ++ " outside of " ++ h.text
  | missingFile _ => "runtime error"

end RecordingFault

namespace Recording

/-- A recording without files, whose only label is zero. -/
def empty : Recording :=
  ⟨#[], #[0], #[], #[]⟩

def decode (r : Recording) (l : Label) : Except InvalidLabel Node :=
  match InvalidLabel.find? l r.words.size with
  | some e => .error e
  | none => .ok (NodeWord.decode (r.words.getD l.toNat 0))

def trace (r : Recording) : Trace where
  headers := r.headers.toList
  labelCount := r.words.size
  sinks := r.sinks.toList
  taints := r.taints.toList
  decode := r.decode

def released (r : Recording) : Recording :=
  { r with words := #[], sinks := #[], taints := #[] }

/-!
## Labels

Every node takes the next label, as long as there are labels left.
-/

def nextLabel (r : Recording) : Label :=
  UInt32.ofNat r.words.size

def refusal? (r : Recording) : Option RecordingFault :=
  if Label.max < r.nextLabel.toNat then some (.labelTooLarge r.nextLabel) else none

def push (r : Recording) (w : UInt64) : Recording :=
  { r with words := r.words.push w }

def wordOf (r : Recording) (n : Node) : Except RecordingFault UInt64 :=
  match NodeWord.encode n with
  | .error e => .error (.unencodable e)
  | .ok w =>
      match r.refusal? with
      | some e => .error e
      | none => .ok w

def addWord (r : Recording) (w : Except RecordingFault UInt64) :
    Except RecordingFault (Label × Recording) :=
  w.map fun w => (r.nextLabel, r.push w)

def addNode (r : Recording) (n : Node) : Except RecordingFault (Label × Recording) :=
  r.addWord (r.wordOf n)

def missing? (r : Recording) (ls : List Label) : Option Label :=
  ls.find? fun l => l = 0 ∨ r.nextLabel ≤ l

def unionWord (r : Recording) (left right : Label) : Except RecordingFault UInt64 :=
  match r.missing? [left, right] with
  | some l => .error (.missingLabel l)
  | none => r.wordOf (.union left right)

def addUnion (r : Recording) (left right : Label) :
    Except RecordingFault (Label × Recording) :=
  r.addWord (r.unionWord left right)

/-- Unite a label with another one, the union with it again, and so on.  The unions before
a fault stay. -/
def addUnions (right : Label) : (count : Nat) -> (left : Label) -> Recording ->
    Except RecordingFault Label × Recording
  | 0, left, r => (.ok left, r)
  | count + 1, left, r =>
      match r.unionWord left right with
      | .error e => (.error e, r)
      | .ok w => addUnions right count r.nextLabel (r.push w)

def addRange (r : Recording) (first last : Label) :
    Except RecordingFault (Label × Recording) :=
  match r.missing? [first, last] with
  | some l => .error (.missingLabel l)
  | none => r.addNode (.range first last)

/-- Give the next label to a byte of a file.  Only the low eight bits of the file
index are kept. -/
def addSource (r : Recording) (file : Int) (offset : UInt64) :
    Except RecordingFault (Label × Recording) :=
  r.addNode (.source (UInt8.ofInt file) offset)

/-- Mark nodes as affecting control flow; all of them have to exist. -/
def markControlFlow (r : Recording) (ls : List Label) : Except RecordingFault Recording :=
  match r.missing? ls with
  | some l => .error (.missingLabel l)
  | none =>
      .ok { r with
        words := ls.foldl (fun ws l => ws.modify l.toNat NodeWord.markControlFlow) r.words }

/-!
## Files

The bytes of an input get their labels before the file gets its header.
-/

/-- The most files a recording can have: a source has eight bits for its file. -/
def maxFiles : Nat := 256

/-- Add a header, whose descriptor is its index plus three. -/
def addHeader (r : Recording) (name : Text) (labelBegin labelEnd : Label) :
    Except RecordingFault (Nat × Recording) :=
  if maxFiles ≤ r.headers.size then .error .tooManyFiles
  else
    let h : Header := ⟨name, Int32.ofNat (r.headers.size + 3), labelBegin, labelEnd⟩
    .ok (r.headers.size, { r with headers := r.headers.push h })

def addBytes (file : UInt8) : (count offset : Nat) -> Recording ->
    Option RecordingFault × Recording
  | 0, _, r => (none, r)
  | count + 1, offset, r =>
      match r.wordOf (.source file (UInt64.ofNat offset)) with
      | .error e => (some e, r)
      | .ok w => addBytes file count (offset + 1) (r.push w)

/-- Add an input file with a label for each of its bytes.  The labels come before
the header and stay when the header is refused. -/
def addFile (r : Recording) (name : Text) (size : Int) :
    Except RecordingFault Nat × Recording :=
  let first := r.nextLabel
  match addBytes (UInt8.ofNat r.headers.size) size.toNat 0 r with
  | (some e, filled) => (.error e, filled)
  | (none, filled) =>
      match filled.addHeader name first filled.nextLabel with
      | .error e => (.error e, filled)
      | .ok (i, added) => (.ok i, added)

def addOutput (r : Recording) (name : Text) : Except RecordingFault (Nat × Recording) :=
  r.addHeader name r.nextLabel r.nextLabel

def header? (r : Recording) (file : Int) : Option Header :=
  if file < 0 then none else r.headers[file.toNat]?

/-- The label set aside for a byte of a file.  The sum is taken modulo the number
of labels. -/
def sourceLabel (r : Recording) (file offset : Int) : Except RecordingFault Label :=
  match r.header? file with
  | none => .error (.missingFile file)
  | some h =>
      let l := h.labelBegin + UInt32.ofInt offset
      if h.contains l then .ok l else .error (.offsetOutside offset h)

/-!
## Outputs

A byte that is written is recorded as a sink, as an output taint, or as both.
-/

/-- Record a tainted byte written to an output.  Only the low eight bits of the
output index are kept. -/
def addSink (r : Recording) (output : Int) (offset : UInt64) (l : Label) : Recording :=
  { r with sinks := r.sinks.push ⟨l, offset, UInt8.ofInt output⟩ }

def addTaint (r : Recording) (output : Int) (offset : UInt64) (l : Label) : Recording :=
  { r with taints := r.taints.push ⟨output, offset, l⟩ }

/-- Record consecutive bytes of an output as sinks and as output taints. -/
def write (r : Recording) (output : Int) (offset : UInt64) : List Label -> Recording
  | [] => r
  | l :: ls =>
      ((r.addSink output offset l).addTaint output offset l).write output (offset + 1) ls

end Recording
end TaintTrace
