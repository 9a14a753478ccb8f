import TaintTrace.Trace.Lookup

/-!
# Problems of a trace

A trace is consistent when the label ranges of its headers are disjoint, every
label has a node, nodes refer to existing files and to smaller labels, and the
sinks and output taints refer to labels and files that exist.  Problems are
reported in that order, up to a number of them.
-/

namespace TaintTrace

inductive Problem where
  | reversedHeader (header : Header)
  | overlap (first second : Header)
  | undecodable (label : Label) (cause : InvalidLabel)
  | unknownFile (label : Label) (file : UInt8) (headerCount : Nat)
  | invalidChild (label : Label) (node : Node) (child : Label)
  | laterChild (label : Label) (node : Node) (child : Label)
  | sinkLabel (index : Nat) (cause : InvalidLabel)
  | sinkOutput (index : Nat) (output : UInt8)
  | taintLabel (index : Nat) (cause : InvalidLabel)
  | taintOutput (index : Nat) (output : Int)

namespace Problem

def message : Problem -> Text
  | reversedHeader h =>
      "file header " ++ h.text ++ ": end of label range is before its beginning"
  | overlap a b =>
      "file headers " ++ a.text ++ " and " ++ b.text ++ " have overlapping label ranges"
  | undecodable l cause => "label " ++ l.text ++ ": " ++ cause.message
  | unknownFile l file count =>
      "label " ++ l.text ++ ": source refers to file header " ++ Text.ofNat file.toNat
        ++ ", but there are " ++ Text.ofNat count ++ " headers"
  | invalidChild l n c =>
      "label " ++ l.text ++ ": " ++ n.text ++ " refers to invalid label " ++ c.text
  | laterChild l n c =>
      "label " ++ l.text ++ ": " ++ n.text ++ " refers to label " ++ c.text
        ++ " which is not smaller"
  | sinkLabel i cause => "sink " ++ Text.ofNat i ++ ": " ++ cause.message
  | sinkOutput i output =>
      "sink " ++ Text.ofNat i ++ ": output " ++ Text.ofNat output.toNat ++ " does not exist"
  | taintLabel i cause => "output taint " ++ Text.ofNat i ++ ": " ++ cause.message
  | taintOutput i output =>
      "output taint " ++ Text.ofNat i ++ ": input " ++ Text.ofInt output ++ " does not exist"

end Problem

namespace Validity

/-!
## Reports

A report adds a problem to those found so far and signals whether the check is over, which it
is as soon as there are as many problems as a positive limit allows.  Each part of a check hands
on the signal of its last report.
-/

/-- The problems found so far, the last one first. -/
structure Findings where
  limit : Int
  found : List Problem

structure Signal where
  stop : Bool
  findings : Findings

namespace Signal

def andThen (s : Signal) (next : Findings -> Signal) : Signal :=
  if s.stop then s else next s.findings

def problems (s : Signal) : List Problem :=
  s.findings.found.reverse

end Signal

namespace Findings

def start (limit : Int) : Findings :=
  ⟨limit, []⟩

def goOn (f : Findings) : Signal :=
  ⟨false, f⟩

def report (f : Findings) (p : Problem) : Signal :=
  let found := p :: f.found
  ⟨0 < f.limit && f.limit ≤ found.length, { f with found := found }⟩

end Findings

/-!
## Headers

Headers that end before they begin are reported first.  Those with labels are kept and sorted by
their first labels, and neighbours that overlap are reported.
-/

def checkOrder : List Header -> (kept : List Header) -> Findings -> Signal × List Header
  | [], kept, f => (f.goOn, kept.reverse)
  | h :: hs, kept, f =>
      if h.labelEnd < h.labelBegin then
        let s := f.report (.reversedHeader h)
        if s.stop then (s, kept.reverse) else checkOrder hs kept s.findings
      else checkOrder hs (if 0 < h.length then h :: kept else kept) f

def checkNeighbours : List Header -> Findings -> Signal
  | a :: b :: rest, f =>
      if b.labelBegin < a.labelEnd then
        (f.report (.overlap a b)).andThen (checkNeighbours (b :: rest))
      else checkNeighbours (b :: rest) f
  | _, f => f.goOn

def checkHeaders (hs : List Header) (f : Findings) : Signal :=
  let ordered := checkOrder hs [] f
  ordered.1.andThen
    (checkNeighbours (ordered.2.mergeSort fun a b => a.labelBegin ≤ b.labelBegin))

/-!
## Nodes

The children of a node are checked one by one, so a check may end between two of them.
-/

def childProblem? (count : Nat) (l : Label) (n : Node) (c : Label) : Option Problem :=
  if c = 0 ∨ count ≤ c.toNat then some (.invalidChild l n c)
  else if l ≤ c then some (.laterChild l n c)
  else none

def checkChildren (count : Nat) (l : Label) (n : Node) : (remaining i : Nat) -> Findings -> Signal
  | 0, _, f => f.goOn
  | remaining + 1, i, f =>
      match childProblem? count l n (n.child i) with
      | some p => (f.report p).andThen (checkChildren count l n remaining (i + 1))
      | none => checkChildren count l n remaining (i + 1) f

def checkNode (t : Trace) (l : Label) (r : Except InvalidLabel Node) (f : Findings) : Signal :=
  match r with
  | .error e => f.report (.undecodable l e)
  | .ok n =>
      match n.origin with
      | .source file _ =>
          if t.headers.length ≤ file.toNat then
            f.report (.unknownFile l file t.headers.length)
          else f.goOn
      | _ => checkChildren t.labelCount l n n.childCount 0 f

/-- Check consecutive labels.  Behind the last report that is wanted no label is decoded. -/
def checkLabels (t : Trace) : (count label : Nat) -> Findings -> Lookup Signal
  | 0, _, f => .done f.goOn
  | count + 1, label, f =>
      .decode (UInt32.ofNat label) fun r =>
        let s := checkNode t (UInt32.ofNat label) r f
        if s.stop then .done s else checkLabels t count (label + 1) s.findings

/-!
## Outputs

Both tables are visited with the same visitor, which goes on with the signal that it has.
-/

def sinkProblem? (t : Trace) (i : Nat) (s : Sink) : Option Problem :=
  match InvalidLabel.find? s.label t.labelCount with
  | some e => some (.sinkLabel i e)
  | none =>
      if t.headers.length ≤ s.output.toNat then some (.sinkOutput i s.output) else none

def taintProblem? (t : Trace) (i : Nat) (o : OutputTaint) : Option Problem :=
  match InvalidLabel.find? o.label t.labelCount with
  | some e => some (.taintLabel i e)
  | none =>
      if o.output < 0 ∨ t.headers.length ≤ o.output then some (.taintOutput i o.output)
      else none

/-- Visit the entries of a table, with the signal that the last report gave. -/
def visit {α : Type} (problem? : Nat -> α -> Option Problem) :
    (i : Nat) -> List α -> Signal -> Signal
  | _, [], s => s
  | i, x :: xs, s =>
      let s :=
        match problem? i x with
        | some p => s.findings.report p
        | none => s
      if s.stop then s else visit problem? (i + 1) xs s

def checkOutputs (t : Trace) (f : Findings) : Signal :=
  let sinks := visit (sinkProblem? t) 0 t.sinks f.goOn
  if sinks.stop then sinks else visit (taintProblem? t) 0 t.taints sinks

end Validity

namespace Trace

/-- The problems of a trace, at most `limit` of them if the limit is positive. -/
def problems (t : Trace) (limit : Int) : Lookup (List Problem) :=
  let headers := Validity.checkHeaders t.headers (Validity.Findings.start limit)
  if headers.stop then .done headers.problems
  else
    (Validity.checkLabels t (t.labelCount - 1) 1 headers.findings).bind fun labels =>
      .done (labels.andThen (Validity.checkOutputs t)).problems

end Trace
end TaintTrace
