import TaintTrace.Trace.Lookup

/-!
# Statistics of a trace

How many nodes of each kind a trace has, how many affect control flow, and what
its files have to do with it.
-/

namespace TaintTrace

structure FileStatistics where
  header : Header
  /-- The labels of the file that affect control flow. -/
  controlFlow : Nat
  sinks : Nat
  taints : Nat

structure Statistics where
  labels : Nat
  sources : Nat
  unions : Nat
  ranges : Nat
  controlFlow : Nat
  /-- The labels without node. -/
  invalid : Nat
  widestRange : Nat
  files : List FileStatistics
  sinks : Nat
  taints : Nat

namespace FileStatistics

def countLabel (l : Label) (f : FileStatistics) : FileStatistics :=
  if f.header.contains l then { f with controlFlow := f.controlFlow + 1 } else f

def countSink (f : FileStatistics) : FileStatistics :=
  { f with sinks := f.sinks + 1 }

def countTaint (f : FileStatistics) : FileStatistics :=
  { f with taints := f.taints + 1 }

end FileStatistics

namespace Statistics

/-!
## Counting

A pass over the labels counts nodes, and for each node that affects control flow the files that
its label was set aside for.  Two more passes count sinks and output taints, those of files that
do not exist only for the trace as a whole.
-/

def start (t : Trace) : Statistics where
  labels := t.labelCount - 1
  sources := 0
  unions := 0
  ranges := 0
  controlFlow := 0
  invalid := 0
  widestRange := 0
  files := t.headers.map fun h => ⟨h, 0, 0, 0⟩
  sinks := 0
  taints := 0

def countKind (s : Statistics) (n : Node) : Statistics :=
  match n.origin with
  | .source _ _ => { s with sources := s.sources + 1 }
  | .union _ _ => { s with unions := s.unions + 1 }
  | .range _ _ =>
      { s with ranges := s.ranges + 1, widestRange := max s.widestRange n.childCount }

def countControlFlow (s : Statistics) (l : Label) : Statistics :=
  { s with
    controlFlow := s.controlFlow + 1
    files := s.files.map (FileStatistics.countLabel l) }

def countNode (s : Statistics) (l : Label) : Except InvalidLabel Node -> Statistics
  | .error _ => { s with invalid := s.invalid + 1 }
  | .ok n => if n.controlFlow then (s.countKind n).countControlFlow l else s.countKind n

def countLabels : List Label -> Statistics -> Lookup Statistics
  | [], s => .done s
  | l :: ls, s => .decode l fun r => countLabels ls (s.countNode l r)

def countSink (s : Statistics) (k : Sink) : Statistics :=
  { s with
    sinks := s.sinks + 1
    files := s.files.modify k.output.toNat FileStatistics.countSink }

def countTaint (s : Statistics) (o : OutputTaint) : Statistics :=
  { s with
    taints := s.taints + 1
    files :=
      if 0 ≤ o.output then s.files.modify o.output.toNat FileStatistics.countTaint else s.files }

/-!
## Reports

Kinds are listed by name, and only those that occur.
-/

def nodesByKind (s : Statistics) : List (Text × Nat) :=
  [(("range" : Text), s.ranges), ("source", s.sources), ("union", s.unions)].filter
    fun (_, n) => 0 < n

/-- Files with labels are inputs, the others outputs; the kinds that occur, by
name, with their numbers. -/
def filesByKind (s : Statistics) : List (Text × Nat) :=
  let inputs := s.files.countP fun f => 0 < f.header.length
  [(("input" : Text), inputs), ("output", s.files.length - inputs)].filter fun (_, n) => 0 < n

def fileLine (index : Nat) (f : FileStatistics) : Text :=
  "  [" ++ Text.ofNat index ++ "] " ++ f.header.name ++ ": " ++ Text.ofNat f.header.length
    ++ " bytes, " ++ Text.ofNat f.controlFlow ++ " affect control flow, "
    ++ Text.ofNat f.sinks ++ " sinks, " ++ Text.ofNat f.taints ++ " output taints"

def lines (s : Statistics) : List Text :=
  let invalid : List Text :=
    if 0 < s.invalid then ["  invalid: " ++ Text.ofNat s.invalid] else []
  let files : Text :=
    "files: " ++ Text.ofNat s.files.length
      ++ s.filesByKind.flatMap fun (kind, n) => (", " ++ Text.ofNat n ++ " " ++ kind : Text)
  (["labels: " ++ Text.ofNat s.labels] : List Text)
    ++ (s.nodesByKind.map fun (kind, n) => ("  " ++ kind ++ " nodes: " ++ Text.ofNat n : Text))
    ++ ["  affecting control flow: " ++ Text.ofNat s.controlFlow,
        "  largest range: " ++ Text.ofNat s.widestRange ++ " labels"]
    ++ invalid
    ++ [files]
    ++ s.files.mapIdx fileLine
    ++ ["sinks: " ++ Text.ofNat s.sinks, "output taints: " ++ Text.ofNat s.taints]

end Statistics

namespace Trace

def statistics (t : Trace) : Lookup Statistics :=
  (Statistics.countLabels t.labels (Statistics.start t)).bind fun s =>
    .done (t.taints.foldl Statistics.countTaint (t.sinks.foldl Statistics.countSink s))

end Trace
end TaintTrace
