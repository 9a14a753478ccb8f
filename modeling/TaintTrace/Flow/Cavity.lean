import TaintTrace.Flow.Runs
import TaintTrace.Flow.Unhindered
import TaintTrace.Log.Progress

/-!
# Cavities

A cavity of an input file is a maximal run of bytes that neither influence a branch
nor flow unhindered to a sink.
-/

namespace TaintTrace

structure Cavity where
  path : Text
  first : UInt64
  stop : UInt64
  deriving DecidableEq, Repr

namespace Cavity

def text (c : Cavity) : Text :=
  c.path ++ "\t" ++ Text.ofNat c.first.toNat ++ " - " ++ Text.ofNat c.stop.toNat

/-- The number of bytes of a cavity; none when it ends before it begins. -/
def length (c : Cavity) : UInt64 :=
  if c.stop < c.first then 0 else c.stop - c.first

end Cavity

structure CavityOptions where
  /-- The files to look at, by name. -/
  selects : Text -> Bool
  /-- Close a cavity at the end of a file one byte short of it. -/
  legacyTrailing : Bool
  /-- How many sinks are dealt with between two reports. -/
  progressInterval : Int

namespace Cavities

/-- One mark for each byte of a file, zero for the bytes of cavities. -/
abbrev Marks := Array UInt8

def mark (h : Header) (marks : Marks) (l : Label) : Marks :=
  if h.contains l then marks.setIfInBounds (l.toNat - h.labelBegin.toNat) 1 else marks

def markControlFlow (h : Header) : (count label : Nat) -> Marks -> Lookup (Except InvalidLabel Marks)
  | 0, _, marks => .done (.ok marks)
  | count + 1, label, marks =>
      .decode (UInt32.ofNat label) fun
        | .error e => .done (.error e)
        | .ok n =>
            markControlFlow h count (label + 1)
              (if n.controlFlow then mark h marks (UInt32.ofNat label) else marks)

/-- Mark the bytes that flow to sinks, from the sink with an index on.  The answer
has the number of sinks begun, and the fault of the last of them if there is one. -/
def markFlows (h : Header) : (index : Nat) -> List Sink -> LabelSet -> Marks ->
    Lookup (Nat × Except Fault Marks)
  | index, [], _, marks => .done (index, .ok marks)
  | index, s :: sinks, seen, marks =>
      .decode s.label fun
        | .error e => .done (index + 1, .error (.within (.sink index) (.invalidLabel e)))
        | .ok n =>
            if n.controlFlow then markFlows h (index + 1) sinks seen marks
            else if n.isSource then
              markFlows h (index + 1) sinks seen (mark h marks s.label)
            else
              (Lookup.unhinderedSources s.label seen).bind fun found =>
                match found.fault with
                | some e => .done (index + 1, .error (.within (.sink index) e))
                | none =>
                    markFlows h (index + 1) sinks found.seen
                      (found.yielded.foldl (mark h) marks)

def ofMarks (legacyTrailing : Bool) (h : Header) (marks : Marks) : List Cavity :=
  let runs :=
    if legacyTrailing then Runs.legacyZeroRuns marks.toList else Runs.zeroRuns marks.toList
  runs.map fun r => ⟨h.name, r.first, r.stop⟩

/-- The largest label of a trace as a header fault shows it: one less than the
number of labels, in 32 bits. -/
def lastLabel (t : Trace) : Label :=
  UInt32.ofInt (t.labelCount - 1 : Int)

def ofHeader (t : Trace) (options : CavityOptions) (h : Header) :
    Lookup (Log × Except Fault (List Cavity)) :=
  if h.length = 0 then .done ([], .ok [])
  else if t.labelCount < h.labelEnd.toNat then
    .done ([], .error
      (.within (.headerOf h.name) (.invalidLabel ⟨h.labelEnd - 1, lastLabel t⟩)))
  else
    let started : Message := ⟨.debug, "Computing cavities of " ++ h.text⟩
    (markControlFlow h h.length h.labelBegin.toNat (Array.replicate h.length 0)).bind fun
      | .error e => .done ([started], .error (.within .controlFlowPass (.invalidLabel e)))
      | .ok marks =>
          (markFlows h 0 t.sinks (LabelSet.withRoom t.labelCount) marks).bind fun
            | (begun, outcome) =>
                let progress :=
                  Progress.start ("sinks of " ++ h.name) t.sinks.length options.progressInterval
                let log := started :: progress.reports begun
                match outcome with
                | .error e => .done (log, .error e)
                | .ok marks =>
                    let cavities := ofMarks options.legacyTrailing h marks
                    let finished : Message :=
                      ⟨.debug, h.name ++ ": " ++ Text.ofNat cavities.length ++ " cavities"⟩
                    .done (log ++ [finished], .ok cavities)

/-- What becomes of a file in a search over all files. -/
inductive Choice where
  | skip (message : Message)
  | search
  deriving Repr

def choose (options : CavityOptions) (h : Header) : Choice :=
  if h.length = 0 then .skip ⟨.trace, "Skipping " ++ h.name ++ ": no preallocated labels"⟩
  else if options.selects h.name then .search
  else .skip ⟨.debug, "Skipping " ++ h.name ++ ": does not match path filter"⟩

/-- Search files one after the other.  All of them are searched; the answer is the
fault of the first file that has one, or else the cavities of all files. -/
def ofHeaders (t : Trace) (options : CavityOptions) : List Header -> Log ->
    Except Fault (List Cavity) -> Lookup (Log × Except Fault (List Cavity))
  | [], log, found => .done (log, found)
  | h :: hs, log, found =>
      match choose options h with
      | .skip message => ofHeaders t options hs (log ++ [message]) found
      | .search =>
          (ofHeader t options h).bind fun (messages, outcome) =>
            let found :=
              match found, outcome with
              | .error e, _ => .error e
              | .ok _, .error e => .error (.within (.cavitiesOf h.name) e)
              | .ok cavities, .ok more => .ok (cavities ++ more)
            ofHeaders t options hs (log ++ messages) found

end Cavities

namespace Trace

def cavities (t : Trace) (options : CavityOptions) :
    Lookup (Log × Except Fault (List Cavity)) :=
  Cavities.ofHeaders t options t.headers [] (.ok [])

end Trace
end TaintTrace
