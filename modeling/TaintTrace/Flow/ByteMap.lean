import TaintTrace.Log.Progress
import TaintTrace.Sorting
import TaintTrace.Trace.Sources

/-!
# The map from input bytes to output bytes

An input byte maps to an output byte when it is a source of the label that the
output byte carries.  Bytes are ordered by file, then by offset.
-/

namespace TaintTrace

/-- Input bytes with the output bytes they flow to, both in order. -/
abbrev ByteMap := List (ByteOffset × List ByteOffset)

namespace ByteMap

def sortBytes (bs : List ByteOffset) : List ByteOffset :=
  bs.mergeSort ByteOffset.le

def distinctBytes (bs : List ByteOffset) : List ByteOffset :=
  Sorting.distinct ByteOffset.le bs

/-- The order of pairs by their input bytes, then by their output bytes. -/
def pairLe (p q : ByteOffset × ByteOffset) : Bool :=
  if p.1 = q.1 then p.2.le q.2 else p.1.le q.1

def entry? : List (ByteOffset × ByteOffset) -> Option (ByteOffset × List ByteOffset)
  | [] => none
  | p :: rest => some (p.1, p.2 :: rest.map Prod.snd)

def ofPairs (pairs : List (ByteOffset × ByteOffset)) : ByteMap :=
  ((Sorting.distinct pairLe pairs).splitBy fun p q => p.1 == q.1).filterMap entry?

/-- The map of some entries, put in order.  Of two entries of one input byte the later
one counts. -/
def ofEntries (entries : List (ByteOffset × List ByteOffset)) : ByteMap :=
  (distinctBytes (entries.map Prod.fst)).map fun input =>
    (input, distinctBytes ((entries.reverse.lookup input).getD []))

def text (m : ByteMap) : Text :=
  m.flatMap fun (input, outputs) =>
    (input.text ++ " -> " ++ Text.join ", " (outputs.map ByteOffset.text) ++ "\n" : Text)

end ByteMap

namespace Trace

def input (t : Trace) (id : Int) : Except Fault Input :=
  match t.input? id with
  | some i => .ok i
  | none => .error (.unknownInput id)

/-- The bytes of found sources, up to the first one in an unknown file. -/
def sourceBytes (t : Trace) : List FoundSource -> Except Fault (List ByteOffset)
  | [] => .ok []
  | s :: rest =>
      match t.input s.file.toNat with
      | .error e => .error e
      | .ok file => (t.sourceBytes rest).map (⟨file, s.offset⟩ :: ·)

/-- The input bytes a label is made of, in the order they are found.  A label
without node weighs more than an unknown file. -/
def taintSources (t : Trace) (l : Label) : Lookup (Except Fault (List ByteOffset)) :=
  (Lookup.sources l).bind fun
    | (_, some e) => .done (.error e)
    | (found, none) => .done (t.sourceBytes found)

/-- The input bytes of an output taint's label, in order. -/
def outputTaintSources (t : Trace) (l : Label) : Lookup (Except Fault (List ByteOffset)) :=
  (t.taintSources l).bind fun r => .done (r.map ByteMap.sortBytes)

/-- The pairs of an input byte and an output byte of some output taints, and the
number of output taints dealt with. -/
def taintPairs (t : Trace) : (done : Nat) -> List OutputTaint ->
    (pairs : List (ByteOffset × ByteOffset)) ->
    Lookup (Nat × Except Fault (List (ByteOffset × ByteOffset)))
  | done, [], pairs => .done (done, .ok pairs)
  | done, o :: taints, pairs =>
      match t.input o.output with
      | .error e => .done (done, .error (.within (.taintAtOffset o.offset) e))
      | .ok file =>
          let output : ByteOffset := ⟨file, o.offset⟩
          (t.taintSources o.label).bind fun
            | .error e => .done (done, .error (.within (.taintAt output) e))
            | .ok bytes =>
                t.taintPairs (done + 1) taints
                  (bytes.foldl (fun pairs b => (b, output) :: pairs) pairs)

def byteMap (t : Trace) (progressInterval : Int) : Lookup (Log × Except Fault ByteMap) :=
  let total := t.taints.length
  let progress := Progress.start "output taints" total progressInterval
  let started : Message :=
    ⟨.info, "Computing input to output mapping from " ++ Text.ofNat total ++ " output taints"⟩
  (t.taintPairs 0 t.taints []).bind fun (done, outcome) =>
    let log := started :: progress.reports done
    match outcome with
    | .error e => .done (log, .error e)
    | .ok pairs =>
        let m := ByteMap.ofPairs pairs
        let finished : Message :=
          ⟨.info, "Mapping computed: " ++ Text.ofNat m.length ++ " input bytes flow to outputs"⟩
        .done (log ++ [finished], .ok m)

end Trace
end TaintTrace
