import Mathlib
import TaintTrace.Proofs.NodeWord
import TaintTrace.Proofs.Recording

/-!
# What operations add

A recording only grows.  An operation puts nodes, headers, sinks and output taints behind
those that are there, and apart from that it can set control-flow bits.  All that is known
of a run of operations follows from what each of them adds.
-/

namespace TaintTrace
namespace Recording

variable {r s : Recording}

/-!
## Nodes
-/

/-- The nodes of all labels in order, that of label zero included. -/
def nodes (r : Recording) : List Node :=
  r.words.toList.map NodeWord.decode

def origins (r : Recording) : List Origin :=
  r.nodes.map Node.origin

def Has (r : Recording) (l : Label) : Prop :=
  0 < l.toNat ∧ l.toNat < r.words.size

@[simp]
theorem length_nodes (r : Recording) : r.nodes.length = r.words.size := by
  rw [nodes, List.length_map, Array.length_toList]

@[simp]
theorem length_origins (r : Recording) : r.origins.length = r.words.size := by
  rw [origins, List.length_map, length_nodes]

@[simp]
theorem nodes_push (r : Recording) (w : UInt64) :
    (r.push w).nodes = r.nodes ++ [NodeWord.decode w] := by
  simp [nodes, push]

theorem decode_eq_ok_iff_nodes {l : Label} {n : Node} :
    r.decode l = .ok n <-> 0 < l.toNat ∧ r.nodes[l.toNat]? = some n := by
  rw [decode_eq_ok_iff, nodes, List.getElem?_map, Array.getElem?_toList]

theorem missing?_eq_none_iff (hr : Bounded r) {ls : List Label} :
    r.missing? ls = none <-> forall l, l ∈ ls -> r.Has l := by
  unfold missing? Has
  rw [List.find?_eq_none]
  refine forall₂_congr fun l _ => ?_
  rw [decide_eq_true_eq, not_or, UInt32.le_iff_toNat_le, hr.nextLabel_toNat, toNat_pos_iff,
    Nat.not_le]

/-!
## Additions
-/

def fileHeader (r : Recording) (name : Text) (size : Int) : Header :=
  ⟨name, Int32.ofNat (r.headers.size + 3), r.nextLabel, UInt32.ofNat (r.words.size + size.toNat)⟩

namespace Operation

def nodes (r : Recording) : Operation -> List Node
  | .file _ size =>
      (List.range size.toNat).map fun o =>
        ⟨.source (UInt8.ofNat r.headers.size) (UInt64.ofNat o), false⟩
  | .source index offset => [⟨.source (UInt8.ofInt index) offset, false⟩]
  | .union left right => [⟨NodeWord.stored (.union left right), false⟩]
  | .range first last => [⟨.range first last, false⟩]
  | .node n => [⟨NodeWord.stored n.origin, n.controlFlow⟩]
  | _ => []

def headers (r : Recording) : Operation -> List Header
  | .file name size => [r.fileHeader name size]
  | .output name => [⟨name, Int32.ofNat (r.headers.size + 3), r.nextLabel, r.nextLabel⟩]
  | _ => []

def sinks : Operation -> List Sink
  | .sink index offset l => [⟨l, offset, UInt8.ofInt index⟩]
  | .write index offset ls =>
      ls.mapIdx fun i l => ⟨l, offset + UInt64.ofNat i, UInt8.ofInt index⟩
  | _ => []

def taints : Operation -> List OutputTaint
  | .taint index offset l => [⟨index, offset, l⟩]
  | .write index offset ls => ls.mapIdx fun i l => ⟨index, offset + UInt64.ofNat i, l⟩
  | _ => []

/-- What is known of a recording that does not refuse an operation. -/
def Allowed (r : Recording) : Operation -> Prop
  | .file _ _ => r.headers.size < maxFiles
  | .output _ => r.headers.size < maxFiles
  | .union left right => r.Has left ∧ r.Has right
  | .range first last => r.Has first ∧ r.Has last
  | .controlFlow ls => forall l, l ∈ ls -> r.Has l
  | _ => True

end Operation

structure Grown (op : Operation) (r s : Recording) : Prop where
  allowed : op.Allowed r
  origins : s.origins = r.origins ++ (op.nodes r).map Node.origin
  unmarked : (forall ls, op ≠ .controlFlow ls) -> s.nodes = r.nodes ++ op.nodes r
  headers : s.headers.toList = r.headers.toList ++ op.headers r
  sinks : s.sinks.toList = r.sinks.toList ++ op.sinks
  taints : s.taints.toList = r.taints.toList ++ op.taints

theorem Grown.of_nodes {op : Operation} (allowed : op.Allowed r)
    (hnodes : s.nodes = r.nodes ++ op.nodes r)
    (hheaders : s.headers.toList = r.headers.toList ++ op.headers r)
    (hsinks : s.sinks.toList = r.sinks.toList ++ op.sinks)
    (htaints : s.taints.toList = r.taints.toList ++ op.taints) : Grown op r s := by
  refine ⟨allowed, ?_, fun _ => hnodes, hheaders, hsinks, htaints⟩
  rw [Recording.origins, hnodes, List.map_append]
  rfl

theorem wordOf_ok {n : Node} {w : UInt64} (h : r.wordOf n = .ok w) : NodeWord.encode n = .ok w := by
  unfold wordOf at h
  cases hencode : NodeWord.encode n with
  | error e =>
      rw [hencode] at h
      cases h
  | ok v =>
      rw [hencode] at h
      dsimp only at h
      split at h
      · cases h
      · cases h
        rfl

theorem addNode_ok {n : Node} {l : Label} (h : r.addNode n = .ok (l, s)) :
    exists w, NodeWord.encode n = .ok w ∧ s = r.push w := by
  unfold addNode addWord at h
  cases hword : r.wordOf n with
  | error e =>
      rw [hword] at h
      cases h
  | ok w =>
      rw [hword] at h
      cases h
      exact ⟨w, wordOf_ok hword, rfl⟩

theorem Grown.of_addNode {op : Operation} {n : Node} {l : Label} (h : r.addNode n = .ok (l, s))
    (allowed : op.Allowed r) (hnodes : op.nodes r = [⟨NodeWord.stored n.origin, n.controlFlow⟩])
    (hheaders : op.headers r = []) (hsinks : op.sinks = []) (htaints : op.taints = []) :
    Grown op r s := by
  rcases addNode_ok h with ⟨w, hencode, rfl⟩
  refine .of_nodes allowed ?_ ?_ ?_ ?_
  · rw [nodes_push, NodeWord.decode_encode hencode, hnodes]
  · rw [hheaders, List.append_nil]
    rfl
  · rw [hsinks, List.append_nil]
    rfl
  · rw [htaints, List.append_nil]
    rfl

theorem addBytes_ok {file : UInt8} {count offset : Nat}
    (h : addBytes file count offset r = (none, s)) :
    s.nodes = r.nodes ++ (List.range' offset count).map (fun o =>
        ⟨.source file (UInt64.ofNat o), false⟩) ∧
      s.headers = r.headers ∧ s.sinks = r.sinks ∧ s.taints = r.taints := by
  induction count generalizing r offset with
  | zero =>
      cases h
      simp
  | succ count ih =>
      unfold addBytes at h
      cases hword : r.wordOf (.source file (UInt64.ofNat offset)) with
      | error e =>
          rw [hword] at h
          cases h
      | ok w =>
          rw [hword] at h
          rcases ih h with ⟨hnodes, hheaders, hsinks, htaints⟩
          refine ⟨?_, hheaders, hsinks, htaints⟩
          rw [hnodes, nodes_push, NodeWord.decode_encode (wordOf_ok hword), List.range'_succ,
            List.map_cons, List.append_assoc]
          rfl

theorem addHeader_ok {name : Text} {labelBegin labelEnd : Label} {i : Nat}
    (h : r.addHeader name labelBegin labelEnd = .ok (i, s)) :
    r.headers.size < maxFiles ∧
      s = { r with
        headers := r.headers.push
          ⟨name, Int32.ofNat (r.headers.size + 3), labelBegin, labelEnd⟩ } := by
  unfold addHeader at h
  split at h
  · cases h
  · rename_i hroom
    cases h
    exact ⟨Nat.not_le.mp hroom, rfl⟩

theorem addFile_grown {name : Text} {size : Int} {i : Nat} (h : r.addFile name size = (.ok i, s)) :
    Grown (.file name size) r s := by
  unfold addFile at h
  dsimp only at h
  rcases hbytes : addBytes (UInt8.ofNat r.headers.size) size.toNat 0 r with ⟨_ | e, filled⟩
  · rw [hbytes] at h
    dsimp only at h
    rcases addBytes_ok hbytes with ⟨hnodes, hheaders, hsinks, htaints⟩
    have hsize : filled.words.size = r.words.size + size.toNat := by
      rw [← length_nodes, hnodes, List.length_append, length_nodes, List.length_map,
        List.length_range']
    rcases hheader : filled.addHeader name r.nextLabel filled.nextLabel with e | ⟨i', added⟩
    · rw [hheader] at h
      cases h
    · rw [hheader] at h
      cases h
      rcases addHeader_ok hheader with ⟨hroom, rfl⟩
      rw [hheaders] at hroom
      refine .of_nodes hroom ?_ ?_ ?_ ?_
      · rw [Operation.nodes, List.range_eq_range', ← hnodes]
        rfl
      · have hlast : filled.nextLabel = UInt32.ofNat (r.words.size + size.toNat) := by
          rw [nextLabel, hsize]
        rw [Array.toList_push, hheaders, hlast]
        rfl
      · exact (congrArg Array.toList hsinks).trans (List.append_nil _).symm
      · exact (congrArg Array.toList htaints).trans (List.append_nil _).symm
  · rw [hbytes] at h
    cases h

theorem origins_markControlFlow (ls : List Label) (ws : Array UInt64) :
    (ls.foldl (fun ws l => ws.modify l.toNat NodeWord.markControlFlow) ws).toList.map
      (fun w => (NodeWord.decode w).origin) =
    ws.toList.map fun w => (NodeWord.decode w).origin := by
  induction ls generalizing ws with
  | nil => rfl
  | cons l ls ih =>
      rw [List.foldl_cons, ih]
      apply List.ext_getElem?
      intro k
      rw [List.getElem?_map, List.getElem?_map, Array.getElem?_toList, Array.getElem?_toList,
        Array.getElem?_modify]
      split
      · cases ws[k]? with
        | none => rfl
        | some w =>
            rw [Option.map_some, Option.map_some, Option.map_some, NodeWord.decode_markControlFlow]
      · rfl

theorem markControlFlow_grown (hr : Bounded r) {ls : List Label}
    (h : r.markControlFlow ls = .ok s) : Grown (.controlFlow ls) r s := by
  unfold markControlFlow at h
  split at h
  · cases h
  · rename_i hmissing
    cases h
    have horigins := origins_markControlFlow ls r.words
    refine ⟨(missing?_eq_none_iff hr).mp hmissing, ?_, ?_, ?_, ?_, ?_⟩
    · rw [origins, origins, nodes, nodes, List.map_map, List.map_map]
      exact horigins.trans (List.append_nil _).symm
    · intro hother
      exact absurd rfl (hother ls)
    · exact (List.append_nil _).symm
    · exact (List.append_nil _).symm
    · exact (List.append_nil _).symm

theorem write_grown (r : Recording) (output : Int) (offset : UInt64) (ls : List Label) :
    Grown (.write output offset ls) r (r.write output offset ls) := by
  have hall : (r.write output offset ls).words = r.words ∧
      (r.write output offset ls).headers = r.headers ∧
      (r.write output offset ls).sinks.toList = r.sinks.toList ++
        (Operation.write output offset ls).sinks ∧
      (r.write output offset ls).taints.toList = r.taints.toList ++
        (Operation.write output offset ls).taints := by
    induction ls generalizing r offset with
    | nil => simp [write, Operation.sinks, Operation.taints]
    | cons l ls ih =>
        rcases ih ((r.addSink output offset l).addTaint output offset l) (offset + 1) with
          ⟨hwords, hheaders, hsinks, htaints⟩
        refine ⟨hwords, hheaders, ?_, ?_⟩
        · rw [write, hsinks]
          simp [Operation.sinks, addSink, addTaint, add_assoc, add_comm]
        · rw [write, htaints]
          simp [Operation.taints, addSink, addTaint, add_assoc, add_comm]
  refine .of_nodes trivial ?_ ?_ hall.2.2.1 hall.2.2.2
  · rw [nodes, hall.1]
    exact (List.append_nil _).symm
  · rw [hall.2.1]
    exact (List.append_nil _).symm

theorem grown_perform {op : Operation} (hr : Bounded r) (h : r.perform op = .ok s) :
    Grown op r s := by
  cases op with
  | file name size =>
      rw [perform] at h
      rcases hfile : r.addFile name size with ⟨e | i, added⟩
      · rw [hfile] at h
        cases h
      · rw [hfile] at h
        cases h
        exact addFile_grown hfile
  | output name =>
      rcases exists_of_map_snd h with ⟨i, hi⟩
      rcases addHeader_ok hi with ⟨hroom, rfl⟩
      refine .of_nodes hroom (List.append_nil _).symm ?_ (List.append_nil _).symm
        (List.append_nil _).symm
      rw [Array.toList_push]
      rfl
  | sourceLabel file offset =>
      rw [perform] at h
      cases hlabel : r.sourceLabel file offset with
      | error e =>
          rw [hlabel] at h
          cases h
      | ok l =>
          rw [hlabel] at h
          cases h
          exact .of_nodes trivial (List.append_nil _).symm (List.append_nil _).symm
            (List.append_nil _).symm (List.append_nil _).symm
  | source file offset =>
      rcases exists_of_map_snd h with ⟨l, hl⟩
      exact .of_addNode hl trivial rfl rfl rfl rfl
  | union left right =>
      rcases exists_of_map_snd h with ⟨l, hl⟩
      unfold addUnion unionWord at hl
      cases hmissing : r.missing? [left, right] with
      | some m =>
          rw [hmissing] at hl
          cases hl
      | none =>
          rw [hmissing] at hl
          have hhas := (missing?_eq_none_iff hr).mp hmissing
          exact .of_addNode hl ⟨hhas left (by simp), hhas right (by simp)⟩ rfl rfl rfl rfl
  | range first last =>
      rcases exists_of_map_snd h with ⟨l, hl⟩
      unfold addRange at hl
      cases hmissing : r.missing? [first, last] with
      | some m =>
          rw [hmissing] at hl
          cases hl
      | none =>
          rw [hmissing] at hl
          have hhas := (missing?_eq_none_iff hr).mp hmissing
          exact .of_addNode hl ⟨hhas first (by simp), hhas last (by simp)⟩ rfl rfl rfl rfl
  | node n =>
      rcases exists_of_map_snd h with ⟨l, hl⟩
      exact .of_addNode hl trivial rfl rfl rfl rfl
  | controlFlow ls => exact markControlFlow_grown hr h
  | sink output offset l =>
      cases h
      exact .of_nodes trivial (List.append_nil _).symm (List.append_nil _).symm
        Array.toList_push (List.append_nil _).symm
  | taint output offset l =>
      cases h
      exact .of_nodes trivial (List.append_nil _).symm (List.append_nil _).symm
        (List.append_nil _).symm Array.toList_push
  | write output offset ls =>
      cases h
      exact write_grown r output offset ls

/-!
## Runs
-/

theorem performAll_induction {P : Recording -> Prop} {ops : List Operation}
    (hstep : forall op r s, op ∈ ops -> Bounded r -> Bounded s -> Grown op r s -> P r -> P s)
    (hbounded : Bounded r) (hr : P r) (h : r.performAll ops = .ok s) : P s := by
  induction ops generalizing r with
  | nil =>
      cases h
      exact hr
  | cons op ops ih =>
      unfold performAll at h
      cases hop : r.perform op with
      | error e =>
          rw [hop] at h
          cases h
      | ok next =>
          rw [hop] at h
          have hnext := bounded_perform hbounded hop
          have hgrown := grown_perform hbounded hop
          refine ih ?_ hnext (hstep op r next List.mem_cons_self hbounded hnext hgrown hr) h
          intro op' r' s' hmem
          exact hstep op' r' s' (List.mem_cons_of_mem op hmem)

end Recording
end TaintTrace
