import Mathlib
import TaintTrace.Proofs.NodeWord
import TaintTrace.Trace.Image.Writing
import TaintTrace.Trace.Recording

/-!
# What is written for a recording

The file of a recording is said here part by part, without a buffer: the preamble,
the section table, and the five sections one after the other.  A sink without limit
takes all that is put in the buffer in front of it, and every word is the word of
its node, so writing a recording gives exactly that file.
-/

namespace TaintTrace
namespace Image

/-!
## The file of a recording
-/

/-- The words as they are written: label zero has the word zero. -/
def writtenWords (r : Recording) : Array UInt64 :=
  r.words.setIfInBounds 0 0

theorem writtenWords_eq {r : Recording} (h : r.words[0]? = some 0) : writtenWords r = r.words := by
  apply Array.ext_getElem?
  intro i
  unfold writtenWords
  rw [Array.getElem?_setIfInBounds]
  by_cases hi : 0 = i
  · subst hi
    have hpos : 0 < r.words.size := by simpa using Option.isSome_of_eq_some h
    rw [if_pos rfl, if_pos hpos, h]
  · rw [if_neg hi]

def sectionParts (r : Recording) : SectionKind -> List Text
  | .headers => List.zipWith headerBytes (nameOffsets 0 r.trace.headers) r.trace.headers
  | .names => [nameBytes r.trace.headers]
  | .labels => (writtenWords r).toList.map fun w => littleEndian 8 w.toNat
  | .sinks => r.trace.sinks.map sinkBytes
  | .taints => r.trace.taints.map taintBytes

def sectionBytes (r : Recording) (kind : SectionKind) : Text :=
  (sectionParts r kind).flatten

def tableBytes (t : Trace) : Text :=
  ((writtenTable t).map TableEntry.bytes).flatten

def fileOf (r : Recording) : Text :=
  preamble ++ (tableBytes r.trace ++ sectionOrder.flatMap (sectionBytes r))

/-!
## Sinks with and without limit

As long as a sink works, it has all that it was given, but for what waits in the buffer.
Once it has failed, it has as many bytes as it takes.
-/

namespace Output

/-- What a sink that takes a limited number of bytes, or all, can be like when it was given
some bytes through the buffer. -/
inductive Given (limit : Option Nat) (bytes : Text) : Output -> Prop
  | working (accepted pending : Text) (hbytes : accepted ++ pending = bytes)
      (hroom : forall k, limit = some k -> accepted.length ≤ k) :
      Given limit bytes ⟨limit.map (· - accepted.length), accepted, pending, false⟩
  | failed (k : Nat) (room : Option Nat) (pending : Text) (hlimit : limit = some k)
      (hlong : k < bytes.length) : Given limit bytes ⟨room, bytes.take k, pending, true⟩

variable {limit : Option Nat} {bytes part : Text} {o : Output}

theorem given_empty (limit : Option Nat) : Given limit [] ⟨limit, [], [], false⟩ := by
  have h : Given limit [] ⟨limit.map (· - 0), [], [], false⟩ :=
    .working [] [] rfl (fun k _ => Nat.zero_le k)
  cases limit with
  | none => exact h
  | some k => exact h

theorem Given.of_failed (h : Given limit bytes o) (hfailed : o.failed = true) (part : Text) :
    Given limit (bytes ++ part) o := by
  cases h with
  | working => cases hfailed
  | failed k room pending hlimit hlong =>
      have htake : (bytes ++ part).take k = bytes.take k := List.take_append_of_le_length hlong.le
      rw [← htake]
      exact .failed k room pending hlimit (by rw [List.length_append]; omega)

theorem Given.accepted_isPrefix (h : Given limit bytes o) : o.accepted <+: bytes := by
  cases h with
  | working accepted pending hbytes => exact ⟨pending, hbytes⟩
  | failed k => exact List.take_prefix k bytes

/-- A working sink takes all that it is handed, or fails when it has as much as it takes. -/
theorem hand_cases (accepted pending part : Text)
    (hroom : forall k, limit = some k -> accepted.length ≤ k) :
    (hand ⟨limit.map (· - accepted.length), accepted, pending, false⟩ part =
        ⟨limit.map (· - (accepted ++ part).length), accepted ++ part, pending, false⟩ ∧
      forall k, limit = some k -> (accepted ++ part).length ≤ k) ∨
    exists k room, limit = some k ∧ k < (accepted ++ part).length ∧
      hand ⟨limit.map (· - accepted.length), accepted, pending, false⟩ part =
        ⟨room, (accepted ++ part).take k, pending, true⟩ := by
  cases limit with
  | none => exact Or.inl ⟨rfl, fun k hk => nomatch hk⟩
  | some k =>
      have haccepted := hroom k rfl
      have htake : accepted ++ part.take (k - accepted.length) = (accepted ++ part).take k := by
        rw [List.take_append, List.take_of_length_le haccepted]
      by_cases hlong : k < (accepted ++ part).length
      · refine Or.inr ⟨k, some (k - accepted.length - part.length), rfl, hlong, ?_⟩
        rw [List.length_append] at hlong
        have hshort : k - accepted.length < part.length := by omega
        simp only [hand, Option.map_some, htake, hshort, decide_true]
      · refine Or.inl ⟨?_, ?_⟩
        · rw [List.take_of_length_le (Nat.not_lt.mp hlong)] at htake
          rw [List.length_append] at hlong
          have hfits : ¬ k - accepted.length < part.length := by omega
          simp only [hand, Option.map_some, htake, hfits, decide_false, List.length_append,
            Nat.sub_add_eq]
        · intro k' hk'
          cases hk'
          exact Nat.not_lt.mp hlong

theorem Given.flush_cases (h : Given limit bytes o) :
    (o.flush = ⟨limit.map (· - bytes.length), bytes, [], false⟩ ∧
      forall k, limit = some k -> bytes.length ≤ k) ∨
    exists k room pending, limit = some k ∧ k < bytes.length ∧
      o.flush = ⟨room, bytes.take k, pending, true⟩ := by
  cases h with
  | working accepted pending hbytes hroom =>
      subst hbytes
      unfold flush
      rcases hand_cases accepted pending pending hroom with
        ⟨hhand, hfits⟩ | ⟨k, room, hlimit, hlong, hhand⟩
      · exact Or.inl ⟨by simp [hhand], hfits⟩
      · exact Or.inr ⟨k, room, [], hlimit, hlong, by simp [hhand]⟩
  | failed k room pending hlimit hlong =>
      exact Or.inr ⟨k, room, pending, hlimit, hlong, rfl⟩

theorem given_hand (bytes part : Text) (hfits : forall k, limit = some k -> bytes.length ≤ k) :
    Given limit (bytes ++ part)
      (hand ⟨limit.map (· - bytes.length), bytes, [], false⟩ part) := by
  rcases hand_cases bytes [] part hfits with ⟨hhand, hroom⟩ | ⟨k, room, hlimit, hlong, hhand⟩
  · rw [hhand]
    exact .working _ [] (List.append_nil _) hroom
  · rw [hhand]
    exact .failed k room [] hlimit hlong

theorem Given.put (h : Given limit bytes o) (part : Text) :
    Given limit (bytes ++ part) (o.put part) := by
  cases h with
  | failed k room pending hlimit hlong =>
      exact (Given.failed k room pending hlimit hlong).of_failed rfl part
  | working accepted pending hbytes hroom =>
      subst hbytes
      unfold Output.put
      dsimp only
      rw [if_neg Bool.false_ne_true]
      -- The bytes wait in the buffer, pass it by when it is empty, or fill it up.
      split
      · exact .working accepted (pending ++ part) (List.append_assoc _ _ _).symm hroom
      · split
        · rename_i hempty
          rw [List.isEmpty_iff] at hempty
          subst hempty
          rw [List.append_nil]
          exact given_hand accepted part hroom
        · generalize bufferSize - pending.length = free
          have hfilled : Given limit (accepted ++ (pending ++ part.take free))
              ⟨limit.map (· - accepted.length), accepted, pending ++ part.take free, false⟩ :=
            .working accepted (pending ++ part.take free) rfl hroom
          have hparts : accepted ++ pending ++ part =
              accepted ++ (pending ++ part.take free) ++ part.drop free := by
            rw [List.append_assoc, List.append_assoc, List.append_assoc, List.take_append_drop]
          rw [hparts]
          rcases hfilled.flush_cases with ⟨hflush, hfits⟩ | ⟨k, room, rest, hlimit, hlong, hflush⟩
          · rw [hflush]
            dsimp only
            rw [if_neg Bool.false_ne_true]
            split
            · exact .working _ (part.drop free) rfl hfits
            · exact given_hand _ (part.drop free) hfits
          · rw [hflush, if_pos rfl]
            exact (Given.failed k room rest hlimit hlong).of_failed rfl (part.drop free)

theorem Given.putAll (h : Given limit bytes o) (parts : List Text) :
    Given limit (bytes ++ parts.flatten) (o.putAll parts) := by
  induction parts generalizing o bytes with
  | nil => simpa [Output.putAll] using h
  | cons part parts ih =>
      have hrest := ih (h.put part)
      rwa [List.append_assoc, ← List.flatten_cons] at hrest

theorem putAll_append (o : Output) (parts parts' : List Text) :
    o.putAll (parts ++ parts') = (o.putAll parts).putAll parts' :=
  List.foldl_append

end Output

/-!
## Words
-/

def HasWord (nodes : Label -> Except InvalidLabel Node) (l : Label) (w : UInt64) : Prop :=
  exists n, nodes l = .ok n ∧ NodeWord.encode n = .ok w

/-- A label has no word, and why. -/
inductive Lacks (nodes : Label -> Except InvalidLabel Node) (l : Label) : WriteError -> Prop
  | undecodable {e : InvalidLabel} (hnode : nodes l = .error e) :
      Lacks nodes l (.undecodable e)
  | unencodable {n : Node} {e : EncodeError} (hnode : nodes l = .ok n)
      (hword : NodeWord.encode n = .error e) : Lacks nodes l (.unencodable l e)

def HasWords (nodes : Label -> Except InvalidLabel Node) (label : Nat) (ws : List UInt64) : Prop :=
  forall i w, ws[i]? = some w -> HasWord nodes (UInt32.ofNat (label + i)) w

variable {nodes : Label -> Except InvalidLabel Node} {label : Nat} {w : UInt64}
  {ws : List UInt64}

theorem HasWord.unique {l : Label} {w' : UInt64} (h : HasWord nodes l w)
    (h' : HasWord nodes l w') : w = w' := by
  rcases h with ⟨n, hnode, hword⟩
  rcases h' with ⟨n', hnode', hword'⟩
  cases hnode.symm.trans hnode'
  exact Except.ok.inj (hword.symm.trans hword')

theorem Lacks.not_hasWord {l : Label} {e : WriteError} (h : Lacks nodes l e) :
    ¬ HasWord nodes l w := by
  intro hword
  rcases hword with ⟨n, hnode, hword⟩
  cases h with
  | undecodable hnone => cases hnode.symm.trans hnone
  | unencodable hnode' hnone =>
      cases hnode.symm.trans hnode'
      cases hword.symm.trans hnone

theorem Lacks.unique {l : Label} {e e' : WriteError} (h : Lacks nodes l e)
    (h' : Lacks nodes l e') : e = e' := by
  cases h with
  | undecodable hnode =>
      cases h' with
      | undecodable hnode' => rw [Except.error.inj (hnode.symm.trans hnode')]
      | unencodable hnode' => cases hnode.symm.trans hnode'
  | unencodable hnode hword =>
      cases h' with
      | undecodable hnode' => cases hnode.symm.trans hnode'
      | unencodable hnode' hword' =>
          cases hnode.symm.trans hnode'
          rw [Except.error.inj (hword.symm.trans hword')]

theorem hasWord_or_lacks (nodes : Label -> Except InvalidLabel Node) (l : Label) :
    (exists w, HasWord nodes l w) ∨ exists e, Lacks nodes l e := by
  cases hnode : nodes l with
  | error e => exact Or.inr ⟨_, .undecodable hnode⟩
  | ok n =>
      cases hword : NodeWord.encode n with
      | error e => exact Or.inr ⟨_, .unencodable hnode hword⟩
      | ok w => exact Or.inl ⟨w, n, hnode, hword⟩

theorem hasWords_nil (nodes : Label -> Except InvalidLabel Node) (label : Nat) :
    HasWords nodes label [] := by
  intro i w hw
  cases hw

theorem hasWords_cons :
    HasWords nodes label (w :: ws) <->
      HasWord nodes (UInt32.ofNat label) w ∧ HasWords nodes (label + 1) ws := by
  constructor
  · intro h
    refine ⟨h 0 w rfl, ?_⟩
    intro i w' hw'
    have hnext := h (i + 1) w' hw'
    rwa [Nat.add_right_comm]
  · intro h i w' hw'
    cases i with
    | zero =>
        cases hw'
        exact h.1
    | succ i =>
        have hnext := h.2 i w' hw'
        rwa [Nat.add_right_comm] at hnext

theorem hasWords_or_lacks (nodes : Label -> Except InvalidLabel Node) (count label : Nat) :
    (exists ws : List UInt64, ws.length = count ∧ HasWords nodes label ws) ∨
    exists (ws : List UInt64) (rest : Nat) (e : WriteError), count = ws.length + (rest + 1) ∧
      HasWords nodes label ws ∧ Lacks nodes (UInt32.ofNat (label + ws.length)) e := by
  induction count generalizing label with
  | zero => exact Or.inl ⟨[], rfl, hasWords_nil nodes label⟩
  | succ count ih =>
      rcases hasWord_or_lacks nodes (UInt32.ofNat label) with ⟨w, hw⟩ | ⟨e, he⟩
      · rcases ih (label + 1) with ⟨ws, hlength, hws⟩ | ⟨ws, rest, e, hcount, hws, he⟩
        · exact Or.inl ⟨w :: ws, congrArg Nat.succ hlength, hasWords_cons.mpr ⟨hw, hws⟩⟩
        · refine Or.inr ⟨w :: ws, rest, e, ?_, hasWords_cons.mpr ⟨hw, hws⟩, ?_⟩
          · rw [List.length_cons, hcount, Nat.add_right_comm]
          · rwa [List.length_cons, Nat.add_comm ws.length 1, ← Nat.add_assoc]
      · exact Or.inr ⟨[], count, e, (Nat.zero_add _).symm, hasWords_nil nodes label, he⟩

theorem answer_putWords (rest : Nat) (o : Output) (h : HasWords nodes label ws) :
    (putWords (ws.length + rest) label o).answer nodes =
      (putWords rest (label + ws.length)
        (o.putAll (ws.map fun w => littleEndian 8 w.toNat))).answer nodes := by
  induction ws generalizing label o with
  | nil => simp [Output.putAll]
  | cons w ws ih =>
      rcases hasWords_cons.mp h with ⟨⟨n, hnode, hword⟩, hws⟩
      rw [List.length_cons, Nat.add_right_comm, putWords, Lookup.answer_decode, hnode]
      simp only [hword]
      rw [ih _ hws, Nat.add_right_comm label, Nat.add_assoc label]
      rfl

theorem answer_putWords_lacks {e : WriteError} (rest : Nat) (o : Output)
    (h : Lacks nodes (UInt32.ofNat label) e) :
    (putWords (rest + 1) label o).answer nodes = (o, .error e) := by
  rw [putWords, Lookup.answer_decode]
  cases h with
  | undecodable hnode => simp only [hnode, Lookup.answer_done]
  | unencodable hnode hword => simp only [hnode, hword, Lookup.answer_done]

end Image

theorem Recording.decode_ofNat {r : Recording} (hcount : r.words.size ≤ 0x100000000) {i : Nat}
    (hpos : 0 < i) (hi : i < r.words.size) :
    r.decode (UInt32.ofNat i) = .ok (NodeWord.decode (r.words.getD i 0)) := by
  have hlabel : (UInt32.ofNat i).toNat = i :=
    UInt32.toNat_ofNat_of_lt' (by simp only [UInt32.size]; omega)
  have hvalid : InvalidLabel.find? (UInt32.ofNat i) r.words.size = none := by
    unfold InvalidLabel.find?
    rw [if_neg]
    intro hbad
    rcases hbad with hzero | hbeyond
    · have hnat : i = 0 := by rw [← hlabel, hzero]; rfl
      omega
    · omega
  unfold Recording.decode
  rw [hvalid, hlabel]

namespace Image

theorem flatten_written (r : Recording) :
    (partsBeforeWords r.trace).flatten
        ++ ((r.words.toList.tail.map fun w => littleEndian 8 w.toNat).flatten
          ++ (partsAfterWords r.trace).flatten) = fileOf r := by
  have hwords : ((if r.trace.labelCount = 0 then [] else [littleEndian 8 0])
      ++ r.words.toList.tail.map fun w => littleEndian 8 w.toNat)
      = sectionParts r .labels := by
    have hcount : r.trace.labelCount = r.words.toList.length := by simp [Recording.trace]
    have hlist : (writtenWords r).toList = r.words.toList.set 0 0 := by simp [writtenWords]
    rw [hcount, sectionParts, hlist]
    cases r.words.toList with
    | nil => rfl
    | cons w ws => rfl
  simp only [fileOf, partsBeforeWords, partsAfterWords, sectionOrder, sectionBytes, tableBytes,
    ← hwords, List.flatMap_cons, List.flatMap_nil, List.flatten_append, List.flatten_cons,
    List.append_assoc, List.cons_append, List.append_nil]
  simp [sectionParts]

/-!
## What is written for a trace
-/

def writtenParts (t : Trace) (ws : List UInt64) : List Text :=
  partsBeforeWords t ++ ((ws.map fun w => littleEndian 8 w.toNat) ++ partsAfterWords t)

/-- The words of all labels of a trace, from label one on. -/
structure Words (t : Trace) (ws : List UInt64) : Prop where
  length : ws.length = t.labelCount - 1
  words : HasWords t.decode 1 ws

variable {t : Trace}

theorem Words.run_writeTo (h : Words t ws) (o : Output) :
    (writeTo t o).run t = ((o.putAll (writtenParts t ws)).flush,
      if (o.putAll (writtenParts t ws)).flush.failed then .error .refused else .ok ()) := by
  have hwords := answer_putWords 0 (o.putAll (partsBeforeWords t)) h.words
  rw [Nat.add_zero, h.length] at hwords
  unfold Lookup.run writeTo writtenParts
  rw [Lookup.answer_bind, hwords, Output.putAll_append, Output.putAll_append]
  rfl

theorem run_writeTo_of_lacks {rest : Nat} {e : WriteError}
    (hcount : t.labelCount - 1 = ws.length + (rest + 1)) (hws : HasWords t.decode 1 ws)
    (he : Lacks t.decode (UInt32.ofNat (1 + ws.length)) e) (o : Output) :
    (writeTo t o).run t =
      (o.putAll (partsBeforeWords t ++ ws.map fun w => littleEndian 8 w.toNat), .error e) := by
  unfold Lookup.run writeTo
  rw [Lookup.answer_bind, hcount, answer_putWords _ _ hws, answer_putWords_lacks rest _ he,
    Output.putAll_append]
  rfl

theorem Words.run_write (h : Words t ws) :
    (write t).run t = .ok (writtenParts t ws).flatten := by
  have hgiven := (Output.given_empty none).putAll (writtenParts t ws)
  rcases hgiven.flush_cases with ⟨hflush, _⟩ | ⟨k, _, _, hnone, _⟩
  · have hrun := h.run_writeTo ⟨none, [], [], false⟩
    unfold write
    unfold Lookup.run at hrun ⊢
    rw [Lookup.answer_bind, hrun, hflush]
    rfl
  · cases hnone

theorem write_run {r : Recording} (hcount : r.words.size ≤ 0x100000000) :
    (write r.trace).run r.trace = .ok (fileOf r) := by
  have hwords : Words r.trace r.words.toList.tail := by
    refine ⟨by simp [Recording.trace], ?_⟩
    intro i w hw
    rw [List.getElem?_tail, Array.getElem?_toList] at hw
    have hsize : i + 1 < r.words.size := (Array.getElem?_eq_some_iff.mp hw).fst
    refine ⟨NodeWord.decode w, ?_, NodeWord.encode_decode w⟩
    have hdecode := Recording.decode_ofNat (i := i + 1) hcount (Nat.succ_pos i) hsize
    rwa [Array.getD_eq_getD_getElem?, hw, Option.getD_some, Nat.add_comm i 1] at hdecode
  rw [hwords.run_write, writtenParts, List.flatten_append, List.flatten_append, flatten_written]

/-!
## What can be written
-/

/-- The tables of a trace, with words for its labels from one on. -/
def recordingOf (t : Trace) (ws : List UInt64) : Recording where
  headers := t.headers.toArray
  words := if t.labelCount = 0 then #[] else (0 :: ws).toArray
  sinks := t.sinks.toArray
  taints := t.taints.toArray

theorem trace_recordingOf {t : Trace} {ws : List UInt64} (hlength : ws.length = t.labelCount - 1) :
    (recordingOf t ws).trace = { t with decode := (recordingOf t ws).decode } := by
  have hsize : (recordingOf t ws).words.size = t.labelCount := by
    unfold recordingOf
    split
    · simp [*]
    · simp
      omega
  unfold Recording.trace
  rw [hsize]
  rfl

theorem flatten_writtenParts (hlength : ws.length = t.labelCount - 1) :
    (writtenParts t ws).flatten = fileOf (recordingOf t ws) := by
  have htail : (recordingOf t ws).words.toList.tail = ws := by
    unfold recordingOf
    split
    · have hws : ws = [] := List.eq_nil_of_length_eq_zero (by omega)
      rw [hws]
      rfl
    · rfl
  have hfile := flatten_written (recordingOf t ws)
  rw [trace_recordingOf hlength, htail] at hfile
  rw [← hfile, writtenParts, List.flatten_append, List.flatten_append]
  rfl

/-- Whatever its nodes come from, a trace that is written has the file of a recording. -/
theorem write_ok {file : Text} (hwrite : (write t).run t = .ok file) :
    exists ws : List UInt64, ws.length = t.labelCount - 1 ∧ file = fileOf (recordingOf t ws) := by
  rcases hasWords_or_lacks t.decode (t.labelCount - 1) 1 with
    ⟨ws, hlength, hws⟩ | ⟨ws, rest, e, hcount, hws, he⟩
  · have hfile := (Words.mk hlength hws).run_write
    rw [hwrite, flatten_writtenParts hlength] at hfile
    exact ⟨ws, hlength, Except.ok.inj hfile⟩
  · have hrun := run_writeTo_of_lacks hcount hws he ⟨none, [], [], false⟩
    unfold write at hwrite
    unfold Lookup.run at hrun hwrite
    rw [Lookup.answer_bind, hrun] at hwrite
    cases hwrite

end Image
end TaintTrace
