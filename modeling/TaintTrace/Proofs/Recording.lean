import Mathlib
import TaintTrace.Trace.Recording

/-!
# Runs of recordings

A recording is made by a run of operations from the empty one, none of which was
refused.  Whatever the operations are, label zero keeps the word zero, and there
are never more words than the two label fields of a word can name.
-/

namespace TaintTrace
namespace Recording

/-!
## Operations
-/

inductive Operation where
  | file (name : Text) (size : Int)
  | output (name : Text)
  | sourceLabel (file offset : Int)
  | source (file : Int) (offset : UInt64)
  | union (left right : Label)
  | range (first last : Label)
  | node (n : Node)
  | controlFlow (labels : List Label)
  | sink (output : Int) (offset : UInt64) (l : Label)
  | taint (output : Int) (offset : UInt64) (l : Label)
  | write (output : Int) (offset : UInt64) (labels : List Label)

/-- The recording after an operation that it does not refuse. -/
def perform (r : Recording) : Operation -> Except RecordingFault Recording
  | .file name size =>
      match r.addFile name size with
      | (.error e, _) => .error e
      | (.ok _, s) => .ok s
  | .output name => (r.addOutput name).map Prod.snd
  | .sourceLabel file offset => (r.sourceLabel file offset).map fun _ => r
  | .source file offset => (r.addSource file offset).map Prod.snd
  | .union left right => (r.addUnion left right).map Prod.snd
  | .range first last => (r.addRange first last).map Prod.snd
  | .node n => (r.addNode n).map Prod.snd
  | .controlFlow ls => r.markControlFlow ls
  | .sink output offset l => .ok (r.addSink output offset l)
  | .taint output offset l => .ok (r.addTaint output offset l)
  | .write output offset ls => .ok (r.write output offset ls)

/-- The recording after some operations, if it refuses none of them. -/
def performAll (r : Recording) : List Operation -> Except RecordingFault Recording
  | [] => .ok r
  | op :: ops => (r.perform op).bind fun s => s.performAll ops

/-!
## Labels with nodes
-/

theorem toNat_ofInt (z : Int) : ((UInt32.ofInt z).toNat : Int) = z % (Label.total : Int) := by
  rw [UInt32.ofInt, UInt32.toNat_ofNat']
  change (((z % 4294967296).toNat % 4294967296 : Nat) : Int) = z % 4294967296
  omega

theorem toNat_pos_iff {l : Label} : 0 < l.toNat <-> l ≠ 0 := by
  rw [Nat.pos_iff_ne_zero, Ne, Ne, ← UInt32.toNat_inj]
  rfl

theorem decode_eq_ok_iff {r : Recording} {l : Label} {n : Node} :
    r.decode l = .ok n <-> 0 < l.toNat ∧ r.words[l.toNat]?.map NodeWord.decode = some n := by
  unfold decode InvalidLabel.find?
  rw [toNat_pos_iff]
  by_cases hinvalid : l = 0 ∨ r.words.size ≤ l.toNat
  · rw [if_pos hinvalid]
    constructor
    · intro h
      cases h
    · intro h
      rcases hinvalid with hzero | hlarge
      · exact absurd hzero h.1
      · rw [Array.getElem?_eq_none hlarge] at h
        cases h.2
  · rw [if_neg hinvalid]
    rw [not_or, Nat.not_le] at hinvalid
    rw [Array.getElem?_eq_getElem hinvalid.2, ← Array.getElem_eq_getD (h := hinvalid.2)]
    simp [hinvalid.1]

theorem decode_ok_iff (r : Recording) (l : Label) :
    (exists n, r.decode l = .ok n) <-> 1 ≤ l.toNat ∧ l.toNat < r.words.size := by
  simp only [decode_eq_ok_iff, exists_and_left, Option.map_eq_some_iff]
  refine and_congr_right fun _ => ?_
  constructor
  · intro h
    rcases h with ⟨n, w, hw, _⟩
    exact (Array.getElem?_eq_some_iff.mp hw).fst
  · intro hlt
    exact ⟨_, _, Array.getElem?_eq_getElem hlt, rfl⟩

/-!
## Labels that fit
-/

structure Bounded (r : Recording) : Prop where
  untainted : r.words[0]? = some 0
  fits : r.words.size ≤ NodeWord.labelSpan

theorem bounded_empty : Bounded empty where
  untainted := rfl
  fits := by simp [empty, NodeWord.labelSpan]

/-- Setting the control-flow bit of other labels leaves the word of label zero alone. -/
theorem foldl_modify_zero (f : UInt64 -> UInt64) (ls : List Label) (ws : Array UInt64)
    (hls : forall l, l ∈ ls -> l ≠ 0) :
    (ls.foldl (fun ws l => ws.modify l.toNat f) ws)[0]? = ws[0]?
      ∧ (ls.foldl (fun ws l => ws.modify l.toNat f) ws).size = ws.size := by
  induction ls generalizing ws with
  | nil => exact And.intro rfl rfl
  | cons l ls ih =>
      have hne : l.toNat ≠ 0 := by
        intro hzero
        exact hls l List.mem_cons_self (UInt32.toNat_inj.1 hzero)
      have hrest := ih (ws.modify l.toNat f) (fun m hm => hls m (List.mem_cons_of_mem l hm))
      rw [List.foldl_cons]
      constructor
      · rw [hrest.1, Array.getElem?_modify, if_neg hne]
      · rw [hrest.2, Array.size_modify]

namespace Bounded

variable {r s : Recording}

theorem of_words_eq (hr : Bounded r) (h : s.words = r.words) : Bounded s where
  untainted := by rw [h]; exact hr.untainted
  fits := by rw [h]; exact hr.fits

theorem size_pos (hr : Bounded r) : 0 < r.words.size := by
  have hsome : r.words[0]?.isSome := by simp [hr.untainted]
  simpa using hsome

theorem nextLabel_toNat (hr : Bounded r) : r.nextLabel.toNat = r.words.size := by
  have hfits := hr.fits
  unfold nextLabel
  simp only [NodeWord.labelSpan, Label.max] at hfits
  exact UInt32.toNat_ofNat_of_lt' (by simp only [UInt32.size]; omega)

theorem size_lt (hr : Bounded r) (hroom : r.refusal? = none) :
    r.words.size < NodeWord.labelSpan := by
  unfold refusal? at hroom
  rw [hr.nextLabel_toNat] at hroom
  have hlt : ¬ Label.max < r.words.size := by
    intro hfull
    simp [hfull] at hroom
  unfold NodeWord.labelSpan
  omega

theorem push (hr : Bounded r) (hroom : r.refusal? = none) (w : UInt64) :
    Bounded (r.push w) where
  untainted := by
    have hpos := hr.size_pos
    have hold := hr.untainted
    unfold Recording.push
    rw [Array.getElem?_push_lt hpos]
    rwa [Array.getElem?_eq_getElem hpos] at hold
  fits := by
    have hlt := hr.size_lt hroom
    simp only [Recording.push, Array.size_push]
    omega

theorem wordOf (hr : Bounded r) {n : Node} {w : UInt64} (h : r.wordOf n = .ok w) :
    Bounded (r.push w) := by
  unfold Recording.wordOf at h
  cases hencode : NodeWord.encode n with
  | error e => simp [hencode] at h
  | ok v =>
      cases hroom : r.refusal? with
      | some e => simp [hencode, hroom] at h
      | none => exact hr.push hroom w

theorem addNode (hr : Bounded r) {n : Node} {l : Label} (h : r.addNode n = .ok (l, s)) :
    Bounded s := by
  unfold Recording.addNode addWord at h
  cases hword : r.wordOf n with
  | error e => simp [hword, Except.map] at h
  | ok w =>
      simp only [hword, Except.map, Except.ok.injEq, Prod.mk.injEq] at h
      rw [← h.2]
      exact hr.wordOf hword

theorem addUnion (hr : Bounded r) {left right l : Label}
    (h : r.addUnion left right = .ok (l, s)) : Bounded s := by
  unfold Recording.addUnion unionWord at h
  cases hmissing : r.missing? [left, right] with
  | some m => simp [hmissing, addWord, Except.map] at h
  | none =>
      simp only [hmissing] at h
      exact hr.addNode h

theorem addRange (hr : Bounded r) {first last l : Label}
    (h : r.addRange first last = .ok (l, s)) : Bounded s := by
  unfold Recording.addRange at h
  cases hmissing : r.missing? [first, last] with
  | some m => simp [hmissing] at h
  | none =>
      simp only [hmissing] at h
      exact hr.addNode h

theorem markControlFlow (hr : Bounded r) {ls : List Label} (h : r.markControlFlow ls = .ok s) :
    Bounded s := by
  unfold Recording.markControlFlow at h
  cases hmissing : r.missing? ls with
  | some m => simp [hmissing] at h
  | none =>
      have hpositive : forall l, l ∈ ls -> l ≠ 0 := by
        intro l hl hzero
        unfold missing? at hmissing
        rw [List.find?_eq_none] at hmissing
        exact hmissing l hl (by simp [hzero])
      have hwords := foldl_modify_zero NodeWord.markControlFlow ls r.words hpositive
      simp only [hmissing, Except.ok.injEq] at h
      subst h
      exact ⟨hwords.1.trans hr.untainted, hwords.2.trans_le hr.fits⟩

theorem addBytes (hr : Bounded r) {file : UInt8} {count offset : Nat} {e : Option RecordingFault}
    (h : Recording.addBytes file count offset r = (e, s)) : Bounded s := by
  induction count generalizing r offset with
  | zero =>
      simp only [Recording.addBytes, Prod.mk.injEq] at h
      rwa [← h.2]
  | succ count ih =>
      unfold Recording.addBytes at h
      cases hword : r.wordOf (.source file (UInt64.ofNat offset)) with
      | error e =>
          simp only [hword, Prod.mk.injEq] at h
          rwa [← h.2]
      | ok w =>
          simp only [hword] at h
          exact ih (hr.wordOf hword) h

theorem addHeader (hr : Bounded r) {name : Text} {labelBegin labelEnd : Label} {i : Nat}
    (h : r.addHeader name labelBegin labelEnd = .ok (i, s)) : Bounded s := by
  unfold Recording.addHeader at h
  by_cases hfull : maxFiles ≤ r.headers.size
  · simp [hfull] at h
  · simp only [hfull, if_false, Except.ok.injEq, Prod.mk.injEq] at h
    exact hr.of_words_eq (by rw [← h.2])

theorem addFile (hr : Bounded r) {name : Text} {size : Int} {a : Except RecordingFault Nat}
    (h : r.addFile name size = (a, s)) : Bounded s := by
  unfold Recording.addFile at h
  rcases hbytes : Recording.addBytes (UInt8.ofNat r.headers.size) size.toNat 0 r
    with ⟨_ | e, filled⟩
  · have hfilled : Bounded filled := hr.addBytes hbytes
    simp only [hbytes] at h
    cases hheader : filled.addHeader name r.nextLabel filled.nextLabel with
    | error e =>
        simp only [hheader, Prod.mk.injEq] at h
        rwa [← h.2]
    | ok added =>
        simp only [hheader, Prod.mk.injEq] at h
        rw [← h.2]
        exact hfilled.addHeader hheader
  · simp only [hbytes, Prod.mk.injEq] at h
    rw [← h.2]
    exact hr.addBytes hbytes

end Bounded

theorem words_write (r : Recording) (output : Int) (offset : UInt64) (ls : List Label) :
    (r.write output offset ls).words = r.words := by
  induction ls generalizing r offset with
  | nil => rfl
  | cons l ls ih => exact ih _ _

theorem exists_of_map_snd {α : Type} {x : Except RecordingFault (α × Recording)} {s : Recording}
    (h : x.map Prod.snd = .ok s) : exists a, x = .ok (a, s) := by
  cases x with
  | error e => simp [Except.map] at h
  | ok p =>
      simp only [Except.map, Except.ok.injEq] at h
      exact ⟨p.1, by rw [← h]⟩

theorem bounded_perform {r s : Recording} {op : Operation} (hr : Bounded r)
    (h : r.perform op = .ok s) : Bounded s := by
  cases op with
  | file name size =>
      unfold perform at h
      rcases hfile : r.addFile name size with ⟨e | i, added⟩
      · simp [hfile] at h
      · simp only [hfile, Except.ok.injEq] at h
        rw [← h]
        exact hr.addFile hfile
  | output name =>
      rcases exists_of_map_snd h with ⟨i, hi⟩
      exact hr.addHeader hi
  | sourceLabel file offset =>
      unfold perform at h
      cases hlabel : r.sourceLabel file offset with
      | error e => simp [hlabel, Except.map] at h
      | ok l =>
          simp only [hlabel, Except.map, Except.ok.injEq] at h
          rwa [← h]
  | source file offset =>
      rcases exists_of_map_snd h with ⟨l, hl⟩
      exact hr.addNode hl
  | union left right =>
      rcases exists_of_map_snd h with ⟨l, hl⟩
      exact hr.addUnion hl
  | range first last =>
      rcases exists_of_map_snd h with ⟨l, hl⟩
      exact hr.addRange hl
  | node n =>
      rcases exists_of_map_snd h with ⟨l, hl⟩
      exact hr.addNode hl
  | controlFlow ls => exact hr.markControlFlow h
  | sink output offset l =>
      cases h
      exact hr.of_words_eq rfl
  | taint output offset l =>
      cases h
      exact hr.of_words_eq rfl
  | write output offset ls =>
      cases h
      exact hr.of_words_eq (words_write r output offset ls)

theorem bounded_performAll {r s : Recording} {ops : List Operation} (hr : Bounded r)
    (h : r.performAll ops = .ok s) : Bounded s := by
  induction ops generalizing r with
  | nil =>
      cases h
      exact hr
  | cons op ops ih =>
      unfold performAll at h
      cases hop : r.perform op with
      | error e => simp [hop, Except.bind] at h
      | ok next =>
          simp only [hop, Except.bind] at h
          exact ih (bounded_perform hr hop) h

end Recording
end TaintTrace
