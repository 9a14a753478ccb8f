import Mathlib
import TaintTrace.Proofs.Recording
import TaintTrace.Proofs.Writing

/-!
# Writing to a sink that refuses bytes

A sink that takes a limited number of bytes has the beginning of the file and nothing else,
however the writing ends.  The writing succeeds if and only if every label has a word and the
sink takes the whole file.  Otherwise it tells the fault of the first label without a word, and
that the sink refused bytes only where there is no such label.
-/

namespace TaintTrace
namespace Image

variable {t : Trace} {ws ws' : List UInt64} {k : Nat} {o : Output}

/-!
## Files of traces with missing words
-/

/-- Words that make a file of a trace: a label has the word of its node, and any word if its
node has none. -/
structure Fills (t : Trace) (ws : List UInt64) : Prop where
  length : ws.length = t.labelCount - 1
  agrees : forall i w w', ws[i]? = some w -> HasWord t.decode (UInt32.ofNat (1 + i)) w' -> w' = w

theorem exists_fills (t : Trace) : exists ws, Fills t ws := by
  have hwords : forall i, exists w, forall w',
      HasWord t.decode (UInt32.ofNat (1 + i)) w' -> w' = w := by
    intro i
    rcases hasWord_or_lacks t.decode (UInt32.ofNat (1 + i)) with ⟨w, hw⟩ | ⟨e, he⟩
    · exact ⟨w, fun w' hw' => hw'.unique hw⟩
    · exact ⟨0, fun w' hw' => absurd hw' he.not_hasWord⟩
  choose word hword using hwords
  refine ⟨(List.range (t.labelCount - 1)).map word, by simp, ?_⟩
  intro i w w' hw hw'
  rw [List.getElem?_map, Option.map_eq_some_iff] at hw
  rcases hw with ⟨j, hj, rfl⟩
  rw [List.getElem?_eq_some_iff] at hj
  rcases hj with ⟨hi, hj⟩
  rw [List.getElem_range] at hj
  subst hj
  exact hword i w' hw'

theorem Fills.take_eq (h : Fills t ws') (hlength : ws.length ≤ t.labelCount - 1)
    (hws : HasWords t.decode 1 ws) : ws'.take ws.length = ws := by
  rw [← h.length] at hlength
  apply List.ext_getElem?
  intro i
  by_cases hi : i < ws.length
  · rw [List.getElem?_take_of_lt hi, List.getElem?_eq_getElem hi,
      List.getElem?_eq_getElem (hi.trans_le hlength)]
    have hword := hws i _ (List.getElem?_eq_getElem hi)
    rw [h.agrees i _ _ (List.getElem?_eq_getElem (hi.trans_le hlength)) hword]
  · rw [List.getElem?_eq_none (by rw [List.length_take]; omega),
      List.getElem?_eq_none (Nat.not_lt.mp hi)]

theorem Words.eq_of_fills (h : Words t ws) (hfills : Fills t ws') : ws' = ws := by
  have htake := hfills.take_eq h.length.le h.words
  rwa [List.take_of_length_le (by rw [hfills.length, h.length])] at htake

/-!
## The first label without a word
-/

/-- A label of a trace has no word, and all labels before it have one. -/
def FirstLack (t : Trace) (e : WriteError) : Prop :=
  exists i, 0 < i ∧ i < t.labelCount ∧ Lacks t.decode (UInt32.ofNat i) e ∧
    forall j, 0 < j -> j < i -> exists w, HasWord t.decode (UInt32.ofNat j) w

theorem HasWords.exists_hasWord (h : HasWords t.decode 1 ws) {j : Nat} (hpos : 0 < j)
    (hj : j < 1 + ws.length) : exists w, HasWord t.decode (UInt32.ofNat j) w := by
  have hindex : j - 1 < ws.length := by omega
  have hword := h (j - 1) _ (List.getElem?_eq_getElem hindex)
  rw [Nat.add_sub_cancel' hpos] at hword
  exact ⟨_, hword⟩

theorem Words.not_firstLack (h : Words t ws) (e : WriteError) : ¬ FirstLack t e := by
  intro hlack
  rcases hlack with ⟨i, hpos, hi, hlacks, _⟩
  have hlength := h.length
  rcases h.words.exists_hasWord hpos (by omega) with ⟨w, hw⟩
  exact hlacks.not_hasWord hw

theorem FirstLack.unique {e e' : WriteError} (h : FirstLack t e) (h' : FirstLack t e') :
    e = e' := by
  rcases h with ⟨i, hpos, _, hlacks, hbefore⟩
  rcases h' with ⟨i', hpos', _, hlacks', hbefore'⟩
  rcases Nat.lt_trichotomy i i' with hlt | heq | hgt
  · rcases hbefore' i hpos hlt with ⟨w, hw⟩
    exact absurd hw hlacks.not_hasWord
  · subst heq
    exact hlacks.unique hlacks'
  · rcases hbefore i' hpos' hgt with ⟨w, hw⟩
    exact absurd hw hlacks'.not_hasWord

/-!
## How writing ends
-/

/-- The ways in which writing to a sink that takes `k` bytes ends, with the state in which it
leaves the sink. -/
inductive Ends (t : Trace) (k : Nat) : Output × Except WriteError Unit -> Prop
  | complete {o : Output} (ws : List UInt64) (hws : Words t ws)
      (hfits : (fileOf (recordingOf t ws)).length ≤ k)
      (haccepted : o.accepted = fileOf (recordingOf t ws)) : Ends t k (o, .ok ())
  | refused {o : Output} (ws : List UInt64) (hws : Words t ws)
      (hlong : k < (fileOf (recordingOf t ws)).length)
      (haccepted : o.accepted = (fileOf (recordingOf t ws)).take k) :
      Ends t k (o, .error .refused)
  | lacking {o : Output} {e : WriteError} (hlack : FirstLack t e)
      (haccepted : forall ws, Fills t ws -> o.accepted <+: fileOf (recordingOf t ws)) :
      Ends t k (o, .error e)

theorem Words.ends (h : Words t ws) (k : Nat) :
    Ends t k ((writeTo t ⟨some k, [], [], false⟩).run t) := by
  have hgiven := (Output.given_empty (some k)).putAll (writtenParts t ws)
  rw [List.nil_append, flatten_writtenParts h.length] at hgiven
  rw [h.run_writeTo]
  rcases hgiven.flush_cases with ⟨hflush, hfits⟩ | ⟨k', room, pending, hlimit, hlong, hflush⟩
  · rw [hflush]
    exact .complete ws h (hfits k rfl) rfl
  · cases hlimit
    rw [hflush]
    exact .refused ws h hlong rfl

/-- What is written in front of the word that is missing is the beginning of every file that
the trace may have. -/
theorem ends_of_lacks {rest : Nat} {e : WriteError}
    (hcount : t.labelCount - 1 = ws.length + (rest + 1)) (hws : HasWords t.decode 1 ws)
    (he : Lacks t.decode (UInt32.ofNat (1 + ws.length)) e) (k : Nat) :
    Ends t k ((writeTo t ⟨some k, [], [], false⟩).run t) := by
  have hgiven := (Output.given_empty (some k)).putAll
    (partsBeforeWords t ++ ws.map fun w => littleEndian 8 w.toNat)
  -- The buffer is not handed on here, so the sink may have less than it was given.
  rw [run_writeTo_of_lacks hcount hws he]
  refine .lacking ⟨1 + ws.length, by omega, by omega, he, ?_⟩ ?_
  · intro j hpos hj
    exact hws.exists_hasWord hpos hj
  · intro ws' hfills
    have htake := hfills.take_eq (by omega) hws
    have hparts : partsBeforeWords t ++ (ws.map fun w => littleEndian 8 w.toNat) <+:
        writtenParts t ws' := by
      unfold writtenParts
      rw [List.prefix_append_right_inj, ← htake, List.map_take]
      exact (List.take_prefix _ _).trans (List.prefix_append _ _)
    rw [← flatten_writtenParts hfills.length]
    exact hgiven.accepted_isPrefix.trans hparts.flatten

theorem writeTo_ends (t : Trace) (k : Nat) :
    Ends t k ((writeTo t ⟨some k, [], [], false⟩).run t) := by
  rcases hasWords_or_lacks t.decode (t.labelCount - 1) 1 with
    ⟨ws, hlength, hws⟩ | ⟨ws, rest, e, hcount, hws, he⟩
  · exact (Words.mk hlength hws).ends k
  · exact ends_of_lacks hcount hws he k

variable {outcome : Except WriteError Unit}

theorem Ends.accepted_isPrefix (h : Ends t k (o, outcome)) (hfills : Fills t ws) :
    o.accepted <+: fileOf (recordingOf t ws) := by
  cases h with
  | complete ws' hws _ haccepted =>
      rw [haccepted, hws.eq_of_fills hfills]
  | refused ws' hws _ haccepted =>
      rw [haccepted, hws.eq_of_fills hfills]
      exact List.take_prefix k _
  | lacking _ haccepted => exact haccepted ws hfills

theorem Words.fills (h : Words t ws) : Fills t ws := by
  refine ⟨h.length, ?_⟩
  intro i w w' hw hword
  exact hword.unique (h.words i w hw)

theorem Ends.ok_iff (h : Ends t k (o, outcome)) :
    outcome = .ok () <-> exists ws, Words t ws ∧ (fileOf (recordingOf t ws)).length ≤ k := by
  cases h with
  | complete ws hws hfits => exact iff_of_true rfl ⟨ws, hws, hfits⟩
  | refused ws hws hlong =>
      refine iff_of_false (fun hok => nomatch hok) ?_
      intro hfits
      rcases hfits with ⟨ws', hws', hfits⟩
      rw [hws.eq_of_fills hws'.fills] at hfits
      omega
  | lacking hlack =>
      refine iff_of_false (fun hok => nomatch hok) ?_
      intro hwords
      rcases hwords with ⟨ws, hws, _⟩
      exact hws.not_firstLack _ hlack

theorem Ends.error_iff (h : Ends t k (o, outcome)) (e : WriteError) :
    outcome = .error e <-> FirstLack t e ∨
      (e = .refused ∧ exists ws, Words t ws ∧ k < (fileOf (recordingOf t ws)).length) := by
  cases h with
  | complete ws hws hfits =>
      refine iff_of_false (fun herror => nomatch herror) ?_
      intro hfault
      rcases hfault with hlack | ⟨_, ws', hws', hlong⟩
      · exact hws.not_firstLack e hlack
      · rw [hws.eq_of_fills hws'.fills] at hlong
        omega
  | refused ws hws hlong =>
      constructor
      · intro herror
        cases herror
        exact Or.inr ⟨rfl, ws, hws, hlong⟩
      · intro hfault
        rcases hfault with hlack | ⟨rfl, _⟩
        · exact absurd hlack (hws.not_firstLack e)
        · rfl
  | lacking hlack =>
      constructor
      · intro herror
        cases herror
        exact Or.inl hlack
      · intro hfault
        rcases hfault with hlack' | ⟨_, ws, hws, _⟩
        · rw [hlack.unique hlack']
        · exact absurd hlack (hws.not_firstLack _)

theorem Ends.accepted_eq (h : Ends t k (o, .ok ())) (hws : Words t ws) :
    o.accepted = fileOf (recordingOf t ws) := by
  cases h with
  | complete ws' hws' _ haccepted => rw [haccepted, hws.eq_of_fills hws'.fills]

/-!
## Stored traces
-/

/-- The traces that are recorded or read from a file, with or without labels that cannot be
looked up. -/
inductive Stored : Trace -> Prop
  | recorded (r : Recording) : Stored r.trace
  | without {t : Trace} (labels : List Label) (h : Stored t) : Stored (t.without labels)

theorem Stored.exists_word (h : Stored t) {l : Label} {n : Node} (hn : t.decode l = .ok n) :
    exists w, NodeWord.decode w = n := by
  induction h with
  | recorded r =>
      rcases Option.map_eq_some_iff.mp (Recording.decode_eq_ok_iff.mp hn).2 with ⟨w, _, hw⟩
      exact ⟨w, hw⟩
  | without labels _ ih =>
      unfold Trace.without at hn
      dsimp only at hn
      split at hn
      · cases hn
      · exact ih hn

theorem Stored.hasWord (h : Stored t) {l : Label} {n : Node} (hn : t.decode l = .ok n) :
    exists w, HasWord t.decode l w := by
  rcases h.exists_word hn with ⟨w, rfl⟩
  exact ⟨w, _, hn, NodeWord.encode_decode w⟩

/-- A sink that takes `k` bytes and then fails is left with the beginning of the file of a
trace, whatever the words of labels that have none.  Writing succeeds if and only if every label
has a node and its node a word, and the file has at most `k` bytes; the sink then has the whole
file.  Otherwise the fault is that of the first label without node or word, and if there is none
that of the sink.  In a stored trace, where every node has a word, it is the fault of the first
label without node, or else that of the sink. -/
theorem writeTo_limited (t : Trace) (k : Nat) :
    exists o outcome, (writeTo t ⟨some k, [], [], false⟩).run t = (o, outcome) ∧
      (exists ws, Fills t ws) ∧
      (forall ws, Fills t ws -> o.accepted <+: fileOf (recordingOf t ws)) ∧
      (outcome = .ok () <->
        exists ws, Words t ws ∧ (fileOf (recordingOf t ws)).length ≤ k) ∧
      (outcome = .ok () -> forall ws, Words t ws -> o.accepted = fileOf (recordingOf t ws)) ∧
      (forall e, outcome = .error e <-> FirstLack t e ∨
        (e = .refused ∧ exists ws, Words t ws ∧ k < (fileOf (recordingOf t ws)).length)) ∧
      (Stored t ->
        (forall i e, 0 < i -> i < t.labelCount -> t.decode (UInt32.ofNat i) = .error e ->
          (forall j, 0 < j -> j < i -> exists n, t.decode (UInt32.ofNat j) = .ok n) ->
          outcome = .error (.undecodable e)) ∧
        ((forall i, 0 < i -> i < t.labelCount -> exists n, t.decode (UInt32.ofNat i) = .ok n) ->
          outcome ≠ .ok () -> outcome = .error .refused)) := by
  have hends := writeTo_ends t k
  rcases hrun : (writeTo t ⟨some k, [], [], false⟩).run t with ⟨o, outcome⟩
  rw [hrun] at hends
  refine ⟨o, outcome, rfl, exists_fills t, fun ws hfills => hends.accepted_isPrefix hfills,
    hends.ok_iff, ?_, hends.error_iff, ?_⟩
  · intro hok ws hws
    subst hok
    exact hends.accepted_eq hws
  · intro hstored
    constructor
    · intro i e hpos hi hnone hbefore
      refine (hends.error_iff _).mpr (Or.inl ⟨i, hpos, hi, .undecodable hnone, ?_⟩)
      intro j hjpos hj
      rcases hbefore j hjpos hj with ⟨n, hn⟩
      exact hstored.hasWord hn
    · intro hall hfails
      cases outcome with
      | ok _ => exact absurd rfl hfails
      | error e =>
          rcases (hends.error_iff e).mp rfl with ⟨i, hpos, hi, hlacks, _⟩ | ⟨rfl, _⟩
          · rcases hall i hpos hi with ⟨n, hn⟩
            rcases hstored.hasWord hn with ⟨w, hw⟩
            exact absurd hw hlacks.not_hasWord
          · rfl

def pair : Recording where
  headers := #[⟨"in", 3, 1, 3⟩]
  words := #[0, 0x8000000000000000, 0x8000000000000001]
  sinks := #[]
  taints := #[]

theorem writeTo_limited_pair :
    Stored (pair.trace.without [2]) ∧ Stored pair.trace ∧
    (exists o, (writeTo (pair.trace.without [2]) ⟨some 10, [], [], false⟩).run
      (pair.trace.without [2]) = (o, .error (.undecodable ⟨2, 0⟩))) ∧
    exists o, (writeTo pair.trace ⟨some 10, [], [], false⟩).run pair.trace =
      (o, .error .refused) := by
  have hwithout : Stored (pair.trace.without [2]) := .without [2] (.recorded pair)
  have hall : Stored pair.trace := .recorded pair
  refine ⟨hwithout, hall, ?_, ?_⟩
  · rcases writeTo_limited (pair.trace.without [2]) 10 with
      ⟨o, outcome, hrun, _, _, _, _, _, hstored⟩
    have hbefore : forall j, 0 < j -> j < 2 ->
        exists n, (pair.trace.without [2]).decode (UInt32.ofNat j) = .ok n := by
      intro j hpos hlt
      have hone : j = 1 := by omega
      subst hone
      exact ⟨_, rfl⟩
    have hfault := (hstored hwithout).1 2 ⟨2, 0⟩ (by decide) (by decide) rfl hbefore
    exact ⟨o, by rw [hrun, hfault]⟩
  · rcases writeTo_limited pair.trace 10 with ⟨o, outcome, hrun, _, _, _, _, _, hstored⟩
    have hnodes : forall i, 0 < i -> i < pair.trace.labelCount ->
        exists n, pair.trace.decode (UInt32.ofNat i) = .ok n := by
      intro i hpos hlt
      change i < 3 at hlt
      interval_cases i
      · exact ⟨_, rfl⟩
      · exact ⟨_, rfl⟩
    have hfails : outcome ≠ .ok () := by
      have hsecond : ((writeTo pair.trace ⟨some 10, [], [], false⟩).run pair.trace).2 =
          .error .refused := by decide +kernel
      rw [hrun] at hsecond
      intro hok
      rw [hok] at hsecond
      cases hsecond
    exact ⟨o, by rw [hrun, (hstored hall).2 hnodes hfails]⟩

/-- A label whose node refers to a label that no word has room for. -/
def oversized : Trace where
  headers := []
  labelCount := 2
  sinks := []
  taints := []
  decode := fun _ => .ok ⟨.union 0x80000000 1, false⟩

/-- The fault of a label without word is neither that of a label without node nor that of the
sink, and of two labels without nodes only the first one is told. -/
theorem writeTo_tells_first_fault :
    (forall l, exists n, oversized.decode l = .ok n) ∧
    (exists cause, ((writeTo oversized ⟨some 0, [], [], false⟩).run oversized).2 =
      .error (.unencodable 1 cause)) ∧
    (pair.trace.without [1, 2]).decode 2 = .error ⟨2, 0⟩ ∧
    ((writeTo (pair.trace.without [1, 2]) ⟨some 0, [], [], false⟩).run
      (pair.trace.without [1, 2])).2 = .error (.undecodable ⟨1, 0⟩) :=
  ⟨fun _ => ⟨_, rfl⟩, ⟨_, rfl⟩, rfl, rfl⟩

end Image
end TaintTrace
