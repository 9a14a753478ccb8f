import Mathlib
import TaintTrace.Node.Word
import TaintTrace.Proofs.Node

/-!
# Nodes and their words

Every word is the word of the node that it stores, so no word is lost by decoding
it.  A source splits its word at the bit of the file index, every other node at the
bit of the first label, and the two flags are what remains on top.
-/

namespace TaintTrace
namespace NodeWord

theorem ofNat_flags (w : UInt64) :
    UInt64.ofNat ((if isSource w then sourceBit else 0) + w.toNat % controlFlowBit
      + (if controlFlow w then controlFlowBit else 0)) = w := by
  have hw : w.toNat < 18446744073709551616 := w.toNat_lt
  have hsum : (if isSource w then sourceBit else 0) + w.toNat % controlFlowBit
      + (if controlFlow w then controlFlowBit else 0) = w.toNat := by
    by_cases hs : w.toNat / sourceBit = 1 <;>
      by_cases hc : w.toNat / controlFlowBit % 2 = 1 <;>
      · simp only [isSource, controlFlow, hs, hc, beq_self_eq_true, beq_iff_eq, if_true, if_false]
        simp only [sourceBit, controlFlowBit] at hs hc ⊢
        omega
  rw [hsum, UInt64.ofNat_toNat]

theorem toNat_labelField (n : Nat) :
    (UInt32.ofNat (n % labelSpan)).toNat = n % labelSpan ∧ n % labelSpan ≤ Label.max := by
  have hlt : n % labelSpan < labelSpan := Nat.mod_lt n (by decide)
  simp only [labelSpan, Label.max] at hlt ⊢
  exact ⟨UInt32.toNat_ofNat_of_lt' (by simp only [UInt32.size]; omega), by omega⟩

theorem originBits_labels (n : Nat) :
    originBits
        (if UInt32.ofNat (n / labelSpan % labelSpan) > UInt32.ofNat (n % labelSpan) then
          .union (UInt32.ofNat (n / labelSpan % labelSpan)) (UInt32.ofNat (n % labelSpan))
        else .range (UInt32.ofNat (n / labelSpan % labelSpan)) (UInt32.ofNat (n % labelSpan)))
      = .ok (n % controlFlowBit) := by
  rcases toNat_labelField (n / labelSpan) with ⟨hfirst, hfirstMax⟩
  rcases toNat_labelField n with ⟨hsecond, hsecondMax⟩
  have hjoin : n / labelSpan % labelSpan * labelSpan + n % labelSpan = n % controlFlowBit := by
    simp only [labelSpan, Label.max, controlFlowBit]
    omega
  split
  · rename_i horder
    have hlt : n % labelSpan < n / labelSpan % labelSpan := by
      have h := UInt32.lt_iff_toNat_lt.1 horder
      rwa [hfirst, hsecond] at h
    have hmax : Nat.max (n / labelSpan % labelSpan) (n % labelSpan) = n / labelSpan % labelSpan :=
      Nat.max_eq_left hlt.le
    have hmin : Nat.min (n / labelSpan % labelSpan) (n % labelSpan) = n % labelSpan :=
      Nat.min_eq_right hlt.le
    simp only [originBits, hfirst, hsecond, Nat.not_lt.2 hfirstMax, Nat.not_lt.2 hsecondMax,
      or_self, if_false, hmax, hmin, hjoin]
  · rename_i horder
    simp only [originBits, horder, hfirst, hsecond, Nat.not_lt.2 hsecondMax, if_false, hjoin]

theorem originBits_source (n : Nat) :
    originBits (.source (UInt8.ofNat (n / offsetSpan % 256)) (UInt64.ofNat (n % offsetSpan)))
      = .ok (sourceBit + n % controlFlowBit) := by
  have hlt : n % offsetSpan < offsetSpan := Nat.mod_lt n (by decide)
  have hfile : (UInt8.ofNat (n / offsetSpan % 256)).toNat = n / offsetSpan % 256 := by
    rw [UInt8.toNat_ofNat']
    omega
  have hoffset : (UInt64.ofNat (n % offsetSpan)).toNat = n % offsetSpan := by
    simp only [offsetSpan] at hlt ⊢
    exact UInt64.toNat_ofNat_of_lt' (by simp only [UInt64.size]; omega)
  have hfits : ¬ maxOffset < n % offsetSpan := by
    simp only [maxOffset, offsetSpan] at hlt ⊢
    omega
  have hjoin : sourceBit + n / offsetSpan % 256 * offsetSpan + n % offsetSpan
      = sourceBit + n % controlFlowBit := by
    simp only [offsetSpan, controlFlowBit]
    omega
  simp only [originBits, hfile, hoffset, hfits, if_false, hjoin]

theorem originBits_decode (w : UInt64) :
    originBits (decode w).origin =
      .ok ((if isSource w then sourceBit else 0) + w.toNat % controlFlowBit) := by
  unfold decode
  cases hs : isSource w with
  | true => exact originBits_source w.toNat
  | false =>
      have hlabels := originBits_labels w.toNat
      simpa using hlabels

@[simp]
theorem encode_decode (w : UInt64) : encode (decode w) = .ok w := by
  have hflag : (decode w).controlFlow = controlFlow w := rfl
  unfold encode
  rw [originBits_decode, hflag]
  exact congrArg Except.ok (ofNat_flags w)

/-!
## Words of nodes

A word is made by adding its flags to the 62 bits below them, so what is below can be read
back without looking at the flags.
-/

def lowOrigin (source : Bool) (low : Nat) : Origin :=
  if source then .source (UInt8.ofNat (low / offsetSpan)) (UInt64.ofNat (low % offsetSpan))
  else if UInt32.ofNat (low / labelSpan) > UInt32.ofNat (low % labelSpan) then
    .union (UInt32.ofNat (low / labelSpan)) (UInt32.ofNat (low % labelSpan))
  else .range (UInt32.ofNat (low / labelSpan)) (UInt32.ofNat (low % labelSpan))

theorem decode_eq (w : UInt64) :
    decode w = ⟨lowOrigin (isSource w) (w.toNat % controlFlowBit), controlFlow w⟩ := by
  have hfile : w.toNat / offsetSpan % 256 = w.toNat % controlFlowBit / offsetSpan := by
    simp only [offsetSpan, controlFlowBit]
    omega
  have hoffset : w.toNat % offsetSpan = w.toNat % controlFlowBit % offsetSpan := by
    simp only [offsetSpan, controlFlowBit]
    omega
  have hfirst : w.toNat / labelSpan % labelSpan = w.toNat % controlFlowBit / labelSpan := by
    simp only [labelSpan, Label.max, controlFlowBit]
    omega
  have hsecond : w.toNat % labelSpan = w.toNat % controlFlowBit % labelSpan := by
    simp only [labelSpan, Label.max, controlFlowBit]
    omega
  unfold decode lowOrigin
  rw [hfile, hoffset, hfirst, hsecond]

/-- A number whose control-flow bit is clear keeps its other bits when the bit is set. -/
theorem flags_ofNat {n : Nat} (affects : Bool) (hn : n < 2 * sourceBit)
    (hclear : n % sourceBit < controlFlowBit) :
    isSource (UInt64.ofNat (n + if affects then controlFlowBit else 0)) = (n / sourceBit == 1) ∧
      controlFlow (UInt64.ofNat (n + if affects then controlFlowBit else 0)) = affects ∧
      (UInt64.ofNat (n + if affects then controlFlowBit else 0)).toNat % controlFlowBit =
        n % controlFlowBit := by
  simp only [sourceBit, controlFlowBit] at hn hclear
  unfold isSource controlFlow
  rw [UInt64.toNat_ofNat_of_lt' (by
    change _ < 18446744073709551616
    simp only [controlFlowBit]
    split <;> omega)]
  cases affects with
  | true =>
      have hflag : (n + controlFlowBit) / controlFlowBit % 2 = 1 := by
        simp only [controlFlowBit]
        omega
      have htop : (n + controlFlowBit) / sourceBit = n / sourceBit := by
        simp only [controlFlowBit, sourceBit]
        omega
      simp [hflag, htop]
  | false =>
      have hflag : n / controlFlowBit % 2 = 0 := by
        simp only [controlFlowBit]
        omega
      simp [hflag]

theorem decode_markControlFlow (w : UInt64) :
    decode (markControlFlow w) = ⟨(decode w).origin, true⟩ := by
  unfold markControlFlow
  cases hflag : controlFlow w with
  | true =>
      rw [if_pos rfl, decode_eq, hflag]
  | false =>
      have hw : w.toNat < 18446744073709551616 := w.toNat_lt
      have hclear : w.toNat % sourceBit < controlFlowBit := by
        simp only [controlFlow, beq_eq_false_iff_ne] at hflag
        simp only [sourceBit, controlFlowBit] at hflag ⊢
        omega
      rcases flags_ofNat true (by unfold sourceBit; omega) hclear with ⟨hsource, hset, hlow⟩
      rw [if_pos rfl] at hsource hset hlow
      rw [if_neg (by simp), decode_eq, decode_eq w, hsource, hset, hlow]
      rfl

/-- The origin that comes back from a word: a union has its larger label first, and that of
a label with itself is a range. -/
def stored : Origin -> Origin
  | .union left right =>
      if left = right then .range left left
      else if right < left then .union left right
      else .union right left
  | origin => origin

/-- A number that leaves the control-flow bit clear and holds an origin. -/
structure Holds (n : Nat) (origin : Origin) : Prop where
  lt : n < 2 * sourceBit
  clear : n % sourceBit < controlFlowBit
  origin : lowOrigin (n / sourceBit == 1) (n % controlFlowBit) = origin

theorem holds_labels {first second : Label} (hfirst : first.toNat ≤ Label.max)
    (hsecond : second.toNat ≤ Label.max) :
    Holds (first.toNat * labelSpan + second.toNat)
      (if first > second then .union first second else .range first second) := by
  have hlt : first.toNat * labelSpan + second.toNat < controlFlowBit := by
    simp only [labelSpan, Label.max, controlFlowBit] at hfirst hsecond ⊢
    omega
  have hbits : controlFlowBit < sourceBit := by decide
  have hleft : (first.toNat * labelSpan + second.toNat) / labelSpan = first.toNat := by
    simp only [labelSpan, Label.max] at hsecond ⊢
    omega
  have hright : (first.toNat * labelSpan + second.toNat) % labelSpan = second.toNat := by
    simp only [labelSpan, Label.max] at hsecond ⊢
    omega
  refine ⟨by omega, (Nat.mod_le _ _).trans_lt hlt, ?_⟩
  rw [Nat.div_eq_of_lt (hlt.trans hbits), Nat.mod_eq_of_lt hlt]
  unfold lowOrigin
  rw [hleft, hright, UInt32.ofNat_toNat, UInt32.ofNat_toNat]
  rfl

theorem holds_source {file : UInt8} {offset : UInt64} (hoffset : offset.toNat ≤ maxOffset) :
    Holds (sourceBit + file.toNat * offsetSpan + offset.toNat) (.source file offset) := by
  have hfile := file.toNat_lt
  have hlt : file.toNat * offsetSpan + offset.toNat < controlFlowBit := by
    simp only [offsetSpan, maxOffset, controlFlowBit] at hoffset ⊢
    omega
  have hbits : controlFlowBit + controlFlowBit = sourceBit := by decide
  have hlow : (sourceBit + file.toNat * offsetSpan + offset.toNat) % controlFlowBit =
      file.toNat * offsetSpan + offset.toNat := by
    simp only [sourceBit, controlFlowBit, offsetSpan] at hlt ⊢
    omega
  have hleft : (file.toNat * offsetSpan + offset.toNat) / offsetSpan = file.toNat := by
    simp only [maxOffset, offsetSpan] at hoffset ⊢
    omega
  have hright : (file.toNat * offsetSpan + offset.toNat) % offsetSpan = offset.toNat := by
    simp only [maxOffset, offsetSpan] at hoffset ⊢
    omega
  have htop : (sourceBit + file.toNat * offsetSpan + offset.toNat) / sourceBit = 1 := by
    simp only [sourceBit, controlFlowBit, offsetSpan] at hlt ⊢
    omega
  refine ⟨by omega, ?_, ?_⟩
  · rw [Nat.add_assoc, Nat.add_mod_left]
    exact (Nat.mod_le _ _).trans_lt hlt
  · rw [htop, hlow]
    unfold lowOrigin
    rw [hleft, hright, UInt8.ofNat_toNat, UInt64.ofNat_toNat]
    rfl

theorem holds_originBits {origin : Origin} {n : Nat} (h : originBits origin = .ok n) :
    Holds n (stored origin) := by
  cases origin with
  | source file offset =>
      rw [originBits] at h
      split at h
      · cases h
      · rename_i hoffset
        cases h
        exact holds_source (Nat.not_lt.mp hoffset)
  | union left right =>
      rw [originBits] at h
      split at h
      · cases h
      · rename_i hlabels
        rw [not_or, Nat.not_lt, Nat.not_lt] at hlabels
        cases h
        rw [stored]
        -- The larger label goes first, and two equal ones are held as a range.
        rcases Nat.lt_trichotomy left.toNat right.toNat with hlt | heq | hlt
        · have hheld := holds_labels hlabels.2 hlabels.1
          have hmax : Nat.max left.toNat right.toNat = right.toNat := Nat.max_eq_right hlt.le
          have hmin : Nat.min left.toNat right.toNat = left.toNat := Nat.min_eq_left hlt.le
          rw [if_pos (UInt32.lt_iff_toNat_lt.mpr hlt)] at hheld
          rw [hmax, hmin, if_neg (by rw [← UInt32.toNat_inj]; omega),
            if_neg (by rw [UInt32.lt_iff_toNat_lt]; omega)]
          exact hheld
        · have hsame : left = right := UInt32.toNat_inj.mp heq
          subst hsame
          have hheld := holds_labels hlabels.1 hlabels.1
          have hmax : Nat.max left.toNat left.toNat = left.toNat := Nat.max_self _
          have hmin : Nat.min left.toNat left.toNat = left.toNat := Nat.min_self _
          rw [if_neg (UInt32.lt_irrefl left)] at hheld
          rw [hmax, hmin, if_pos rfl]
          exact hheld
        · have hheld := holds_labels hlabels.1 hlabels.2
          have hmax : Nat.max left.toNat right.toNat = left.toNat := Nat.max_eq_left hlt.le
          have hmin : Nat.min left.toNat right.toNat = right.toNat := Nat.min_eq_right hlt.le
          rw [if_pos (UInt32.lt_iff_toNat_lt.mpr hlt)] at hheld
          rw [hmax, hmin, if_neg (by rw [← UInt32.toNat_inj]; omega),
            if_pos (UInt32.lt_iff_toNat_lt.mpr hlt)]
          exact hheld
  | range first last =>
      rw [originBits] at h
      split at h
      · cases h
      · rename_i horder
        split at h
        · cases h
        · rename_i hlast
          cases h
          have hle : first.toNat ≤ last.toNat := by
            rw [UInt32.lt_iff_toNat_lt] at horder
            omega
          have hheld := holds_labels (hle.trans (Nat.not_lt.mp hlast)) (Nat.not_lt.mp hlast)
          rwa [if_neg horder] at hheld

theorem decode_encode {n : Node} {w : UInt64} (h : encode n = .ok w) :
    decode w = ⟨stored n.origin, n.controlFlow⟩ := by
  unfold encode at h
  cases hbits : originBits n.origin with
  | error e =>
      rw [hbits] at h
      cases h
  | ok bits =>
      rw [hbits] at h
      cases h
      have hheld := holds_originBits hbits
      rcases flags_ofNat n.controlFlow hheld.lt hheld.clear with ⟨hsource, hflag, hlow⟩
      rw [decode_eq, hsource, hflag, hlow, hheld.origin]

theorem mem_children_stored_iff (origin : Origin) (affects : Bool) (c : Label) :
    c ∈ Node.children ⟨stored origin, affects⟩ <-> c ∈ Node.children ⟨origin, affects⟩ := by
  cases origin with
  | source file offset => rfl
  | range first last => rfl
  | union left right =>
      rw [stored, Node.children_union]
      split
      · rename_i hsame
        subst hsame
        rw [Node.mem_children_range, ← Nat.le_antisymm_iff, UInt32.toNat_inj]
        simp [eq_comm]
      · split
        · rw [Node.children_union]
        · rw [Node.children_union]
          simp [or_comm]

/-!
## Storable nodes
-/

/-- The origins that fit below the flags: an offset has 54 bits and a label 31, and a range
is not empty. -/
def Storable : Origin -> Prop
  | .source _ offset => offset.toNat ≤ 2 ^ 54 - 1
  | .union left right => left.toNat ≤ 2 ^ 31 - 1 ∧ right.toNat ≤ 2 ^ 31 - 1
  | .range first last => first ≤ last ∧ last.toNat ≤ 2 ^ 31 - 1

theorem exists_ok_guard {ε α : Type} {p : Prop} [Decidable p] {e : ε} {r : Except ε α} :
    (exists a, (if p then .error e else r) = .ok a) <-> ¬ p ∧ exists a, r = .ok a := by
  by_cases hp : p
  · simp [hp]
  · simp [hp]

theorem exists_originBits_iff (origin : Origin) :
    (exists bits, originBits origin = .ok bits) <-> Storable origin := by
  have hlabel : Label.max = 2 ^ 31 - 1 := by decide
  have hoffset : maxOffset = 2 ^ 54 - 1 := by decide
  cases origin with
  | source file offset =>
      rw [originBits, Storable, exists_ok_guard, hoffset, Nat.not_lt]
      exact and_iff_left ⟨_, rfl⟩
  | union left right =>
      rw [originBits, Storable, exists_ok_guard, hlabel, not_or, Nat.not_lt, Nat.not_lt]
      exact and_iff_left ⟨_, rfl⟩
  | range first last =>
      rw [originBits, Storable, exists_ok_guard, exists_ok_guard, hlabel, UInt32.not_lt,
        Nat.not_lt]
      exact and_congr_right' (and_iff_left ⟨_, rfl⟩)

theorem exists_encode_iff (n : Node) :
    (exists w, encode n = .ok w) <-> Storable n.origin := by
  rw [← exists_originBits_iff, encode]
  cases originBits n.origin with
  | error e => simp [Except.map]
  | ok bits => simp [Except.map]

/-- Words and storable nodes correspond.  Every word is the word of its node.  A node has a
word exactly if it is storable, and then the word has the node again, but for a union whose
larger label is not the first: two different labels change places, and two equal ones are a
range.  The flag and the labels that the node refers to are always kept. -/
theorem words_store_nodes :
    (forall w, encode (decode w) = .ok w) ∧
    forall n : Node, ((exists w, encode n = .ok w) <-> Storable n.origin) ∧
      forall w, encode n = .ok w ->
        decode w = ⟨stored n.origin, n.controlFlow⟩ ∧
        forall l, l ∈ (decode w).children <-> l ∈ n.children := by
  refine ⟨encode_decode, ?_⟩
  intro n
  refine ⟨exists_encode_iff n, ?_⟩
  intro w hw
  have hback := decode_encode hw
  refine ⟨hback, ?_⟩
  intro l
  rw [hback]
  exact mem_children_stored_iff n.origin n.controlFlow l

/-- The union of label zero and the largest label comes back with its labels swapped. -/
theorem words_store_nodes_widest :
    encode ⟨.union 0 0x7fffffff, true⟩ = .ok 0x7fffffff80000000 ∧
      decode 0x7fffffff80000000 = ⟨.union 0x7fffffff 0, true⟩ ∧
      forall l, l ∈ (decode 0x7fffffff80000000).children <->
        l ∈ Node.children ⟨.union 0 0x7fffffff, true⟩ := by
  have hword : encode ⟨.union 0 0x7fffffff, true⟩ = .ok 0x7fffffff80000000 := by decide
  rcases (words_store_nodes.2 ⟨.union 0 0x7fffffff, true⟩).2 _ hword with ⟨hnode, hchildren⟩
  exact ⟨hword, hnode, hchildren⟩

end NodeWord
end TaintTrace
