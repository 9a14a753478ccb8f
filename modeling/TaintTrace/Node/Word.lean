import TaintTrace.Node.Basic

/-!
# Node words

A node is stored in 64 bits.  The top bit says "source" and the next one "affects
control flow".  A source has its file index in the eight bits that follow and its
offset in the low 54.  Otherwise there are two labels of 31 bits: the larger one
first for a union, the first and the last label for a range.  Two equal labels
are a range of one label.
-/

namespace TaintTrace

inductive EncodeError where
  | offsetTooLarge (offset : UInt64)
  | unionTooLarge (left right : Label)
  | emptyRange (first last : Label)
  | rangeTooLarge (first last : Label)
  | noNode
  deriving DecidableEq, Repr

namespace NodeWord

def offsetSpan : Nat := 0x40000000000000

def maxOffset : Nat := offsetSpan - 1

end NodeWord

namespace EncodeError

def message : EncodeError -> Text
  | offsetTooLarge offset =>
      "source offset " ++ Text.ofNat offset.toNat ++ " exceeds maximum "
        ++ Text.ofNat NodeWord.maxOffset
  | unionTooLarge left right =>
      "union(" ++ left.text ++ ", " ++ right.text ++ ") exceeds the maximum label "
        ++ Text.ofNat Label.max
  | emptyRange first last => "range(" ++ first.text ++ ".." ++ last.text ++ ") is empty"
  | rangeTooLarge first last =>
      "range(" ++ first.text ++ ".." ++ last.text ++ ") exceeds the maximum label "
        ++ Text.ofNat Label.max
  | noNode => "cannot encode node of type <nil>"

end EncodeError

namespace NodeWord

def labelSpan : Nat := Label.max + 1

def sourceBit : Nat := 0x8000000000000000

def controlFlowBit : Nat := 0x4000000000000000

def isSource (w : UInt64) : Bool :=
  w.toNat / sourceBit == 1

def controlFlow (w : UInt64) : Bool :=
  w.toNat / controlFlowBit % 2 == 1

def decode (w : UInt64) : Node :=
  let first := UInt32.ofNat (w.toNat / labelSpan % labelSpan)
  let second := UInt32.ofNat (w.toNat % labelSpan)
  let origin : Origin :=
    if isSource w then
      .source (UInt8.ofNat (w.toNat / offsetSpan % 256)) (UInt64.ofNat (w.toNat % offsetSpan))
    else if first > second then .union first second
    else .range first second
  ⟨origin, controlFlow w⟩

def originBits : Origin -> Except EncodeError Nat
  | .source file offset =>
      if maxOffset < offset.toNat then .error (.offsetTooLarge offset)
      else .ok (sourceBit + file.toNat * offsetSpan + offset.toNat)
  | .union left right =>
      if Label.max < left.toNat ∨ Label.max < right.toNat then
        .error (.unionTooLarge left right)
      else
        .ok (Nat.max left.toNat right.toNat * labelSpan + Nat.min left.toNat right.toNat)
  | .range first last =>
      if last < first then .error (.emptyRange first last)
      else if Label.max < last.toNat then .error (.rangeTooLarge first last)
      else .ok (first.toNat * labelSpan + last.toNat)

def encode (n : Node) : Except EncodeError UInt64 :=
  (originBits n.origin).map fun bits =>
    UInt64.ofNat (bits + if n.controlFlow then controlFlowBit else 0)

def markControlFlow (w : UInt64) : UInt64 :=
  if controlFlow w then w else UInt64.ofNat (w.toNat + controlFlowBit)

end NodeWord
end TaintTrace
