import TaintTrace.Node.Word
import TaintTrace.Trace.Basic

/-!
# The layout of a trace file

A trace file starts with sixteen bytes: the magic bytes, the version, the number
of sections and eight bytes of zeros.  A table follows with one entry for each
section: its tag, the size of its entries, its offset and its size.  All numbers
are little-endian.
-/

namespace TaintTrace
namespace Image

/-!
## Little-endian numbers

The least significant byte comes first.
-/

/-- The low bytes of a number, the least significant first. -/
def littleEndian : (width n : Nat) -> Text
  | 0, _ => []
  | width + 1, n => UInt8.ofNat (n % 256) :: littleEndian width (n / 256)

def number : Text -> Nat
  | [] => 0
  | b :: rest => b.toNat + 256 * number rest

def field (bytes : Text) (offset width : Nat) : Nat :=
  number ((bytes.drop offset).take width)

@[simp] theorem littleEndian_length (width n : Nat) :
    (littleEndian width n).length = width := by
  induction width generalizing n with
  | zero => rfl
  | succ width ih => simp [littleEndian, ih]

theorem number_littleEndian {width n : Nat} (h : n < Nat.pow 256 width) :
    number (littleEndian width n) = n := by
  induction width generalizing n with
  | zero =>
      have hzero : n < 1 := h
      simp only [littleEndian, number]
      omega
  | succ width ih =>
      have hbound : n < Nat.pow 256 width * 256 := h
      have hdiv : n / 256 < Nat.pow 256 width := Nat.div_lt_of_lt_mul (Nat.mul_comm _ _ ▸ hbound)
      have hbyte : (UInt8.ofNat (n % 256)).toNat = n % 256 :=
        UInt8.toNat_ofNat_of_lt (Nat.mod_lt n (by decide))
      simp only [littleEndian, number, ih hdiv, hbyte]
      omega

/-!
## Sections

Each kind of section has a tag, and all kinds but names have entries of one size.
-/

def magic : Text := "TDAG"

def version : Nat := 1

def preambleSize : Nat := 16

def tableEntrySize : Nat := 24

inductive SectionKind where
  | headers
  | names
  | labels
  | sinks
  | taints
  deriving DecidableEq, Repr

namespace SectionKind

def tag : SectionKind -> Nat
  | headers => 1
  | names => 2
  | labels => 3
  | sinks => 4
  | taints => 5

def ofTag? : Nat -> Option SectionKind
  | 1 => some headers
  | 2 => some names
  | 3 => some labels
  | 4 => some sinks
  | 5 => some taints
  | _ => none

/-- The size of an entry; names have no entries of one size. -/
def entrySize : SectionKind -> Nat
  | headers => 24
  | names => 0
  | labels => 8
  | sinks => 16
  | taints => 16

def text : SectionKind -> Text
  | headers => "fd headers"
  | names => "strings"
  | labels => "labels"
  | sinks => "sinks"
  | taints => "output taints"

end SectionKind

def tagText (tag : Nat) : Text :=
  match SectionKind.ofTag? tag with
  | some kind => kind.text
  | none => "unknown"

def requiredEntrySize? (tag : Nat) : Option Nat :=
  match SectionKind.ofTag? tag with
  | some .names => none
  | some kind => some kind.entrySize
  | none => none

structure TableEntry where
  tag : Nat
  entrySize : Nat
  offset : Nat
  size : Nat
  deriving DecidableEq, Repr

namespace TableEntry

def bytes (e : TableEntry) : Text :=
  littleEndian 4 e.tag ++ littleEndian 4 e.entrySize ++ littleEndian 8 e.offset
    ++ littleEndian 8 e.size

def ofBytes (b : Text) : TableEntry :=
  ⟨field b 0 4, field b 4 4, field b 8 8, field b 16 8⟩

def content (e : TableEntry) (file : Text) : Text :=
  (file.drop e.offset).take e.size

end TableEntry

/-!
## Entries of sections

What is written for an entry is read back, as far as the fields have room for it.
-/

/-- A header entry: where the name is, the descriptor, four unused bytes, and the
bounds of the labels. -/
def headerBytes (nameOffset : Nat) (h : Header) : Text :=
  littleEndian 4 nameOffset ++ littleEndian 4 h.name.length
    ++ littleEndian 4 h.fd.toUInt32.toNat ++ littleEndian 4 0
    ++ littleEndian 4 h.labelBegin.toNat ++ littleEndian 4 h.labelEnd.toNat

def headerOfBytes? (names b : Text) : Option Header :=
  let nameOffset := field b 0 4
  let nameLength := field b 4 4
  if names.length < nameOffset + nameLength then none
  else
    some ⟨(names.drop nameOffset).take nameLength, (UInt32.ofNat (field b 8 4)).toInt32,
      UInt32.ofNat (field b 16 4), UInt32.ofNat (field b 20 4)⟩

def sinkBytes (s : Sink) : Text :=
  littleEndian 8 s.offset.toNat ++ littleEndian 4 s.label.toNat
    ++ littleEndian 4 s.output.toNat

def sinkOfBytes (b : Text) : Sink :=
  ⟨UInt32.ofNat (field b 8 4), UInt64.ofNat (field b 0 8), UInt8.ofNat (field b 12 1)⟩

/-- An output taint entry keeps the low 32 bits of the output. -/
def taintBytes (t : OutputTaint) : Text :=
  littleEndian 8 t.offset.toNat ++ littleEndian 4 t.label.toNat
    ++ littleEndian 4 (t.output % 0x100000000).toNat

def taintOfBytes (b : Text) : OutputTaint :=
  ⟨field b 12 4, UInt64.ofNat (field b 0 8), UInt32.ofNat (field b 8 4)⟩

end Image
end TaintTrace
