import TaintTrace.Text.Basic

/-!
# UTF-8

A text is cut into the characters it encodes and the bytes that belong to none.
Surrogates, overlong forms and code points beyond the last one are no characters,
so each of their bytes stands alone.
-/

namespace TaintTrace
namespace Text

/-- A character of a text, or a byte that belongs to none. -/
inductive Piece where
  | char (c : Char)
  | stray (b : UInt8)
  deriving DecidableEq, Repr

def between (low high b : UInt8) : Bool :=
  low ≤ b && b ≤ high

def continues (b : UInt8) : Bool :=
  between 0x80 0xbf b

def payload (b : UInt8) : Nat :=
  b.toNat % 64

def firstPiece (b : UInt8) (rest : Text) : Piece × Nat :=
  if b < 0x80 then (.char (Char.ofNat b.toNat), 0)
  else
    match rest with
    | c :: rest =>
        if 0xc2 ≤ b ∧ b ≤ 0xdf then
          if continues c then
            (.char (Char.ofNat (b.toNat % 32 * 64 + payload c)), 1)
          else (.stray b, 0)
        else
          match rest with
          | d :: rest =>
              if 0xe0 ≤ b ∧ b ≤ 0xef then
                let low := if b = 0xe0 then 0xa0 else 0x80
                let high := if b = 0xed then 0x9f else 0xbf
                if between low high c && continues d then
                  (.char (Char.ofNat (b.toNat % 16 * 4096 + payload c * 64 + payload d)), 2)
                else (.stray b, 0)
              else
                match rest with
                | e :: _ =>
                    let low := if b = 0xf0 then 0x90 else 0x80
                    let high := if b = 0xf4 then 0x8f else 0xbf
                    if 0xf0 ≤ b ∧ b ≤ 0xf4 ∧ between low high c
                        ∧ continues d ∧ continues e then
                      (.char (Char.ofNat
                        (b.toNat % 8 * 262144 + payload c * 4096 + payload d * 64 + payload e)), 3)
                    else (.stray b, 0)
                | [] => (.stray b, 0)
          | [] => (.stray b, 0)
    | [] => (.stray b, 0)

def piecesAfter : (skip : Nat) -> Text -> List Piece
  | _, [] => []
  | skip + 1, _ :: rest => piecesAfter skip rest
  | 0, b :: rest =>
      let (piece, more) := firstPiece b rest
      piece :: piecesAfter more rest

def pieces (t : Text) : List Piece :=
  piecesAfter 0 t

def ofChar (c : Char) : Text :=
  String.utf8EncodeChar c

def ofChars (cs : List Char) : Text :=
  cs.flatMap ofChar

/-- The character that stands for bytes that belong to none. -/
def replacement : Char := '�'

/-- The character of a piece, where a stray byte becomes the replacement
character. -/
def Piece.toChar : Piece -> Char
  | char c => c
  | stray _ => replacement

/-- The characters of a text, where stray bytes become replacement characters. -/
def chars (t : Text) : List Char :=
  t.pieces.map Piece.toChar

def isUtf8 (t : Text) : Bool :=
  t.pieces.all fun
    | .char _ => true
    | .stray _ => false

end Text
end TaintTrace
