import TaintTrace.Graph.Taint
import TaintTrace.Text.Quoted
import TaintTrace.Unicode.Folding

/-!
# Drawing taint graphs

A taint graph as a text in the DOT language: its nodes by increasing label, then its
edges by source and target.
-/

namespace TaintTrace
namespace Dot

/-!
## Identifiers

An identifier, a numeral, a quoted text and a text between angle brackets stand for
themselves, unless they are keywords; all other texts are quoted.
-/

def keywords : List String :=
  ["node", "edge", "graph", "digraph", "subgraph", "strict"]

def isKeyword (t : Text) : Bool :=
  let folded := t.chars.map fun c => Unicode.fold c.toNat
  t.isUtf8 && keywords.any fun k => (k.toList.map Char.toNat) == folded

def startsIdentifier (p : Text.Piece) : Bool :=
  match p with
  | .char c => c.isAlpha || c == '_' || (0x80 ≤ c.toNat && c.toNat ≤ 0xff)
  | .stray _ => false

def continuesIdentifier (p : Text.Piece) : Bool :=
  startsIdentifier p ||
    match p with
    | .char c => c.isDigit
    | .stray _ => false

def isIdentifier (t : Text) : Bool :=
  match t.pieces with
  | [] => false
  | p :: ps => startsIdentifier p && ps.all continuesIdentifier

/-- Whether a text is a number, with an optional sign and an optional fraction. -/
def isNumeral (t : Text) : Bool :=
  let isDigit (b : UInt8) : Bool := 0x30 ≤ b && b ≤ 0x39
  let unsigned := if t.head? = some (Text.byte '-') then t.drop 1 else t
  let whole := unsigned.takeWhile isDigit
  match unsigned.drop whole.length with
  | [] => !whole.isEmpty
  | dot :: fraction =>
      dot == Text.byte '.' && fraction.all isDigit && !(whole.isEmpty && fraction.isEmpty)

/-- The number of hexadecimal digits at the start of a text, after another number. -/
def hexNumber? : (count : Nat) -> Nat -> Text -> Option (Nat × Text)
  | 0, n, rest => some (n, rest)
  | _ + 1, _, [] => none
  | count + 1, n, b :: rest =>
      let value? : Option Nat :=
        if 0x30 ≤ b ∧ b ≤ 0x39 then some (b.toNat - 0x30)
        else if 0x61 ≤ b ∧ b ≤ 0x66 then some (b.toNat - 0x57)
        else if 0x41 ≤ b ∧ b ≤ 0x46 then some (b.toNat - 0x37)
        else none
      match value? with
      | some d => hexNumber? count (n * 16 + d) rest
      | none => none

def afterEscape? : Text -> Option Text
  | [] => none
  | b :: rest =>
      if b ∈ "abfnrtv\\\"".toList.map Text.byte then some rest
      else if b = Text.byte 'x' then (hexNumber? 2 0 rest).map Prod.snd
      else if b = Text.byte 'u' ∨ b = Text.byte 'U' then
        match hexNumber? (if b = Text.byte 'u' then 4 else 8) 0 rest with
        | some (n, rest) => if n.isValidChar then some rest else none
        | none => none
      else if 0x30 ≤ b ∧ b ≤ 0x37 then
        match rest with
        | c :: d :: rest =>
            if 0x30 ≤ c ∧ c ≤ 0x37 ∧ 0x30 ≤ d ∧ d ≤ 0x37 ∧ b ≤ 0x33 then some rest else none
        | _ => none
      else none

/-- Whether what follows an opening quote is closed at the end and has only known
escapes.  The fuel bounds the number of bytes. -/
def closesQuote : (fuel : Nat) -> Text -> Bool
  | 0, _ => false
  | _, [] => false
  | fuel + 1, b :: rest =>
      if b = Text.byte '"' then rest.isEmpty
      else if b = Text.newline then false
      else if b = Text.byte '\\' then
        match afterEscape? rest with
        | some rest => closesQuote fuel rest
        | none => false
      else closesQuote fuel rest

def isQuoted (t : Text) : Bool :=
  match t with
  | b :: rest => b == Text.byte '"' && closesQuote (rest.length + 1) rest
  | [] => false

def isBracketed (t : Text) : Bool :=
  2 ≤ t.length && t.head? == some (Text.byte '<') && t.getLast? == some (Text.byte '>')

def identifier (t : Text) : Text :=
  if isKeyword t then t.quoted
  else if isIdentifier t || isNumeral t || isQuoted t || isBracketed t then t
  else t.quoted

/-!
## Graphs

Sources are boxes, and nodes that affect control flow are red.  The edges of a union tell
which side they are for.
-/

def nodeName (l : Label) : Text :=
  "l" ++ l.text

def nodeAttributes (n : TaintNode) : List (Text × Text) :=
  let plain : Text := n.label.text ++ ": " ++ n.node.text
  let shown : Text × Text :=
    match n.node.origin with
    | .source _ offset =>
        (if n.path.isEmpty then plain
          else n.label.text ++ ": " ++ n.path ++ "[" ++ Text.ofNat offset.toNat ++ "]", "box")
    | _ => (plain, "ellipse")
  let color : List (Text × Text) := if n.node.controlFlow then [("color", "red")] else []
  ([("label", shown.1), ("shape", shown.2)] : List (Text × Text)) ++ color

def nodeText (n : TaintNode) : Text :=
  let attributes := (nodeAttributes n).flatMap fun (key, value) =>
    ("    " ++ key ++ "=" ++ identifier value ++ "\n" : Text)
  "  " ++ nodeName n.label ++ " [\n" ++ attributes ++ "  ];\n"

def sideText : Side -> Text
  | .left => " [label=left]"
  | .right => " [label=right]"
  | .inRange => []

def edgeText (source : Label) (edge : Label × Side) : Text :=
  "  " ++ nodeName source ++ " -> " ++ nodeName edge.1 ++ sideText edge.2 ++ ";\n"

def draw (g : TaintGraph) (name : Text) : Text :=
  let title : Text := if name.isEmpty then [] else " " ++ identifier name
  let nodes : Text :=
    if g.nodes.isEmpty then [] else "  // Node definitions.\n" ++ g.nodes.flatMap nodeText
  let edges := g.adjacency.flatMap fun (n, edges) => edges.flatMap (edgeText n.label)
  let edges : Text := if edges.isEmpty then [] else "\n  // Edge definitions.\n" ++ edges
  "strict digraph" ++ title ++ " \x7b\n" ++ nodes ++ edges ++ "\x7d\n"

end Dot
end TaintTrace
