import TaintTrace.Yaml.Stream
import TaintTrace.Yaml.Value

/-!
# Documents

The tokens of a stream form a tree of scalars, sequences and mappings.  A node may
carry an anchor, and a reference stands for the node with that anchor, which may even
be a node around the reference.  Only the first document of a stream is read.
-/

namespace TaintTrace
namespace Yaml

/-- What all nodes have: the line where they begin and a tag in short form. -/
structure Properties where
  line : Nat
  tag : Text

/-- The nodes of a document.  A reference has a number of its own and the number of
the anchor it refers to. -/
inductive Node where
  | scalar (properties : Properties) (value : Text) (style : ScalarStyle)
  | sequence (properties : Properties) (items : List Node)
  | mapping (properties : Properties) (entries : List (Node × Node))
  | reference (properties : Properties) (name : Text) (number anchor : Nat)

/-- A document: its root, and the nodes with anchors by their numbers. -/
structure Document where
  root : Node
  anchored : List (Nat × Node)
  references : Nat

namespace Node

def properties : Node -> Properties
  | .scalar p _ _ => p
  | .sequence p _ => p
  | .mapping p _ => p
  | .reference p _ _ _ => p

/-- The text of a scalar and the name of a reference; other nodes have none. -/
def value : Node -> Text
  | .scalar _ v _ => v
  | .reference _ name _ _ => name
  | _ => []

/-- Whether two nodes are of one kind and have equal texts. -/
def sameKey : Node -> Node -> Bool
  | .scalar _ v _, .scalar _ w _ => v == w
  | .sequence _ _, .sequence _ _ => true
  | .mapping _ _, .mapping _ _ => true
  | .reference _ v _ _, .reference _ w _ _ => v == w
  | _, _ => false

/-- Whether a key asks to take over the entries of other mappings. -/
def isMerge : Node -> Bool
  | .scalar p v _ => v == "<<" && p.tag == Tag.merge
  | _ => false

end Node

/-!
## Reading nodes

Nodes are read by descent, with the parts of a collection read so far last one first.
-/

structure Reader where
  tokens : TokenStream
  handles : List (Text × Text) := []
  names : List (List Char × Nat) := []
  anchored : List (Nat × Node) := []
  references : Nat := 0

abbrev Reading (α : Type) : Type :=
  StateT Reader (Except SyntaxError) α

namespace Reading

def scan {α : Type} (step : Scan α) : Reading α := do
  let r ← get
  match step.run r.tokens with
  | .error e => throw e
  | .ok (a, tokens) => do
      set { r with tokens := tokens }
      return a

def peek : Reading Token :=
  scan Scan.peek

def take : Reading Unit :=
  scan Scan.take

/-- Fail if a fault was met ahead.  Each part of a document is settled before the next one,
so a fault in the order of tokens is found first if it lies within the part. -/
def settle : Reading Unit := do
  match (← get).tokens.cursor.pending with
  | some e => throw e
  | none => pure ()

def close {α : Type} (read : List α) : Reading (List α) := do
  take
  settle
  return read.reverse

def fail {α : Type} (context : Mark) (problem : Text) (mark : Mark) : Reading α :=
  throw ⟨if context.line ≠ 0 then context.line else mark.line, problem⟩

def scalarTag (tag value : Text) (style : ScalarStyle) : Text :=
  if tag ≠ [] ∧ tag ≠ "!" then Tag.short tag
  else if style ≠ .plain then Tag.text
  else if value = "<<" then Tag.merge
  else plainTag value

def collectionTag (tag usual : Text) : Text :=
  if tag ≠ [] ∧ tag ≠ "!" then Tag.short tag else usual

def scalarNode (mark : Mark) (tag : Text) (value : List Char) (style : ScalarStyle) : Node :=
  let text := Text.ofChars value
  .scalar ⟨mark.line + 1, scalarTag tag text style⟩ text style

def emptyScalar (mark : Mark) : Reading Node := do
  settle
  return scalarNode mark [] [] .plain

/-- Begin a node: its anchor, if it has one, is bound to a new number. -/
def bindAnchor (name : Option (List Char)) : Reading (Option Nat) := do
  settle
  match name with
  | none => return none
  | some name => do
      let r ← get
      let number := r.names.length
      set { r with names := (name, number) :: r.names }
      return some number

def keep (anchor : Option Nat) (node : Node) : Reading Node := do
  match anchor with
  | none => return node
  | some number => do
      modify fun r => { r with anchored := (number, node) :: r.anchored }
      return node

def reference (mark : Mark) (name : List Char) : Reading Node := do
  settle
  let r ← get
  match r.names.lookup name with
  | none => throw (.plain ("unknown anchor '" ++ Text.ofChars name ++ "' referenced"))
  | some anchor => do
      set { r with references := r.references + 1 }
      return .reference ⟨mark.line + 1, []⟩ (Text.ofChars name) r.references anchor

structure Front where
  anchor : Option (List Char)
  tag : Option (Text × Text × Mark)

def readFront : Reading Front := do
  let t ← peek
  match t.kind with
  | .anchor name => do
      take
      let t ← peek
      match t.kind with
      | .tag handle suffix => do
          take
          return ⟨some name, some (handle, suffix, t.start)⟩
      | _ => return ⟨some name, none⟩
  | .tag handle suffix => do
      take
      let u ← peek
      match u.kind with
      | .anchor name => do
          take
          return ⟨some name, some (handle, suffix, t.start)⟩
      | _ => return ⟨none, some (handle, suffix, t.start)⟩
  | _ => return ⟨none, none⟩

def fullTag (start : Mark) (tag : Option (Text × Text × Mark)) : Reading Text := do
  match tag with
  | none => return []
  | some (handle, suffix, mark) =>
      if handle.isEmpty then return suffix
      else
        match (← get).handles.lookup handle with
        | none => fail start "found undefined tag handle" mark
        | some replacement =>
            if (replacement ++ suffix).isEmpty then fail start "found undefined tag handle" mark
            else return replacement ++ suffix

/-- Whether an entry of a block mapping is empty in front of a token. -/
def endsBlockPart (kind : TokenKind) : Bool :=
  kind == .key || kind == .value || kind == .blockEnd

mutual

/-- Read a node.  Blocks are read only if `block` is set, a sequence that is not
indented only if `unindented` is set too. -/
def readNode (block unindented : Bool) : (fuel : Nat) -> Reading Node
  | 0 => throw (.plain "unknown problem parsing YAML content")
  | fuel + 1 => do
      let first ← peek
      match first.kind with
      | .reference name => do
          take
          reference first.start name
      | _ => do
          let start := first.start
          let front ← readFront
          let t ← peek
          let tag ← fullTag start front.tag
          let line := start.line + 1
          let sequenceOf (items : Reading (List Node)) : Reading Node := do
            let anchor ← bindAnchor front.anchor
            keep anchor (.sequence ⟨line, collectionTag tag Tag.sequence⟩ (← items))
          let mappingOf (entries : Reading (List (Node × Node))) : Reading Node := do
            let anchor ← bindAnchor front.anchor
            keep anchor (.mapping ⟨line, collectionTag tag Tag.mapping⟩ (← entries))
          let scalarOf (value : List Char) (style : ScalarStyle) : Reading Node := do
            let anchor ← bindAnchor front.anchor
            keep anchor (scalarNode start tag value style)
          if unindented && t.kind == .blockEntry then
            sequenceOf (readUnindentedItems fuel [])
          else
            match t.kind with
            | .scalar value style => do
                take
                scalarOf value style
            | .flowSequenceStart => do
                take
                sequenceOf (readFlowItems t.start true fuel [])
            | .flowMappingStart => do
                take
                mappingOf (readFlowEntries t.start true fuel [])
            | kind =>
                if block && kind == .blockSequenceStart then do
                  take
                  sequenceOf (readBlockItems t.start fuel [])
                else if block && kind == .blockMappingStart then do
                  take
                  mappingOf (readBlockEntries t.start fuel [])
                else if front.anchor.isSome || !tag.isEmpty then scalarOf [] .plain
                else fail start "did not find expected node content" t.start

/-- Read the items of a block sequence onto those before, last one first. -/
def readBlockItems (start : Mark) : (fuel : Nat) -> (read : List Node) -> Reading (List Node)
  | 0, _ => throw (.plain "unknown problem parsing YAML content")
  | fuel + 1, read => do
      let t ← peek
      match t.kind with
      | .blockEntry => do
          take
          let next ← peek
          let item ←
            if next.kind == .blockEntry || next.kind == .blockEnd then emptyScalar t.stop
            else readNode true false fuel
          readBlockItems start fuel (item :: read)
      | .blockEnd => close read
      | _ => fail start "did not find expected '-' indicator" t.start

def readUnindentedItems : (fuel : Nat) -> (read : List Node) -> Reading (List Node)
  | 0, _ => throw (.plain "unknown problem parsing YAML content")
  | fuel + 1, read => do
      let t ← peek
      match t.kind with
      | .blockEntry => do
          take
          let next ← peek
          let item ←
            if next.kind == .blockEntry || endsBlockPart next.kind then emptyScalar t.stop
            else readNode true false fuel
          readUnindentedItems fuel (item :: read)
      | _ => do
          settle
          return read.reverse

def readBlockEntries (start : Mark) : (fuel : Nat) -> (read : List (Node × Node)) ->
    Reading (List (Node × Node))
  | 0, _ => throw (.plain "unknown problem parsing YAML content")
  | fuel + 1, read => do
      let t ← peek
      match t.kind with
      | .key => do
          take
          let next ← peek
          let key ←
            if endsBlockPart next.kind then emptyScalar t.stop
            else readNode true true fuel
          let colon ← peek
          let value ←
            if colon.kind == .value then do
              take
              let next ← peek
              if endsBlockPart next.kind then emptyScalar colon.stop
              else readNode true true fuel
            else emptyScalar colon.start
          readBlockEntries start fuel ((key, value) :: read)
      | .blockEnd => close read
      | _ => fail start "did not find expected key" t.start

/-- Read the items of a sequence in brackets.  An item with a key is a mapping with
one entry. -/
def readFlowItems (start : Mark) (first : Bool) : (fuel : Nat) -> (read : List Node) ->
    Reading (List Node)
  | 0, _ => throw (.plain "unknown problem parsing YAML content")
  | fuel + 1, read => do
      let t ← peek
      if t.kind == .flowSequenceEnd then close read
      else
        if !first then
          if t.kind == .flowEntry then take
          else fail start "did not find expected ',' or ']'" t.start
        let t ← peek
        if t.kind == .flowSequenceEnd then close read
        else if t.kind == .key then
          take
          settle
          let next ← peek
          let key ←
            if next.kind == .value || next.kind == .flowEntry || next.kind == .flowSequenceEnd then
              take
              emptyScalar next.stop
            else readNode false false fuel
          let colon ← peek
          let value ←
            if colon.kind == .value then do
              take
              let next ← peek
              if next.kind == .flowEntry || next.kind == .flowSequenceEnd then
                emptyScalar next.start
              else readNode false false fuel
            else emptyScalar colon.start
          let _ ← peek
          settle
          readFlowItems start false fuel
            (.mapping ⟨t.start.line + 1, Tag.mapping⟩ [(key, value)] :: read)
        else
          let item ← readNode false false fuel
          readFlowItems start false fuel (item :: read)

def readFlowEntries (start : Mark) (first : Bool) : (fuel : Nat) ->
    (read : List (Node × Node)) -> Reading (List (Node × Node))
  | 0, _ => throw (.plain "unknown problem parsing YAML content")
  | fuel + 1, read => do
      let t ← peek
      if t.kind == .flowMappingEnd then close read
      else
        if !first then
          if t.kind == .flowEntry then take
          else fail start "did not find expected ',' or '\x7d'" t.start
        let t ← peek
        if t.kind == .flowMappingEnd then close read
        else if t.kind == .key then
          take
          let next ← peek
          let key ←
            if next.kind == .value || next.kind == .flowEntry || next.kind == .flowMappingEnd then
              emptyScalar next.start
            else readNode false false fuel
          let colon ← peek
          let value ←
            if colon.kind == .value then do
              take
              let next ← peek
              if next.kind == .flowEntry || next.kind == .flowMappingEnd then
                emptyScalar next.start
              else readNode false false fuel
            else emptyScalar colon.start
          readFlowEntries start false fuel ((key, value) :: read)
        else
          let key ← readNode false false fuel
          let next ← peek
          let value ← emptyScalar next.start
          readFlowEntries start false fuel ((key, value) :: read)

end

/-!
## Reading a document

Directives come first, and the handles they declare hold in the document that follows.
-/

def usualHandles : List (Text × Text) :=
  [("!", "!"), ("!!", "tag:yaml.org,2002:")]

def readDirectives (versionSeen : Bool) : (fuel : Nat) -> Reading Unit
  | 0 => throw (.plain "unknown problem parsing YAML content")
  | fuel + 1 => do
      let t ← peek
      match t.kind with
      | .versionDirective major minor => do
          if versionSeen then fail t.start "found duplicate %YAML directive" t.start
          if major ≠ 1 ∨ minor ≠ 1 then fail t.start "found incompatible YAML document" t.start
          take
          readDirectives true fuel
      | .tagDirective handle replacement => do
          if ((← get).handles.lookup handle).isSome then
            fail t.start "found duplicate %TAG directive" t.start
          modify fun r => { r with handles := r.handles ++ [(handle, replacement)] }
          take
          readDirectives versionSeen fuel
      | _ =>
          modify fun r =>
            let known := usualHandles.filter fun h => (r.handles.lookup h.1).isNone
            { r with handles := r.handles ++ known }

def endsContent (kind : TokenKind) : Bool :=
  match kind with
  | .versionDirective _ _ | .tagDirective _ _ | .documentStart | .documentEnd | .streamEnd => true
  | _ => false

def readDocument (fuel : Nat) : Reading (Option Document) := do
  let _ ← peek
  settle
  take
  let t ← peek
  if t.kind == .streamEnd then
    settle
    return none
  else
    let explicit := endsContent t.kind && t.kind != .documentEnd
    readDirectives false fuel
    let root ←
      if explicit then do
        let t ← peek
        if t.kind != .documentStart then
          fail t.start "did not find expected <document start>" t.start
        settle
        take
        let t ← peek
        if endsContent t.kind then emptyScalar t.start else readNode true false fuel
      else do
        settle
        readNode true false fuel
    let _ ← peek
    settle
    let r ← get
    return some ⟨root, r.anchored, r.references⟩

end Reading

def Document.read (t : Text) : Except SyntaxError (Option Document) := do
  let reading := Reading.readDocument (16 * (t.length + 16))
  return (← reading.run { tokens := TokenStream.ofSource (Source.ofBytes t) }).1

end Yaml
end TaintTrace
