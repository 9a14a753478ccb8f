import TaintTrace.Yaml.Document
import TaintTrace.Yaml.Content
import TaintTrace.Text.Base64

/-!
# Decoding nodes

Decoding turns the nodes of a document into values of given types.  Values of wrong
types are collected as problems; some faults end decoding at once.  A document may not
consist mostly of what references repeat.
-/

namespace TaintTrace
namespace Yaml

/-- Why decoding ends at once: the document is not valid, or keys are to be compared and
one of them is a collection. -/
inductive DecodingFault where
  | malformed (e : SyntaxError)
  | incomparable

/-- What is known while a document is decoded: the value so far, the problems found, last
one first, and, while mappings are taken over, the keys that are set already.  Nodes
are counted, and those that were reached by a reference are counted again; `around`
has the numbers of the references around the node at hand. -/
structure Decoder (σ : Type) where
  document : Document
  value : σ
  problems : List Text := []
  merged : Option (List Value) := none
  visited : Nat := 0
  referred : Nat := 0
  around : List Nat := []

/-- Steps that decode nodes onto a value, which may fail. -/
abbrev Decoding (σ α : Type) : Type :=
  StateT (Decoder σ) (Except DecodingFault) α

namespace Decoding

variable {σ α : Type}

def fail (problem : Text) : Decoding σ α :=
  throw (.malformed (.plain problem))

def report (problem : Text) : Decoding σ Unit :=
  modify fun d => { d with problems := problem :: d.problems }

/-!
## References

The node that a reference stands for is decoded in its place, and counts as often as it is
visited.
-/

/-- Whether too many of the nodes visited were reached by a reference.  The share that is
allowed falls from 99 to 10 percent between 400,000 and 4,000,000 nodes. -/
def isExcessive (visited referred : Nat) : Bool :=
  let low := 400000
  let high := 4000000
  let beyond :=
    if visited ≤ low then 99 * visited < 100 * referred
    else if high ≤ visited then visited < 10 * referred
    else
      visited * (99 * (high - low) - 89 * (visited - low)) < 100 * (high - low) * referred
  100 < referred && 1000 < visited && beyond

def visit : Decoding σ Unit := do
  modify fun d =>
    { d with
      visited := d.visited + 1
      referred := if d.around.isEmpty then d.referred else d.referred + 1 }
  let d ← get
  if isExcessive d.visited d.referred then fail "document contains excessive aliasing"

def target (n : Node) : Decoding σ Node := do
  match n with
  | .reference _ _ _ anchor => return ((← get).document.anchored.lookup anchor).getD n
  | n => return n

/-- Decode a node, or the node that a reference stands for.  A reference inside itself has
no end. -/
def follow (n : Node) (step : Node -> Decoding σ α) : Decoding σ α := do
  visit
  match n with
  | .reference _ name number _ => do
      if (← get).around.elem number then fail ("anchor '" ++ name ++ "' value contains itself")
      modify fun d => { d with around := number :: d.around }
      visit
      let a ← step (← target n)
      modify fun d => { d with around := d.around.tail }
      return a
  | n => step n

/-!
## Problems

A problem names the line of the node it is about.
-/

def onLine (line : Nat) : Text :=
  "line " ++ Text.ofNat line ++ ": "

/-- Report that a node cannot become a value of some type. -/
def mistyped (n : Node) (type : Text) : Decoding σ Unit :=
  let p := n.properties
  let v := n.value
  let shown : Text :=
    if p.tag = Tag.sequence ∨ p.tag = Tag.mapping then v
    else if 10 < v.length then " `" ++ v.take 7 ++ "...`"
    else " `" ++ v ++ "`"
  report (onLine p.line ++ "cannot unmarshal " ++ p.tag ++ shown ++ " into " ++ type)

def repeatedKeys : List Node -> List (Node × Node)
  | [] => []
  | k :: rest => (rest.filter k.sameKey).map (fun l => (k, l)) ++ repeatedKeys rest

/-- Report the keys that a mapping has twice, and tell whether there are any. -/
def reportRepeats (entries : List (Node × Node)) : Decoding σ Bool := do
  let repeats := repeatedKeys (entries.map (·.1))
  for (first, later) in repeats do
    report (onLine later.properties.line ++ "mapping key " ++ Text.quoted later.value
      ++ " already defined at line " ++ Text.ofNat first.properties.line)
  return !repeats.isEmpty

/-!
## Scalars

A scalar that cannot become a value of the type is a problem, and an empty one leaves the
value out.
-/

def scalarValue (p : Properties) (v : Text) : Decoding σ Value :=
  if p.tag = Tag.binary then
    match Text.ofBase64? v with
    | some bytes => pure (.text bytes)
    | none => fail "!!binary value contains invalid base64 data"
  else
    match resolve p.tag v with
    | .ok value => pure value
    | .error e => throw (.malformed e)

def notScalar (n : Node) (type : Text) : Decoding σ Unit := do
  match n with
  | .mapping _ entries =>
      if !(← reportRepeats entries) then mistyped n type
  | n => mistyped n type

def text? (n : Node) : Decoding σ (Option Text) :=
  follow n fun
    | .scalar p v _ => do
        match ← scalarValue p v with
        | .null => return none
        | .text t => return some t
        | _ => return some v
    | n => do
        notScalar n "string"
        return none

/-- Decode a 64-bit number; a fraction loses its part behind the point. -/
def integer? (n : Node) : Decoding σ (Option Int) :=
  follow n fun
    | .scalar p v style => do
        let value ← scalarValue p v
        let read : Option Int :=
          match value with
          | .integer n => if n < Numeral.half64 then some n else none
          | .real r => r.toWord?
          | _ => none
        if value != .null && read.isNone then mistyped (.scalar p v style) "int"
        return read
    | n => do
        notScalar n "int"
        return none

def yesWords : List Text := ["y", "Y", "yes", "Yes", "YES", "on", "On", "ON"]

def noWords : List Text := ["n", "N", "no", "No", "NO", "off", "Off", "OFF"]

/-- Decode a truth value; the words for yes and no are known too. -/
def truth? (n : Node) : Decoding σ (Option Bool) :=
  follow n fun
    | .scalar p v style => do
        let value ← scalarValue p v
        let read : Option Bool :=
          match value with
          | .truth b => some b
          | .text t =>
              if yesWords.elem t then some true else if noWords.elem t then some false else none
          | _ => none
        if value != .null && read.isNone then mistyped (.scalar p v style) "bool"
        return read
    | n => do
        notScalar n "bool"
        return none

/-!
## Mappings

A mapping may take over the entries of other mappings.  Its own keys come first, and a
key that is set is not taken over again.
-/

/-- Add a key to those that are set, if they matter.  There is no answer for a key that is
set already. -/
def claim (set : Option (List Value)) (k : Content) : Decoding σ (Option (Option (List Value))) :=
  match set, k with
  | none, _ => pure (some none)
  | some values, .scalar v =>
      pure (if values.any v.isSameKey then none else some (some (v :: values)))
  | some _, _ => throw .incomparable

/-- Decode the entries of a mapping, apart from those that ask to take over others.  A key
is read first; if it is not set yet, its entry is decoded.  What is known of the entries
before is passed on. -/
def decodeEntries {β : Type} (readKey : Node -> Decoding σ (Option Content))
    (decodeEntry : Content -> Node × Node -> β -> Decoding σ β) (start : β)
    (entries : List (Node × Node)) : Decoding σ β := do
  let mut merged := (← get).merged
  let mut known := start
  modify fun d => { d with merged := none }
  for e in entries do
    if !e.1.isMerge then
      if let some k ← readKey e.1 then
        if let some set ← claim merged k then
          merged := set
          known ← decodeEntry k e known
  let set := merged
  modify fun d => { d with merged := set }
  return known

def takeOver {β : Type} (decode : Node -> β -> Decoding σ β) (known : β) (n : Node) :
    Decoding σ β := do
  match ← target n with
  | .mapping _ _ => decode n known
  | _ => fail "map merge requires map or sequence of maps as the value"

/-- Take over the mappings that a mapping asks for.  If no keys are set yet, those of the
mapping itself are.  What is known of the entries before is passed on. -/
def merge {β : Type} (readKey : Node -> Decoding σ (Option Content))
    (decode : Node -> β -> Decoding σ β) (start : β) (entries : List (Node × Node)) :
    Decoding σ β := do
  match entries.reverse.find? fun e => e.1.isMerge with
  | none => return start
  | some (_, source) => do
      let outermost := (← get).merged.isNone
      if outermost then
        modify fun d => { d with merged := some [] }
        for e in entries do
          match ← readKey e.1 with
          | none => pure ()
          | some (.scalar v) =>
              modify fun d => { d with merged := d.merged.map (v :: ·) }
          | some _ => throw .incomparable
      let known ←
        match source with
        | .sequence _ items => items.foldlM (takeOver decode) start
        | n => takeOver decode start n
      if outermost then modify fun d => { d with merged := none }
      return known

/-!
## Values of any type

Where no type is asked for, tags and texts decide what a node becomes.
-/

def tagOf (n : Node) : Decoding σ Text := do
  return (← target n).properties.tag

def hasTextKeys (entries : List (Node × Node)) : Decoding σ Bool := do
  let tags ← entries.mapM fun e => tagOf e.1
  return tags.all fun tag => tag == Tag.text || tag == Tag.merge

def nameKey? (n : Node) : Decoding σ (Option Content) := do
  return (← text? n).map fun t => .scalar (.text t)

mutual

/-- Decode a node of any type.  The fuel bounds the depth. -/
def any? : (fuel : Nat) -> Node -> Decoding σ (Option Content)
  | 0, _ => pure none
  | fuel + 1, n =>
      follow n fun
        | .scalar p v _ => return some (.scalar (← scalarValue p v))
        | .sequence _ items => return some (.sequence (← items.filterMapM (any? fuel)))
        | .mapping _ entries => do
            if ← reportRepeats entries then return none
            else
              let named ← hasTextKeys entries
              return some (.mapping named (← anyEntries named fuel [] entries))
        | .reference _ _ _ _ => return none

/-- Decode the entries of a mapping of any type, and those it takes over, onto the entries
before.  What cannot be decoded leaves no entry, unless it has the tag of nothing. -/
def anyEntries (named : Bool) : (fuel : Nat) -> (known : List (Value × Content)) ->
    List (Node × Node) -> Decoding σ (List (Value × Content))
  | 0, known, _ => pure known
  | fuel + 1, known, entries => do
      let decodeEntry (k : Content) (e : Node × Node) (known : List (Value × Content)) :
          Decoding σ (List (Value × Content)) := do
        match k with
        | .scalar key =>
            match ← any? fuel e.2 with
            | some c => return Content.put key c known
            | none =>
                if (← tagOf e.2) == Tag.null && !Content.isSet key known then
                  return Content.put key (.scalar .null) known
                else return known
        | k => fail ("invalid map key: " ++ k.shown)
      let decode (n : Node) (known : List (Value × Content)) :
          Decoding σ (List (Value × Content)) :=
        follow n fun
          | .mapping _ entries => do
              if ← reportRepeats entries then return known
              else anyEntries named fuel known entries
          | _ => return known
      let known ← decodeEntries (if named then nameKey? else any? fuel) decodeEntry known entries
      merge (any? fuel) decode known entries

end

end Decoding
end Yaml
end TaintTrace
