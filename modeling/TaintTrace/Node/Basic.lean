import TaintTrace.Label.Basic

/-!
# Taint nodes

The node of a label says where the label comes from: a byte of an input file, the
union of two labels, or a range of consecutive labels.  A node also says whether
the value it stands for influenced a branch of the traced program.
-/

namespace TaintTrace

inductive Origin where
  /-- A byte of the input file with the given header index. -/
  | source (file : UInt8) (offset : UInt64)
  /-- The mix of two labels. -/
  | union (left right : Label)
  /-- The mix of all labels from the first to the last. -/
  | range (first last : Label)
  deriving DecidableEq, Repr

structure Node where
  origin : Origin
  controlFlow : Bool := false
  deriving DecidableEq, Repr

namespace Node

def source (file : UInt8) (offset : UInt64) : Node :=
  ⟨.source file offset, false⟩

def union (left right : Label) : Node :=
  ⟨.union left right, false⟩

def range (first last : Label) : Node :=
  ⟨.range first last, false⟩

def isSource (n : Node) : Bool :=
  match n.origin with
  | .source _ _ => true
  | _ => false

def kind (n : Node) : Text :=
  match n.origin with
  | .source _ _ => "source"
  | .union _ _ => "union"
  | .range _ _ => "range"

def text (n : Node) : Text :=
  let origin : Text :=
    match n.origin with
    | .source file offset =>
        "source(idx=" ++ Text.ofNat file.toNat ++ ", offset=" ++ Text.ofNat offset.toNat ++ ")"
    | .union left right => "union(" ++ left.text ++ ", " ++ right.text ++ ")"
    | .range first last => "range(" ++ first.text ++ ".." ++ last.text ++ ")"
  if n.controlFlow then origin ++ " (cf)" else origin

/-!
## Children

The labels a node refers to are numbered, so that a wide range can be walked
without being written out.
-/

def childCount (n : Node) : Nat :=
  match n.origin with
  | .source _ _ => 0
  | .union _ _ => 2
  | .range first last => last.toNat + 1 - first.toNat

/-- The label a node refers to at an index below `childCount`. -/
def child (n : Node) (i : Nat) : Label :=
  match n.origin with
  | .source _ _ => 0
  | .union left right => if i = 0 then left else right
  | .range first _ => UInt32.ofNat (first.toNat + i)

/-- The first labels a node refers to, at most `k` of them. -/
def childrenUpTo (n : Node) (k : Nat) : List Label :=
  (List.range (min k n.childCount)).map n.child

def children (n : Node) : List Label :=
  n.childrenUpTo n.childCount

end Node
end TaintTrace
