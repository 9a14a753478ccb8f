import TaintTrace.Trace.Lookup

/-!
# Cached lookups

A cache keeps the nodes decoded last, up to a number of them, so that a trace is
asked less often.  Finding a node in the cache makes it the most recent one;
adding to a full cache drops the least recent one.  Faults are never kept.
-/

namespace TaintTrace

/-- The nodes decoded last, the most recent first. -/
structure Cache where
  capacity : Nat
  entries : List (Label × Node)

namespace Cache

def create? (size : Int) : Option Cache :=
  if size ≤ 0 then none else some ⟨size.toNat, []⟩

def sizeMessage : Text :=
  "could not create decode cache: must provide a positive size"

def size (c : Cache) : Nat :=
  c.entries.length

def refresh (c : Cache) (l : Label) (n : Node) : Cache :=
  { c with entries := (l, n) :: c.entries.eraseP (·.1 == l) }

/-- Add an entry, dropping the least recent one when there are too many. -/
def add (c : Cache) (l : Label) (n : Node) : Cache :=
  { c with entries := ((l, n) :: c.entries).take c.capacity }

def decode (nodes : Label -> Except InvalidLabel Node) (c : Cache) (l : Label) :
    Except InvalidLabel Node × Cache :=
  match c.entries.find? (·.1 == l) with
  | some (_, n) => (.ok n, c.refresh l n)
  | none =>
      match nodes l with
      | .ok n => (.ok n, c.add l n)
      | .error e => (.error e, c)

end Cache

/-- A trace that is read through a cache, if it has one. -/
structure TraceReader where
  trace : Trace
  cache : Option Cache := none

namespace TraceReader

variable {α : Type}

def decode (r : TraceReader) (l : Label) : Except InvalidLabel Node × TraceReader :=
  match r.cache with
  | none => (r.trace.decode l, r)
  | some c =>
      let (answer, c) := c.decode r.trace.decode l
      (answer, { r with cache := some c })

def run : Lookup α -> TraceReader -> α × TraceReader
  | .done a, r => (a, r)
  | .decode l next, r =>
      let (answer, r) := r.decode l
      run (next answer) r

end TraceReader
end TaintTrace
