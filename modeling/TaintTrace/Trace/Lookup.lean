import TaintTrace.Trace.Basic

/-!
# Lookups

An analysis reads the nodes of a trace one label at a time.  A lookup is such an
analysis as a value: it has its answer, or it asks for the node of a label and
goes on with what it is told.  The same lookup can then be run on a plain trace,
through a cache, or in steps.
-/

namespace TaintTrace

/-- An analysis that asks for the nodes of labels. -/
inductive Lookup (α : Type) where
  | done (answer : α)
  | decode (label : Label) (next : Except InvalidLabel Node -> Lookup α)

namespace Lookup

variable {α β : Type}

protected def bind : Lookup α -> (α -> Lookup β) -> Lookup β
  | done a, f => f a
  | decode l next, f => decode l fun r => (next r).bind f

instance : Monad Lookup where
  pure := done
  bind := Lookup.bind

def node (l : Label) : Lookup (Except InvalidLabel Node) :=
  decode l done

def answer (nodes : Label -> Except InvalidLabel Node) : Lookup α -> α
  | done a => a
  | decode l next => (next (nodes l)).answer nodes

def run (t : Trace) (p : Lookup α) : α :=
  p.answer t.decode

@[simp] theorem answer_done (nodes : Label -> Except InvalidLabel Node) (a : α) :
    (done a).answer nodes = a := rfl

@[simp] theorem answer_decode (nodes : Label -> Except InvalidLabel Node) (l : Label)
    (next : Except InvalidLabel Node -> Lookup α) :
    (decode l next).answer nodes = (next (nodes l)).answer nodes := rfl

@[simp] theorem answer_bind (nodes : Label -> Except InvalidLabel Node)
    (p : Lookup α) (f : α -> Lookup β) :
    (p.bind f).answer nodes = (f (p.answer nodes)).answer nodes := by
  induction p with
  | done a => rfl
  | decode l next ih => exact ih (nodes l)

end Lookup
end TaintTrace
