import TaintTrace.Pattern.Program
import TaintTrace.Pattern.Reading

/-!
# Path filters

A filter selects paths.  It is a pattern if it can be read as one, otherwise the text
that paths start with.  An empty filter selects every path.
-/

namespace TaintTrace

inductive PathFilter where
  | everything
  | pattern (p : PatternProgram)
  | start (t : Text)
  deriving DecidableEq, Repr

namespace PathFilter

def ofText (t : Text) : PathFilter :=
  if t.isEmpty then .everything
  else
    match Pattern.read t with
    | .ok p => .pattern (.ofPattern p)
    | .error _ => .start t

def selects (f : PathFilter) (path : Text) : Bool :=
  match f with
  | .everything => true
  | .pattern p => p.matchesText path
  | .start t => path.startsWith t

end PathFilter
end TaintTrace
