import TaintTrace.Text.Basic

/-!
# File paths

A path is cleaned by its text alone: empty and single-dot parts vanish, and a double
dot takes away the part before it.
-/

namespace TaintTrace
namespace Path

def slash : UInt8 := 0x2f

def dot : Text := "."

def dotDot : Text := ".."

def split : Text -> List Text
  | [] => [[]]
  | b :: rest =>
      if b = slash then [] :: split rest
      else
        match split rest with
        | [] => [[b]]
        | part :: parts => (b :: part) :: parts

def isRooted (p : Text) : Bool :=
  p.head? == some slash

/-- Add a part to the parts before it, which come last one first. -/
def cleanStep (rooted : Bool) (parts : List Text) (part : Text) : List Text :=
  if part.isEmpty ∨ part = dot then parts
  else if part = dotDot then
    match parts with
    | [] => if rooted then [] else [dotDot]
    | last :: before => if last = dotDot then dotDot :: parts else before
  else part :: parts

/-- The shortest path with the same meaning by its text. -/
def clean (p : Text) : Text :=
  let parts := ((split p).foldl (cleanStep (isRooted p)) []).reverse
  let body := Text.join [slash] parts
  if isRooted p then slash :: body else if body.isEmpty then dot else body

def directory (p : Text) : Text :=
  let parts := split p
  clean (Text.join [slash] (parts.dropLast ++ if parts.length = 1 then [] else [[]]))

/-- A path inside another one.  An empty one of the two leaves the other. -/
def append (p q : Text) : Text :=
  if p.isEmpty ∧ q.isEmpty then []
  else if p.isEmpty then clean q
  else if q.isEmpty then clean p
  else clean (p ++ slash :: q)

def entry (directory name : Text) : Text :=
  if directory.getLast? = some slash then directory ++ name else directory ++ slash :: name

end Path
end TaintTrace
