import TaintTrace.Command.Session

/-!
# Completion

The tab key completes the name of a command when only one name begins with what
stands in front of the cursor.
-/

namespace TaintTrace

structure EditedLine where
  text : Text
  cursor : Nat
  deriving DecidableEq, Repr

namespace EditedLine

def completed? (l : EditedLine) : Option EditedLine :=
  let start := l.text.take l.cursor
  if start.elem Text.space then none
  else
    match (CommandName.all.map CommandName.text).filter fun name => name.startsWith start with
    | [name] =>
        let rest := (l.text.drop l.cursor).dropWhile (· = Text.space)
        some ⟨name ++ [Text.space] ++ rest, name.length + 1⟩
    | _ => none

end EditedLine
end TaintTrace
