import TaintTrace.Text.Basic

/-!
# Styles

A style surrounds a text with the codes that turn it on and off, when colors are
enabled.  The text is made of operands; two neighbours that are no texts have a
space between them.
-/

namespace TaintTrace

inductive Operand where
  | text (t : Text)
  | number (i : Int)
  | truth (b : Bool)
  | nothing
  deriving DecidableEq, Repr

namespace Operand

def isText : Operand -> Bool
  | text _ => true
  | _ => false

def render : Operand -> Text
  | text t => t
  | number i => Text.ofInt i
  | truth true => "true"
  | truth false => "false"
  | nothing => "<nil>"

def renderAll : List Operand -> Text
  | a :: b :: rest =>
      let gap : Text := if a.isText || b.isText then [] else " "
      a.render ++ gap ++ renderAll (b :: rest)
  | [a] => a.render
  | [] => []

end Operand

inductive Style where
  | faint
  | red
  | green
  deriving DecidableEq, Repr

namespace Style

def code : Style -> Text
  | faint => "2"
  | red => "1;31"
  | green => "1;32"

def apply (s : Style) (colors : Bool) (operands : List Operand) : Text :=
  let t := Operand.renderAll operands
  if colors then "\x1b[" ++ s.code ++ "m" ++ t ++ "\x1b[0m" else t

end Style
end TaintTrace
