import TaintTrace.Yaml.Date
import TaintTrace.Yaml.Source

/-!
# Values of scalars

What a plain scalar stands for follows from its text: nothing, a truth value, a
number, a date or the text itself.  A tag may ask for one of these.
-/

namespace TaintTrace
namespace Yaml

inductive Value where
  | null
  | truth (b : Bool)
  | integer (n : Int)
  | real (r : Numeral.Real)
  | date (d : Date)
  | text (t : Text)
  deriving DecidableEq, Repr

/-!
## Tags

A tag has a long form and a short one.
-/

namespace Tag

def text : Text := "!!str"
def truth : Text := "!!bool"
def integer : Text := "!!int"
def real : Text := "!!float"
def null : Text := "!!null"
def date : Text := "!!timestamp"
def binary : Text := "!!binary"
def merge : Text := "!!merge"
def sequence : Text := "!!seq"
def mapping : Text := "!!map"

def longStart : Text := "tag:yaml.org,2002:"

def short (tag : Text) : Text :=
  if tag.startsWith longStart then "!!" ++ tag.drop longStart.length else tag

def isResolvable (tag : Text) : Bool :=
  ([[], text, truth, integer, real, null, date] : List Text).contains tag

end Tag

def Value.tag : Value -> Text
  | .null => Tag.null
  | .truth _ => Tag.truth
  | .integer _ => Tag.integer
  | .real _ => Tag.real
  | .date _ => Tag.date
  | .text _ => Tag.text

/-- Whether two values are the same as keys.  No value is the same as one that is not a
number, and the sign of zero has no meaning. -/
def Value.isSameKey : Value -> Value -> Bool
  | .real r, .real s => r.isSame s
  | .date d, .date e => d.isSame e
  | v, w => v == w

/-!
## Plain text

Words come first, then dates where they are wanted, then numbers.  Underscores in numbers do
not count.
-/

def word? (t : Text) : Option Value :=
  let isOneOf (words : List Text) : Bool := words.contains t
  if isOneOf ["true", "True", "TRUE"] then some (.truth true)
  else if isOneOf ["false", "False", "FALSE"] then some (.truth false)
  else if isOneOf [[], "~", "null", "Null", "NULL"] then some .null
  else if isOneOf [".nan", ".NaN", ".NAN"] then some (.real .nan)
  else if isOneOf [".inf", ".Inf", ".INF", "+.inf", "+.Inf", "+.INF"] then
    some (.real (.infinite false))
  else if isOneOf ["-.inf", "-.Inf", "-.INF"] then some (.real (.infinite true))
  else none

/-- A whole number in base two or eight after a mark such as `0b`, with a sign. -/
def marked? (mark : Char) (base : Nat) (t : Text) : Option Value :=
  let start : Text := [Text.byte '0', Text.byte mark]
  if t.startsWith start then
    match Numeral.integer (some base) (t.drop 2) with
    | .ok n => some (.integer n)
    | .error _ =>
        match Numeral.natural (some base) Numeral.max64 (t.drop 2) with
        | .ok n => some (.integer n)
        | .error _ => none
  else if t.startsWith (Text.byte '-' :: start) then
    match Numeral.integer (some base) (Text.byte '-' :: t.drop 3) with
    | .ok n => some (.integer n)
    | .error _ => none
  else none

def number? (t : Text) : Option Value :=
  match Numeral.integer none t with
  | .ok n => some (.integer n)
  | .error _ =>
      match Numeral.natural none Numeral.max64 t with
      | .ok n => some (.integer n)
      | .error _ =>
          match Numeral.real? t with
          | some r => some (.real r)
          | none => (marked? 'b' 2 t).or (marked? 'o' 8 t)

/-- The value of a text that starts with a digit, a sign or a point, if it is a
number or a date. -/
def numeric? (datesToo : Bool) (t : Text) : Option Value :=
  match t with
  | [] => none
  | b :: _ =>
      if b = Text.byte '.' then
        if t.elem (Text.byte '_') && !Numeral.underscoresFit t then none
        else (Numeral.real? (t.filter (· ≠ Text.byte '_'))).map .real
      else if Numeral.isDigit b || b == Text.byte '+' || b == Text.byte '-' then
        match if datesToo then Date.read? t else none with
        | some d => some (.date d)
        | none => number? (t.filter (· ≠ Text.byte '_'))
      else none

/-- Why a scalar has no value: it has another kind than its tag asks for. -/
def mismatch (value : Value) (t tag : Text) : SyntaxError :=
  .plain ("cannot decode " ++ value.tag ++ " `" ++ t ++ "` as a " ++ tag)

/-- The value of a text under a tag in short form.  A tag of another kind leaves the
text as it is. -/
def resolve (tag t : Text) : Except SyntaxError Value :=
  if !Tag.isResolvable tag || tag == Tag.text then .ok (.text t)
  else
    let value := ((word? t).or (numeric? (tag == [] || tag == Tag.date) t)).getD (.text t)
    if tag == [] || tag == value.tag then .ok value
    else
      match value with
      | .integer n =>
          if tag == Tag.real && n < Numeral.half64 then
            .ok (.real ((Numeral.nearest? (n < 0) n.natAbs 1).getD .nan))
          else .error (mismatch value t tag)
      | _ => .error (mismatch value t tag)

def plainTag (t : Text) : Text :=
  match resolve [] t with
  | .ok v => v.tag
  | .error _ => Tag.text

end Yaml
end TaintTrace
