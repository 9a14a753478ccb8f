import TaintTrace.Numeral.Real

/-!
# Dates

A date is a day, maybe with a time of day and a time zone.  Two dates are the same if
they are the same instant and are told in the same zone.
-/

namespace TaintTrace
namespace Yaml

/-- Where a time of day holds: at no offset, at an offset that is written out as zero, or
at another offset in minutes. -/
inductive Zone where
  | universal
  | home
  | offset (minutes : Int)
  deriving DecidableEq, Repr

namespace Zone

def ofMinutes (minutes : Int) : Zone :=
  if minutes = 0 then home else offset minutes

def minutes : Zone -> Int
  | universal => 0
  | home => 0
  | offset n => n

/-- Whether all dates at an offset share its zone.  They do for whole hours that are in use
somewhere; at any other offset each date has a zone of its own. -/
def isShared (n : Int) : Bool :=
  n % 60 == 0 && -12 * 60 ≤ n && n ≤ 14 * 60

def isSame : Zone -> Zone -> Bool
  | universal, universal => true
  | home, home => true
  | offset m, offset n => m == n && isShared m
  | _, _ => false

def rank : Zone -> Int
  | universal => -2
  | home => -1
  | offset n => if isShared n then n + 24 * 60 else 48 * 60

end Zone

/-- A day of the calendar with a time of day. -/
structure Date where
  year : Nat
  month : Nat
  day : Nat
  hour : Nat := 0
  minute : Nat := 0
  second : Nat := 0
  nanosecond : Nat := 0
  zone : Zone := .universal
  deriving DecidableEq, Repr

namespace Date

/-!
## The calendar

Days are counted from the first day of the year zero.
-/

def isLeap (year : Nat) : Bool :=
  year % 4 == 0 && (year % 100 != 0 || year % 400 == 0)

def daysIn (year month : Nat) : Nat :=
  if month = 2 then if isLeap year then 29 else 28
  else if ([4, 6, 9, 11] : List Nat).contains month then 30
  else 31

/-- The number of days since the first day of the year zero. -/
def dayNumber (d : Date) : Nat :=
  let years := d.year * 365 + (d.year + 3) / 4 - (d.year + 99) / 100 + (d.year + 399) / 400
  let months := (List.range (d.month - 1)).foldl (fun n m => n + daysIn d.year (m + 1)) 0
  years + months + (d.day - 1)

/-- The number of seconds since the year zero began. -/
def instant (d : Date) : Int :=
  ((d.dayNumber * 24 + d.hour) * 60 + d.minute - d.zone.minutes) * 60 + d.second

def isSame (d e : Date) : Bool :=
  d.instant == e.instant && d.nanosecond == e.nanosecond && d.zone.isSame e.zone

/-- The order of dates: first by the part of the second, then by the second, then by the
zone. -/
def le (d e : Date) : Bool :=
  if d.nanosecond ≠ e.nanosecond then d.nanosecond < e.nanosecond
  else if d.instant ≠ e.instant then d.instant < e.instant
  else d.zone.rank ≤ e.zone.rank

/-!
## Reading

Each reader takes what it reads off the front of a text.
-/

def field? (t : Text) : Option (Nat × Text) :=
  match t with
  | a :: b :: rest =>
      if !Numeral.isDigit a then none
      else if Numeral.isDigit b then some (Numeral.digitsValue [a, b], rest)
      else some (Numeral.digitsValue [a], b :: rest)
  | [a] => if Numeral.isDigit a then some (Numeral.digitsValue [a], []) else none
  | [] => none

def mark? (c : Char) (t : Text) : Option Text :=
  match t with
  | b :: rest => if b = Text.byte c then some rest else none
  | [] => none

def day? (t : Text) : Option (Date × Text) := do
  let year := t.take 4
  guard (year.length = 4 && year.all Numeral.isDigit)
  let (month, t) ← field? (← mark? '-' (t.drop 4))
  guard (1 ≤ month && month ≤ 12)
  let (day, t) ← field? (← mark? '-' t)
  let year := Numeral.digitsValue year
  guard (1 ≤ day && day ≤ daysIn year month)
  return ({ year, month, day }, t)

/-- A part of a second at the front of a text, in nanoseconds; digits behind the ninth one
have no meaning. -/
def fraction (t : Text) : Nat × Text :=
  match t with
  | b :: rest =>
      let (digits, after) := Numeral.takeDigits rest
      if (b = Text.byte '.' ∨ b = Text.byte ',') ∧ !digits.isEmpty then
        let kept := digits.take 9
        (Numeral.digitsValue kept * Nat.pow 10 (9 - kept.length), after)
      else (0, t)
  | [] => (0, t)

def time? (d : Date) (t : Text) : Option (Date × Text) := do
  let (hour, t) ← field? t
  guard (hour < 24)
  let (minute, t) ← field? (← mark? ':' t)
  guard (minute < 60)
  let (second, t) ← field? (← mark? ':' t)
  guard (second < 60)
  let (nanosecond, t) := fraction t
  return ({ d with hour, minute, second, nanosecond }, t)

def zone? (t : Text) : Option Zone :=
  match t with
  | [s, a, b, c, d, e] =>
      let hours := Numeral.digitsValue [a, b]
      let minutes := Numeral.digitsValue [d, e]
      let offset : Int := hours * 60 + minutes
      if c = Text.byte ':' ∧ [a, b, d, e].all Numeral.isDigit ∧ hours ≤ 24 ∧ minutes ≤ 60 then
        if s = Text.byte '+' then some (.ofMinutes offset)
        else if s = Text.byte '-' then some (.ofMinutes (-offset))
        else none
      else none
  | _ => if t = [Text.byte 'Z'] then some .universal else none

/-- Read a day, or a day and a time of day.  A time zone must stand behind a time that
follows a letter, and none may stand behind a time that follows a space. -/
def read? (t : Text) : Option Date := do
  let (d, rest) ← day? t
  match rest with
  | [] => return d
  | b :: rest =>
      if b = Text.byte 'T' ∨ b = Text.byte 't' then
        let (d, rest) ← time? d rest
        return { d with zone := ← zone? rest }
      else
        guard (b = Text.byte ' ')
        let (d, rest) ← time? d (rest.dropWhile (· = Text.byte ' '))
        guard rest.isEmpty
        return d

/-!
## Text
-/

def monthNames : List Text :=
  ["January", "February", "March", "April", "May", "June", "July", "August", "September",
    "October", "November", "December"]

def shown (d : Date) : Text :=
  let zone : Text :=
    match d.zone with
    | .universal => "time.UTC"
    | .home => "time.Local"
    | .offset _ => "time.Location(\"\")"
  let numbers := [d.day, d.hour, d.minute, d.second, d.nanosecond].map Text.ofNat
  let month : Text := "time." ++ monthNames.getD (d.month - 1) []
  "time.Date(" ++ Text.join ", " (Text.ofNat d.year :: month :: numbers ++ [zone]) ++ ")"

end Date
end Yaml
end TaintTrace
