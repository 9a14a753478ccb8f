import TaintTrace.Text.Basic

/-!
# Log messages

Analyses report what they do as messages with a level.  A log shows the messages
up to a level, one line each, with the name of the level in front.
-/

namespace TaintTrace

/-- The weight of a message, from errors to traces. -/
inductive Level where
  | error
  | warn
  | info
  | debug
  | trace
  deriving DecidableEq, Repr

namespace Level

def number : Level -> Int
  | error => 1
  | warn => 2
  | info => 3
  | debug => 4
  | trace => 5

def tag : Level -> Text
  | error => "[ERROR] "
  | warn => "[WARN] "
  | info => "[INFO] "
  | debug => "[DEBUG] "
  | trace => "[TRACE] "

end Level

structure Message where
  level : Level
  text : Text
  deriving DecidableEq, Repr

namespace Message

def shownAt (threshold : Int) (m : Message) : Bool :=
  m.level.number ≤ threshold

def line (m : Message) : Text :=
  (m.level.tag ++ m.text).endingLine

end Message

abbrev Log := List Message

namespace Log

def shown (threshold : Int) (log : Log) : List Text :=
  (log.filter (Message.shownAt threshold)).map Message.line

def render (threshold : Int) (log : Log) : Text :=
  (log.shown threshold).flatten

end Log
end TaintTrace
