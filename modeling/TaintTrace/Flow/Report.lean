import TaintTrace.Flow.Cavity
import TaintTrace.Text.Escaped

/-!
# Cavity reports

A report has a line for each cavity.  With contents, two lines follow for each
cavity whose file can be read: the bytes of the cavity with some bytes around them,
and carets under the bytes of the cavity.  Every file is read once.
-/

namespace TaintTrace
namespace CavityReport

def lineOf (c : Cavity) : Text :=
  c.text ++ "\n"

def plain (cavities : List Cavity) : Text :=
  cavities.flatMap lineOf

/-- The bytes before a cavity, its own, and those after it. -/
structure Excerpt where
  before : Text
  within : Text
  after : Text

def clamp (size x : UInt64) : UInt64 :=
  if size < x then size else x

def slice (content : Text) (first stop : UInt64) : Text :=
  (content.drop first.toNat).take (stop.toNat - first.toNat)

/-- A cavity in the contents of its file, with up to `n` bytes on each side. -/
def excerpt (content : Text) (c : Cavity) (n : UInt64) : Excerpt :=
  let size := UInt64.ofNat content.length
  let first := clamp size c.first
  let stop := if clamp size c.stop < first then first else clamp size c.stop
  let start := if n < first then first - n else 0
  ⟨slice content start first, slice content first stop,
    slice content stop (clamp size (stop + n))⟩

/-- The two lines of an excerpt: the bytes, and a mark below each byte of the cavity. -/
def excerptLines (e : Excerpt) : List Text :=
  ["\t\"" ++ e.before.escaped ++ e.within.escaped ++ e.after.escaped ++ "\"\n",
    "\t " ++ List.replicate e.before.escaped.length Text.space
      ++ List.replicate e.within.escaped.length (Text.byte '^') ++ "\n"]

abbrev FileContent := Except Text Text

def unreadable (path cause : Text) : Message :=
  ⟨.warn, "could not read " ++ path ++ ", its cavities are printed without contents: " ++ cause⟩

/-- A piece of a report as it is written: a line, or a message for the log. -/
inductive Piece where
  | line (t : Text)
  | warning (m : Message)

/-- A report with contents, as it is written: its pieces and the files read, both in
order. -/
structure Written where
  pieces : List Piece
  reads : List Text

namespace Written

def text (w : Written) : Text :=
  w.pieces.flatMap fun
    | .line t => t
    | .warning _ => []

def log (w : Written) : Log :=
  w.pieces.filterMap fun
    | .line _ => none
    | .warning m => some m

end Written

/-- Write the cavities of a list, given the files read before. -/
def writeFrom (readFile : Text -> FileContent) (n : UInt64) (known : List (Text × FileContent)) :
    List Cavity -> Written
  | [] => ⟨[], []⟩
  | c :: cavities =>
      let lines (content : FileContent) : List Piece :=
        match content with
        | .ok content => (excerptLines (excerpt content c n)).map .line
        | .error _ => []
      match known.find? (·.1 == c.path) with
      | some (_, content) =>
          let rest := writeFrom readFile n known cavities
          ⟨.line (lineOf c) :: lines content ++ rest.pieces, rest.reads⟩
      | none =>
          let content := readFile c.path
          let warnings : List Piece :=
            match content with
            | .ok _ => []
            | .error cause => [.warning (unreadable c.path cause)]
          let rest := writeFrom readFile n ((c.path, content) :: known) cavities
          ⟨.line (lineOf c) :: warnings ++ lines content ++ rest.pieces, c.path :: rest.reads⟩

/-- A report with contents; a negative number of bytes around cavities counts as
none. -/
def withContext (readFile : Text -> FileContent) (contextBytes : Int) (cavities : List Cavity) :
    Written :=
  writeFrom readFile (UInt64.ofNat contextBytes.toNat) [] cavities

end CavityReport
end TaintTrace
