import TaintTrace.Text.Basic

/-!
# Columns

Cells are laid out in columns of one width, as many as fit, line by line.  At least
one cell stands on each line.
-/

namespace TaintTrace
namespace Columns

/-- The width of a column: the longest cell and two spaces. -/
def columnWidth (cells : List Text) : Nat :=
  (cells.map List.length).foldl max 0 + 2

/-- What a width leaves for cells behind the indent.  Widths and lengths have 64 bits, and so
has their difference. -/
def room (indent : Text) (width : Int) : Int64 :=
  Int64.ofInt width - Int64.ofNat indent.length

def cellsPerLine (cells : List Text) (indent : Text) (width : Int) : Nat :=
  max 1 ((room indent width).toInt.tdiv (columnWidth cells)).toNat

def trimRight (t : Text) : Text :=
  (t.reverse.dropWhile (· == Text.space)).reverse

def line (indent : Text) (column : Nat) (cells : List Text) : Text :=
  trimRight (indent ++ cells.flatMap fun c => c ++ List.replicate (column - c.length) Text.space)

/-- Cut cells into lines.  The fuel is a bound on their number. -/
def rows (perLine : Nat) : (fuel : Nat) -> List Text -> List (List Text)
  | 0, _ => []
  | _, [] => []
  | fuel + 1, cells => cells.take perLine :: rows perLine fuel (cells.drop perLine)

def layout (cells : List Text) (indent : Text) (width : Int) : List Text :=
  (rows (cellsPerLine cells indent width) cells.length cells).map
    (line indent (columnWidth cells))

end Columns
end TaintTrace
