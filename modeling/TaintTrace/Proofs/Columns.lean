import Mathlib
import TaintTrace.Proofs.MappingReport
import TaintTrace.Text.Columns

/-!
# Columns lose nothing

Every cell stands on the line and at the column that its index gives it.  A line is the indent
and its cells, each filled up with spaces to one width, without the spaces at the end: since no
cell ends with a space, nothing of a cell is cut off.  Lines of several cells are no longer than
the width.
-/

namespace TaintTrace
namespace Columns

open Text

variable {cells row : List Text} {cell indent t : Text}

/-!
## Widths
-/

theorem foldl_max_cases (ns : List Nat) (start : Nat) :
    (start ≤ ns.foldl max start ∧ forall n, n ∈ ns -> n ≤ ns.foldl max start) ∧
      (ns.foldl max start = start ∨ ns.foldl max start ∈ ns) := by
  induction ns generalizing start with
  | nil => simp
  | cons n ns ih =>
      rw [List.foldl_cons]
      rcases ih (max start n) with ⟨⟨hstart, hall⟩, hmem⟩
      refine ⟨⟨by omega, List.forall_mem_cons.mpr ⟨by omega, hall⟩⟩, ?_⟩
      rcases hmem with heq | hmem
      · rw [heq, List.mem_cons]
        omega
      · exact Or.inr (List.mem_cons_of_mem n hmem)

/-- The width of a column is that of the longest cell and two more. -/
structure Longest (cells : List Text) (column : Nat) : Prop where
  bound : forall cell, cell ∈ cells -> cell.length + 2 ≤ column
  reached : column = 2 ∨ exists cell, cell ∈ cells ∧ column = cell.length + 2

theorem longest_columnWidth (cells : List Text) : Longest cells (columnWidth cells) := by
  rcases foldl_max_cases (cells.map List.length) 0 with ⟨⟨_, hall⟩, hmem⟩
  unfold columnWidth
  constructor
  · intro cell hcell
    exact Nat.add_le_add_right (hall _ (List.mem_map.mpr ⟨cell, hcell, rfl⟩)) 2
  · rcases hmem with hzero | hmem
    · rw [hzero]
      exact Or.inl rfl
    · rcases List.mem_map.mp hmem with ⟨cell, hcell, heq⟩
      rw [← heq]
      exact Or.inr ⟨cell, hcell, rfl⟩

theorem two_le_columnWidth (cells : List Text) : 2 ≤ columnWidth cells :=
  Nat.le_add_left 2 _

theorem toInt_room (width : Int64) (h : -2 ^ 63 ≤ width.toInt - indent.length) :
    (room indent width.toInt).toInt = width.toInt - indent.length := by
  have hupper := width.toInt_lt
  rw [room, ← Int64.ofInt_eq_ofNat, ← Int64.ofInt_sub, Int64.toInt_ofInt]
  apply Int.bmod_eq_of_le
  · change -9223372036854775808 ≤ _
    omega
  · change _ < 9223372036854775808
    omega

theorem cellsPerLine_pos (cells : List Text) (indent : Text) (width : Int) :
    0 < cellsPerLine cells indent width :=
  Nat.le_max_left 1 _

theorem cellsPerLine_eq_max (cells : List Text) (indent : Text) (width : Int) :
    (cellsPerLine cells indent width : Int) =
      max 1 ((room indent width).toInt.tdiv (columnWidth cells)) := by
  unfold cellsPerLine
  omega

/-!
## Rows
-/

theorem getElem?_rows {perLine fuel : Nat} (hper : 0 < perLine) (hfuel : cells.length ≤ fuel)
    (i : Nat) :
    (rows perLine fuel cells)[i]? =
      if i * perLine < cells.length then some ((cells.drop (i * perLine)).take perLine)
      else none := by
  induction fuel generalizing cells i with
  | zero =>
      rw [List.length_eq_zero_iff.mp (Nat.le_zero.mp hfuel)]
      rfl
  | succ fuel ih =>
      cases cells with
      | nil => simp [rows]
      | cons cell cells =>
          rw [rows]
          · cases i with
            | zero => simp
            | succ i =>
                have hrest : ((cell :: cells).drop perLine).length ≤ fuel := by
                  rw [List.length_drop, List.length_cons] at *
                  omega
                rw [List.getElem?_cons_succ, ih hrest, List.drop_drop, List.length_drop,
                  Nat.add_mul, Nat.one_mul, Nat.add_comm perLine]
                congr 1
                exact propext (by omega)
          · simp

/-- As many lines as it takes: the number of cells by the number per line, rounded up. -/
theorem length_rows {perLine fuel : Nat} (hper : 0 < perLine) (hfuel : cells.length ≤ fuel) :
    (rows perLine fuel cells).length = (cells.length + perLine - 1) / perLine := by
  apply eq_of_forall_lt_iff
  intro i
  have hceil : i < (cells.length + perLine - 1) / perLine <->
      i * perLine + perLine ≤ cells.length + perLine - 1 := by
    rw [Nat.lt_iff_add_one_le, Nat.le_div_iff_mul_le hper, Nat.add_mul, Nat.one_mul]
  rw [hceil, ← not_le, ← List.getElem?_eq_none_iff, getElem?_rows hper hfuel]
  split
  · simp only [reduceCtorEq, not_false_eq_true, true_iff]
    omega
  · simp only [not_true_eq_false, false_iff]
    omega

/-!
## Spaces at the end
-/

theorem getLast?_trimRight_ne (t : Text) : (trimRight t).getLast? ≠ some space := by
  rw [trimRight, List.getLast?_reverse]
  intro hhead
  have hfirst := List.head?_dropWhile_not (· == space) t.reverse
  rw [hhead] at hfirst
  exact absurd hfirst (by decide)

theorem getLast?_of_reaches {kept : Text} {start n : Nat}
    (hcell : ((kept ++ List.replicate n space).drop start).take cell.length = cell)
    (hreaches : kept.length < start + cell.length) (hcell_ne : cell ≠ []) :
    cell.getLast? = some space := by
  have hlt : cell.length - 1 < cell.length :=
    Nat.sub_lt (List.length_pos_iff.mpr hcell_ne) Nat.one_pos
  have hbyte : cell[cell.length - 1]? =
      (kept ++ List.replicate n space)[start + (cell.length - 1)]? :=
    calc cell[cell.length - 1]?
        = (((kept ++ List.replicate n space).drop start).take cell.length)[cell.length - 1]? := by
          rw [hcell]
      _ = (kept ++ List.replicate n space)[start + (cell.length - 1)]? := by
          rw [List.getElem?_take_of_lt hlt, List.getElem?_drop]
  rw [List.getElem?_append_right (by omega), List.getElem?_replicate] at hbyte
  rw [List.getLast?_eq_getElem?]
  split at hbyte
  · exact hbyte
  · rw [List.getElem?_eq_getElem hlt] at hbyte
    cases hbyte

/-- What stands in a text and does not end with a space stands there without the spaces at the
end too. -/
theorem take_drop_trimRight {start : Nat} (hcell : (t.drop start).take cell.length = cell)
    (hlast : cell.getLast? ≠ some space) :
    ((trimRight t).drop start).take cell.length = cell := by
  by_cases hempty : cell = []
  · rw [hempty]
    exact List.take_zero
  rcases trimRight_append_spaces t with ⟨n, hsplit⟩
  rw [← hsplit] at hcell
  have hinside : start + cell.length ≤ (trimRight t).length := by
    by_contra hreaches
    exact hlast (getLast?_of_reaches hcell (Nat.lt_of_not_le hreaches) hempty)
  rw [List.drop_append_of_le_length (by omega), List.take_append_of_le_length
    (by rw [List.length_drop]; omega)] at hcell
  exact hcell

/-!
## Lines
-/

def padded (column : Nat) (cell : Text) : Text :=
  cell ++ List.replicate (column - cell.length) space

theorem length_padded {column : Nat} (h : cell.length ≤ column) :
    (padded column cell).length = column := by
  rw [padded, List.length_append, List.length_replicate]
  omega

theorem length_flatMap_padded {column : Nat} (h : forall cell, cell ∈ row -> cell.length ≤ column) :
    (row.flatMap (padded column)).length = row.length * column := by
  induction row with
  | nil => simp
  | cons cell row ih =>
      rw [List.forall_mem_cons] at h
      rw [List.flatMap_cons, List.length_append, length_padded h.1, ih h.2, List.length_cons,
        Nat.add_mul, Nat.one_mul, Nat.add_comm]

theorem take_drop_flatMap_padded {column k : Nat}
    (h : forall cell, cell ∈ row -> cell.length ≤ column) (hk : row[k]? = some cell) :
    ((row.flatMap (padded column)).drop (k * column)).take cell.length = cell := by
  induction row generalizing k with
  | nil => cases hk
  | cons first row ih =>
      rw [List.forall_mem_cons] at h
      rw [List.flatMap_cons]
      cases k with
      | zero =>
          rw [List.getElem?_cons_zero, Option.some.injEq] at hk
          rw [hk, Nat.zero_mul, List.drop_zero, padded, List.append_assoc, List.take_left]
      | succ k =>
          have hstart : (k + 1) * column = (padded column first).length + k * column := by
            rw [length_padded h.1, Nat.add_mul, Nat.one_mul, Nat.add_comm]
          rw [hstart, ← List.drop_drop, List.drop_left]
          exact ih h.2 hk

/-- A line is the indent and the filled up cells, up to the last byte that is no space. -/
structure LineOf (indent : Text) (column : Nat) (row : List Text) (line : Text) : Prop where
  filled : exists n, line ++ List.replicate n space = indent ++ row.flatMap (padded column)
  trimmed : line.getLast? ≠ some space

theorem lineOf_line (indent : Text) (column : Nat) (row : List Text) :
    LineOf indent column row (line indent column row) :=
  ⟨trimRight_append_spaces _, getLast?_trimRight_ne _⟩

theorem LineOf.length_le {column : Nat} {l : Text} (hl : LineOf indent column row l)
    (h : forall cell, cell ∈ row -> cell.length ≤ column) :
    l.length ≤ indent.length + row.length * column := by
  rcases hl.filled with ⟨n, hfilled⟩
  have hlength := congrArg List.length hfilled
  rw [List.length_append, List.length_append, length_flatMap_padded h] at hlength
  omega

theorem LineOf.newline_not_mem {column : Nat} {l : Text} (hl : LineOf indent column row l)
    (hindent : newline ∉ indent) (h : forall cell, cell ∈ row -> newline ∉ cell) :
    newline ∉ l := by
  rcases hl.filled with ⟨n, hfilled⟩
  intro hmem
  have hmem : newline ∈ indent ++ row.flatMap (padded column) := by
    rw [← hfilled]
    exact List.mem_append_left _ hmem
  rcases List.mem_append.mp hmem with hmem | hmem
  · exact hindent hmem
  · rcases List.mem_flatMap.mp hmem with ⟨cell, hcell, hmem⟩
    rcases List.mem_append.mp hmem with hmem | hmem
    · exact h cell hcell hmem
    · exact absurd (List.mem_replicate.mp hmem).2 (by decide)

theorem take_drop_line {column k : Nat} (h : forall cell, cell ∈ row -> cell.length ≤ column)
    (hk : row[k]? = some cell) (hlast : cell.getLast? ≠ some space) :
    ((line indent column row).drop (indent.length + k * column)).take cell.length = cell := by
  refine take_drop_trimRight ?_ hlast
  change (((indent ++ row.flatMap (padded column)).drop _).take _) = _
  rw [← List.drop_drop, List.drop_left]
  exact take_drop_flatMap_padded h hk

/-!
## Layouts
-/

def rowAt (cells : List Text) (perLine i : Nat) : List Text :=
  (cells.drop (i * perLine)).take perLine

theorem getElem?_layout (cells : List Text) (indent : Text) (width : Int) (i : Nat) :
    (layout cells indent width)[i]? =
      if i * cellsPerLine cells indent width < cells.length then
        some (line indent (columnWidth cells) (rowAt cells (cellsPerLine cells indent width) i))
      else none := by
  rw [layout, List.getElem?_map, getElem?_rows (cellsPerLine_pos cells indent width) le_rfl]
  split
  · rfl
  · rfl

theorem length_layout (cells : List Text) (indent : Text) (width : Int) :
    (layout cells indent width).length =
      (cells.length + cellsPerLine cells indent width - 1) / cellsPerLine cells indent width := by
  rw [layout, List.length_map, length_rows (cellsPerLine_pos cells indent width) le_rfl]

theorem length_le_of_mem_rowAt {perLine i : Nat} :
    forall cell, cell ∈ rowAt cells perLine i -> cell.length ≤ columnWidth cells := by
  intro cell hcell
  have hbound := (longest_columnWidth cells).bound cell
    (List.mem_of_mem_drop (List.mem_of_mem_take hcell))
  omega

/-- A cell is on the line that its index gives, behind the cells before it on that line. -/
theorem getElem?_rowAt {perLine j : Nat} (hper : 0 < perLine) :
    (rowAt cells perLine (j / perLine))[j % perLine]? = cells[j]? := by
  rw [rowAt, List.getElem?_take_of_lt (Nat.mod_lt j hper), List.getElem?_drop,
    Nat.mul_comm, Nat.div_add_mod]

theorem mul_columnWidth_le {width : Int} (h : 1 < cellsPerLine cells indent width) :
    (cellsPerLine cells indent width * columnWidth cells : Int) ≤ (room indent width).toInt := by
  have hcolumn := two_le_columnWidth cells
  have hper := cellsPerLine_eq_max cells indent width
  have hquotient : (cellsPerLine cells indent width : Int) =
      (room indent width).toInt.tdiv (columnWidth cells) := by
    omega
  have hroom : 0 ≤ (room indent width).toInt := by
    by_contra hnegative
    have hnonneg : 0 ≤ (-(room indent width).toInt).tdiv (columnWidth cells) :=
      Int.tdiv_nonneg (by omega) (by omega)
    rw [Int.neg_tdiv] at hnonneg
    omega
  rw [hquotient, Int.mul_comm]
  exact Int.mul_tdiv_self_le hroom

/-- Cells that do not end with a space are laid out without loss.  With columns as wide as the
longest cell and two more, and as many cells on a line as fit behind the indent, but at least
one, cell `j` stands on line `j / p` behind the indent and `j % p` columns, and there are no more
lines than that takes.  A line of several cells is no longer than the width.  What the width
leaves behind the indent has to be a number of 64 bits. -/
theorem layout_exact (cells : List Text) (indent : Text) (width : Int64)
    (hcells : forall cell, cell ∈ cells -> cell.getLast? ≠ some space ∧ newline ∉ cell)
    (hfits : -2 ^ 63 ≤ width.toInt - indent.length) :
    let c := columnWidth cells
    let p := cellsPerLine cells indent width.toInt
    let ls := layout cells indent width.toInt
    Longest cells c ∧
    (p : Int) = max 1 ((width.toInt - indent.length).tdiv c) ∧
    ls.length = (cells.length + p - 1) / p ∧
    (forall i l, ls[i]? = some l -> LineOf indent c (rowAt cells p i) l) ∧
    (forall j cell, cells[j]? = some cell -> exists l, ls[j / p]? = some l ∧
      (l.drop (indent.length + j % p * c)).take cell.length = cell) ∧
    (newline ∉ indent -> Text.lines (Text.ofLines ls) = ls.map (· ++ [newline])) ∧
    forall i l, ls[i]? = some l -> 1 < (rowAt cells p i).length ->
      (l.length : Int) ≤ width.toInt := by
  intro c p ls
  have hp : 0 < p := cellsPerLine_pos cells indent width.toInt
  have hline : forall i l, ls[i]? = some l -> LineOf indent c (rowAt cells p i) l := by
    intro i l hl
    rw [getElem?_layout] at hl
    split at hl
    · cases hl
      exact lineOf_line _ _ _
    · cases hl
  refine ⟨longest_columnWidth cells, ?_, length_layout cells indent width.toInt, hline, ?_, ?_,
    ?_⟩
  · rw [cellsPerLine_eq_max, toInt_room width hfits]
  · intro j cell hj
    have hcell := hcells cell (List.mem_of_getElem? hj)
    have hlt : j / p * p < cells.length :=
      Nat.lt_of_le_of_lt (Nat.div_mul_le_self j p) (List.getElem?_eq_some_iff.mp hj).1
    refine ⟨_, (getElem?_layout cells indent width.toInt (j / p)).trans (if_pos hlt), ?_⟩
    exact take_drop_line length_le_of_mem_rowAt ((getElem?_rowAt hp).trans hj) hcell.1
  · intro hindent
    rw [Text.ofLines, List.flatMap_def]
    apply Text.lines_flatten
    intro ended hended
    rcases List.mem_map.mp hended with ⟨l, hl, rfl⟩
    rcases List.mem_iff_getElem?.mp hl with ⟨i, hi⟩
    refine ⟨l, rfl, (hline i l hi).newline_not_mem hindent ?_⟩
    intro cell hcell
    exact (hcells cell (List.mem_of_mem_drop (List.mem_of_mem_take hcell))).2
  · intro i l hl hseveral
    have hrow : (rowAt cells p i).length ≤ p := List.length_take_le _ _
    have hlength := (hline i l hl).length_le length_le_of_mem_rowAt
    have hroom := mul_columnWidth_le (Nat.lt_of_lt_of_le hseveral hrow)
    rw [toInt_room width hfits] at hroom
    have hmul : (rowAt cells p i).length * c ≤ p * c := Nat.mul_le_mul_right c hrow
    have hcast : ((p * c : Nat) : Int) ≤ width.toInt - indent.length := by
      rw [Nat.cast_mul]
      exact hroom
    omega

def quartet : List Text := ["a[1]", "a[22]", "", "c[4]"]

theorem layout_exact_quartet :
    (forall cell, cell ∈ quartet -> cell.getLast? ≠ some space ∧ newline ∉ cell) ∧
    -2 ^ 63 ≤ (16 : Int64).toInt - (("  " : Text).length : Int) ∧
    layout quartet "  " (16 : Int64).toInt = ["  a[1]   a[22]", "         c[4]"] ∧
    LineOf "  " 7 [[], "c[4]"] "         c[4]" ∧
    exists l, (layout quartet "  " (16 : Int64).toInt)[1]? = some l ∧
      (l.drop 9).take 4 = ("c[4]" : Text) ∧ (l.length : Int) ≤ 16 := by
  have hcells : forall cell, cell ∈ quartet -> cell.getLast? ≠ some space ∧ newline ∉ cell := by
    decide
  have hlayout : layout quartet "  " (16 : Int64).toInt = ["  a[1]   a[22]", "         c[4]"] :=
    rfl
  rcases layout_exact quartet "  " 16 hcells (by decide) with
    ⟨_, _, _, hline, hcell, _, hwidth⟩
  refine ⟨hcells, by decide, hlayout, hline 1 _ rfl, ?_⟩
  rcases hcell 3 "c[4]" rfl with ⟨l, hl, htake⟩
  exact ⟨l, hl, htake, hwidth 1 l hl (by decide)⟩

end Columns
end TaintTrace
