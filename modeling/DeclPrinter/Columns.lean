/-!
# Columns

Rows of cells laid out so that cells stand below each other, as in the body of a Go
struct. Every cell but the last of its row is followed by blanks up to the next
column. A column is aligned over a run of neighbouring rows that all have a cell to
its right: a row without one interrupts the column and starts it anew. Within a run
the widest cell of the column is followed by one blank.
-/

namespace DeclPrinter.Columns

/-- The cells of a row, left to right. -/
abbrev Row : Type :=
  List String

/-- Whether the row has a cell to the right of the column. -/
def continues (column : Nat) (row : Row) : Bool :=
  column + 1 < row.length

/-- The rows of the run that `row` is in, when `above` are the rows above it, nearest
first, and `below` those below it. -/
def runOf (column : Nat) (above : List Row) (row : Row) (below : List Row) : List Row :=
  (above.takeWhile (continues column)).reverse ++ row :: below.takeWhile (continues column)

/-- How many characters the cell of a column has. -/
def cellLength (column : Nat) (row : Row) : Nat :=
  (row.getD column "").length

/-- The width of a column over a run of rows, with the blank after the widest cell. -/
def width (column : Nat) (run : List Row) : Nat :=
  (run.map (cellLength column)).foldl max 0 + 1

/-- A cell followed by blanks up to a width. -/
def pad (width : Nat) (cell : String) : String :=
  cell ++ String.ofList (List.replicate (width - cell.length) ' ')

/-- The cells of a row as a line; `widths` are the widths of its columns. -/
def joinRow : List Nat → Row → String
  | _, [] => ""
  | _, [cell] => cell
  | widths, cell :: rest => pad (widths.headD 0) cell ++ joinRow widths.tail rest

/-- The lines of rows below the rows `above`, nearest first. -/
def layOutBelow (above : List Row) : List Row → List String
  | [] => []
  | row :: below =>
    let widths := (List.range (row.length - 1)).map fun column =>
      width column (runOf column above row below)
    joinRow widths row :: layOutBelow (row :: above) below

/-- The rows as lines, one per row. -/
def layOut (rows : List Row) : List String :=
  layOutBelow [] rows

end DeclPrinter.Columns
