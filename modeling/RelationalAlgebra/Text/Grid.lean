import RelationalAlgebra.Text.Lines
import RelationalAlgebra.Text.Width

/-!
# Text tables

A grid draws a header and rows of cells between box-drawing lines. A column is as wide as its widest
line, cells are filled up on the right, and a cell with line breaks takes several lines. A row with
too few cells is filled up with empty ones.
-/
namespace RelationalAlgebra.Grid

/-- The characters of a horizontal line: its ends, what crosses a column border, and the rest. -/
structure Rule where
  left : String
  middle : String
  right : String
  fill : Char

def top : Rule := ⟨"╭", "┬", "╮", '─'⟩

def underHeader : Rule := ⟨"╞", "╪", "╡", '═'⟩

def betweenRows : Rule := ⟨"├", "┼", "┤", '╌'⟩

def bottom : Rule := ⟨"╰", "┴", "╯", '─'⟩

/-- The width of a cell is that of its widest line. -/
def cellWidth (cell : String) : Nat := ((Text.lines cell).map Width.ofText).foldl max 0

/-- Widens columns so that the cells of a row fit. -/
def widen : List Nat → List String → List Nat
  | w :: widths, cell :: cells => max w (cellWidth cell) :: widen widths cells
  | widths, _ => widths

def columnWidths (header : List String) (rows : List (List String)) : List Nat :=
  rows.foldl widen (header.map cellWidth)

def Rule.draw (r : Rule) (widths : List Nat) : String :=
  r.left ++ r.middle.intercalate (widths.map fun w => "".pushn r.fill (w + 2)) ++ r.right

/-- A line of a cell between blanks, filled up to a width. -/
def pad (width : Nat) (line : String) : String :=
  " " ++ line ++ "".pushn ' ' (width - Width.ofText line) ++ " "

/-- The lines of each cell of a row; columns without a cell have one empty line. -/
def linesOfRow (widths : List Nat) (cells : List String) : List (List String) :=
  match widths, cells with
  | _ :: widths, cell :: cells => Text.lines cell :: linesOfRow widths cells
  | _ :: widths, [] => [""] :: linesOfRow widths []
  | [], _ => []

/-- A row as lines between vertical borders. -/
def drawRow (widths : List Nat) (cells : List String) : List String :=
  let lines := linesOfRow widths cells
  let height := (lines.map List.length).foldl max 0
  (List.range height).map fun i =>
    "│" ++ "┆".intercalate (List.zipWith (fun w ls => pad w (ls.getD i "")) widths lines) ++ "│"

/-- The lines of the rows, with a rule between two rows. -/
def drawRows (widths : List Nat) : List (List String) → List String
  | [] => []
  | [row] => drawRow widths row
  | row :: rows => drawRow widths row ++ betweenRows.draw widths :: drawRows widths rows

/-- The whole grid, its lines separated by line breaks. -/
def draw (header : List String) (rows : List (List String)) : String :=
  let widths := columnWidths header rows
  "\n".intercalate <|
    top.draw widths :: drawRow widths header ++ underHeader.draw widths :: drawRows widths rows ++
      [bottom.draw widths]

end RelationalAlgebra.Grid
