import SourceOutline.Metamodel.Entity
import SourceOutline.Text.Split
import SourceOutline.Text.Width

/-
  Tables with rounded corners: a header, a rule under it, and rows. Cells are left-aligned with a
  space on both sides; a cell may have several lines, and a row is as high as its highest cell.
-/

namespace SourceOutline.Table

def cellLines (cell : String) : List String := Text.splitOn '\n' cell

def cellWidth (cell : String) : Nat := ((cellLines cell).map Text.width).foldl max 0

/-- The width of each column: that of its widest line. -/
def columnWidths (rows : List (List String)) : List Nat :=
  match rows with
  | [] => []
  | row :: rows =>
    rows.foldl (fun ws r => List.zipWith max ws (r.map cellWidth)) (row.map cellWidth)

def padTo (n : Nat) (s : String) : String := s.pushn ' ' (n - Text.width s)

/-- One line of a row, from the pieces of its cells. -/
def line (widths : List Nat) (pieces : List String) : String :=
  "│" ++ "│".intercalate (List.zipWith (fun w p => " " ++ padTo w p ++ " ") widths pieces) ++ "│"

/-- The lines of a row; short cells are filled up with empty lines. -/
def rowLines (widths : List Nat) (row : List String) : List String :=
  let cells := row.map cellLines
  let height := (cells.map List.length).foldl max 0
  (List.range height).map fun i => line widths (cells.map fun cell => cell[i]?.getD "")

/-- A horizontal line of the frame. -/
def rule (left middle right : String) (widths : List Nat) : String :=
  left ++ middle.intercalate (widths.map fun w => "".pushn '─' (w + 2)) ++ right

/-- A table with a header, without a newline at its end; nothing if there are no rows. -/
def render (header : List String) (rows : List (List String)) : String :=
  if rows.isEmpty then ""
  else
    let widths := columnWidths (header :: rows)
    "\n".intercalate ([rule "╭" "┬" "╮" widths] ++ rowLines widths header
      ++ [rule "├" "┼" "┤" widths] ++ rows.flatMap (rowLines widths) ++ [rule "╰" "┴" "╯" widths])

/-! ## The tables of the program -/

/-- A feature by its name, with a star if it holds many values. -/
def featureText (name : String) : Multiplicity → String
  | .single => name
  | .multiple => name ++ "*"

def entityRow (e : Entity) : List String :=
  [e.name, ", ".intercalate (e.properties.map fun p => featureText p.name p.multiplicity),
    ", ".intercalate (e.relations.map fun r => featureText r.name r.multiplicity)]

def entities (es : List Entity) : String :=
  render ["Entity", "Properties", "Relations"] (es.map entityRow)

def stats (rows : List (String × String)) : String :=
  render ["Metric", "Value"] (rows.map fun r => [r.1, r.2])

end SourceOutline.Table
