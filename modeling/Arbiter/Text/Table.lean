/-!
# Tables

A table of texts in a frame of lines.  Every column is as wide as its widest cell, with a blank on
both sides; a double line stands below the heading and a dotted one between two rows.
-/

namespace Arbiter.Text.Table

/-- A line of a frame: how it begins, what it runs along, how it passes a column and how it
ends. -/
structure Rule where
  left : String
  /-- What stands above or below a cell. -/
  along : Char
  /-- The crossing with the line between two columns. -/
  cross : String
  right : String

/-- The line above a table. -/
def top : Rule := ⟨"┌", '─', "┬", "┐"⟩

/-- The line below the heading. -/
def belowHeading : Rule := ⟨"╞", '═', "╪", "╡"⟩

/-- The line between two rows. -/
def between : Rule := ⟨"├", '╌', "┼", "┤"⟩

/-- The line below a table. -/
def bottom : Rule := ⟨"└", '─', "┴", "┘"⟩

/-- The widths of the columns: as many as the heading has, each as wide as its widest cell. -/
def widths (heading : List String) (rows : List (List String)) : List Nat :=
  rows.foldl (fun widths row => List.zipWith max widths (row.map String.length))
    (heading.map String.length)

/-- A line of the frame. -/
def ruleLine (rule : Rule) (widths : List Nat) : String :=
  rule.left ++ rule.cross.intercalate
    (widths.map fun width => String.ofList (List.replicate (width + 2) rule.along)) ++ rule.right

/-- A cell filled up to a width. -/
def cell (width : Nat) (text : String) : String :=
  " " ++ text ++ String.ofList (List.replicate (width - text.length) ' ') ++ " "

/-- A line of cells. -/
def cellLine (widths : List Nat) (row : List String) : String :=
  "│" ++ "┆".intercalate (List.zipWith cell widths row) ++ "│"

/-- The lines of a table. -/
def lines (heading : List String) (rows : List (List String)) : List String :=
  let widths := widths heading rows
  [ruleLine top widths, cellLine widths heading, ruleLine belowHeading widths] ++
    (rows.map (cellLine widths)).intersperse (ruleLine between widths) ++
    [ruleLine bottom widths]

/-- A table under a heading. -/
def render (heading : List String) (rows : List (List String)) : String :=
  "\n".intercalate (lines heading rows)

end Arbiter.Text.Table
