import StartupLatency.Text.Width
/-!
Tables with rounded corners. A cell may have several lines; a column is as wide as its widest line,
with a blank on either side.
-/

namespace StartupLatency

-- Every row has as many cells as there are headings.
structure Table where
  headings : List String
  rows : List (List String)
deriving DecidableEq

namespace Table

def cellWidth (cell : String) : Nat := Text.width cell.toList

def widths (table : Table) : List Nat :=
  table.rows.foldl (fun widths row => List.zipWith max widths (row.map cellWidth))
    (table.headings.map cellWidth)

def rule (left cross right : String) (widths : List Nat) : String :=
  left ++ Text.join cross (widths.map fun cells => String.ofList (List.replicate (cells + 2) '─')) ++
    right

def line (widths : List Nat) (pieces : List (List Char)) : String :=
  String.ofList ('│' :: (List.zipWith (fun cells piece => ' ' :: Text.padTo cells piece ++ [' ', '│'])
    widths pieces).flatten)

-- The lines of a row; a cell with fewer lines than the others is filled up with empty ones.
def rowLines (widths : List Nat) (row : List String) : List String :=
  let cells := row.map fun cell => Text.splitOn '\n' cell.toList
  let height := cells.foldl (fun most lines => max most lines.length) 1
  (List.range height).map fun index => line widths (cells.map fun lines => (lines[index]?).getD [])

def lines (table : Table) : List String :=
  let widths := table.widths
  [rule "╭" "┬" "╮" widths] ++ rowLines widths table.headings ++ [rule "├" "┼" "┤" widths] ++
    table.rows.flatMap (rowLines widths) ++
    if table.rows.isEmpty then [] else [rule "╰" "┴" "╯" widths]

end Table
end StartupLatency
