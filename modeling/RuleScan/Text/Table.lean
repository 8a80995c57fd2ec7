/-!
Right-aligned tables: every cell is filled on the left to one blank more than the widest cell of
its column.
-/
namespace RuleScan.Text

/-- Fills on the left with blanks to the given width. -/
def padLeft (width : Nat) (s : String) : String :=
  String.ofList (List.replicate (width - s.length) ' ') ++ s

/-- The width of each column of `count` columns: that of its widest cell. -/
def columnWidths (count : Nat) (rows : List (List String)) : List Nat :=
  (List.range count).map fun i => rows.foldl (fun w row => max w (row.getD i "").length) 0

/-- One line for each row, without line ends. -/
def alignRight (count : Nat) (rows : List (List String)) : List String :=
  let widths := columnWidths count rows
  rows.map fun row => String.join (List.zipWith (fun w cell => padLeft (w + 1) cell) widths row)

end RuleScan.Text
