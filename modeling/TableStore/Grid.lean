import TableStore.Text.Quoted
import TableStore.Value

/-
Tables in plain text.

A border line of `+` and `-`, the column names, a border, and, if there are rows, the rows and one
more border.  A column is as wide as its longest cell, counted in characters.

`render` lays out a table of any width.  The program fills up texts by a formatter that takes a width
as a number of 16 bits and breaks off at a greater one, so it has the text of a table only if no column
is wider than that (`render?`).
-/
namespace TableStore
namespace Grid

/-- The text of a cell.  Texts are quoted, so that `"1"` and `1` look different. -/
def cell : Value → String
  | .str s => Text.quoted s
  | v => v.text

/-- The widths after one more row; cells beyond the last column have no width. -/
def widen : List Nat → List String → List Nat
  | w :: ws, c :: cs => max w c.length :: widen ws cs
  | ws, _ => ws

def widths (columns : List String) (cells : List (List String)) : List Nat :=
  cells.foldl widen (columns.map String.length)

def border (widths : List Nat) : String :=
  String.ofList ('+' :: widths.flatMap fun w => List.replicate (w + 2) '-' ++ ['+'])

/-- A text filled up to a width, which for the formatter is at most `widthLimit`. -/
def pad (width : Nat) (s : String) : List Char :=
  s.toList ++ List.replicate (width - s.length) ' '

/-- A row of cells, each padded to its column.  A row that is too short ends after its last cell. -/
def line (widths : List Nat) (cells : List String) : String :=
  String.ofList ('|' :: (widths.zip cells).flatMap fun (w, c) => ' ' :: pad w c ++ [' ', '|'])

def render (columns : List String) (rows : List (List Value)) : String :=
  let cells := rows.map (·.map cell)
  let ws := widths columns cells
  let head := [border ws, line ws columns, border ws]
  let body := if cells.isEmpty then [] else cells.map (line ws) ++ [border ws]
  String.intercalate "\n" (head ++ body)

/-- The greatest width to which the formatter fills up a text. -/
def widthLimit : Nat := 65535

/-- The text of a table, which there is only if every column can be filled up: the line of the column
names already asks for every width. -/
def render? (columns : List String) (rows : List (List Value)) : Option String :=
  let ws := widths columns (rows.map (·.map cell))
  if ∀ w ∈ ws, w ≤ widthLimit then some (render columns rows) else none

end Grid
end TableStore
