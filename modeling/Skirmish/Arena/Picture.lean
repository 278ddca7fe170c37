import Skirmish.Arena.Board

/-!
# The board as text

A line for each row and a cell for each tile: the serial number of the unit that
stands there, or an `X`.  Cells are as wide as the widest of their column, and
there is a tab between neighbours.
-/

namespace Skirmish.Arena

/-- The text of a free tile. -/
def freeCell : String := "X"

/-- A cell filled up with spaces. -/
def padded (width : Nat) (cell : String) : String :=
  cell ++ String.ofList (List.replicate (width - cell.length) ' ')

/-- The widths of columns, widened where a row needs it. -/
def widen (widths : List Nat) (row : List String) : List Nat :=
  List.zipWith (fun width cell ↦ max width cell.length) widths row

namespace Board

variable {ρ : Type}

/-- The text of a tile. -/
def cellText (b : Board ρ) (occupant : Option Serial) : String :=
  match occupant.bind b.unit? with
  | some u => toString u.serial
  | none => freeCell

/-- The texts of the tiles, row by row. -/
def cellTexts (b : Board ρ) : List (List String) :=
  b.tiles.rows.map fun row ↦ row.map b.cellText

/-- The board as text. -/
def picture (b : Board ρ) : String :=
  let cells := b.cellTexts
  let widths := cells.foldl widen (List.replicate b.torus.cols 0)
  "\n".intercalate (cells.map fun row ↦ "\t".intercalate (List.zipWith padded widths row))

end Board

end Skirmish.Arena
