import Skirmish.Arena.Torus

/-!
# Tiles

Which unit stands on which tile.  A tile is known by its number, so a location
beyond the right edge is the same tile as one further down; a location whose
number is too great has no tile, is always free, and cannot be taken.

Main statement: a tile that is set is found again, and no other tile changes
(`at?_set`).
-/

namespace Skirmish.Arena

/-- The number that a unit gets when it is spawned.  It is never given again, so
the number of a unit that is gone belongs to nobody. -/
abbrev Serial := Nat

/-- The occupants of the tiles of a torus, row by row. -/
structure Tiles where
  torus : Torus
  cells : Array (Option Serial)
  size_cells : cells.size = torus.size

namespace Tiles

/-- Tiles without any unit. -/
def empty (t : Torus) : Tiles := ⟨t, Array.replicate t.size none, by simp⟩

/-- The unit at a location. -/
def at? (g : Tiles) (l : Location) : Option Serial := (g.cells[g.torus.index l]?).join

/-- Whether no unit is at a location. -/
def isFree (g : Tiles) (l : Location) : Bool := (g.at? l).isNone

/-- Make a unit, or nobody, the occupant of a location. -/
def set (g : Tiles) (l : Location) (occupant : Option Serial) : Tiles where
  torus := g.torus
  cells := g.cells.setIfInBounds (g.torus.index l) occupant
  size_cells := by rw [Array.size_setIfInBounds, g.size_cells]

/-- Put a unit at a location. -/
def place (g : Tiles) (l : Location) (unit : Serial) : Tiles := g.set l (some unit)

/-- Make a location free. -/
def clear (g : Tiles) (l : Location) : Tiles := g.set l none

/-- The occupants, a list for each row. -/
def rows (g : Tiles) : List (List (Option Serial)) :=
  (List.range g.torus.rows).map fun row ↦
    (List.range g.torus.cols).map fun col ↦ g.at? ⟨row, col⟩

/-- The first free location, row by row. -/
def firstFree? (g : Tiles) : Option Location :=
  ((List.range g.torus.size).find? fun i ↦ g.isFree (g.torus.ofIndex i)).map g.torus.ofIndex

@[simp] theorem torus_empty (t : Torus) : (empty t).torus = t := rfl

@[simp] theorem torus_set (g : Tiles) (l : Location) (o : Option Serial) :
    (g.set l o).torus = g.torus := rfl

@[simp] theorem at?_empty (t : Torus) (l : Location) : (empty t).at? l = none := by
  simp only [at?, empty, Array.getElem?_replicate]
  split <;> rfl

/-- Setting a tile changes what is found under its number and nothing else. -/
theorem at?_set (g : Tiles) (l : Location) (o : Option Serial) (m : Location) :
    (g.set l o).at? m =
      if g.torus.index m = g.torus.index l ∧ g.torus.index l < g.torus.size then o
      else g.at? m := by
  simp only [at?, set, Array.getElem?_setIfInBounds, g.size_cells]
  by_cases h : g.torus.index m = g.torus.index l
  · by_cases hl : g.torus.index l < g.torus.size
    · simp [h, hl]
    · have : g.cells.size ≤ g.torus.index l := by rw [g.size_cells]; omega
      simp [h, hl, Array.getElem?_eq_none this]
  · have h' : ¬ g.torus.index l = g.torus.index m := fun e ↦ h e.symm
    simp [h, h']

end Tiles

end Skirmish.Arena
