import Skirmish.Random.Source

/-!
# The torus

Boards wrap round: whoever leaves at one edge comes in at the opposite one.  A
location is a row and a column, both counted from 0; its neighbours are the
tiles a king reaches in one move, and the distance of two locations is the
number of moves a king needs.

Locations beyond the edges are not forbidden.  They have an index like any
other, the one that counting along the rows gives them.
-/

namespace Skirmish.Arena

open Skirmish.Random

/-- A row and a column. -/
structure Location where
  row : Nat
  col : Nat
deriving DecidableEq

/-- A location as it is printed. -/
def Location.text (l : Location) : String :=
  let row := l.row
  let col := l.col
  s!"[{row}, {col}]"

/-- The size of a board. -/
structure Torus where
  rows : Nat
  cols : Nat
  rows_pos : 0 < rows
  cols_pos : 0 < cols

namespace Torus

/-- The torus with so many rows and columns, if there are any. -/
def ofSides? (rows cols : Nat) : Option Torus :=
  if h : 0 < rows ∧ 0 < cols then some ⟨rows, cols, h.1, h.2⟩ else none

/-- The number of tiles. -/
def size (t : Torus) : Nat := t.rows * t.cols

/-- The locations on the board. -/
def Contains (t : Torus) (l : Location) : Prop := l.row < t.rows ∧ l.col < t.cols

instance (t : Torus) (l : Location) : Decidable (t.Contains l) :=
  inferInstanceAs (Decidable (_ ∧ _))

/-- The number of a location when tiles are counted row by row. -/
def index (t : Torus) (l : Location) : Nat := l.row * t.cols + l.col

/-- The location with a number. -/
def ofIndex (t : Torus) (i : Nat) : Location := ⟨i / t.cols, i % t.cols⟩

/-- One step up or to the left along an axis. -/
def before (side i : Nat) : Nat := (i + side - 1) % side

/-- One step down or to the right along an axis. -/
def after (side i : Nat) : Nat := (i + 1) % side

/-- The eight tiles around a location, row by row from the top left. -/
def neighbours (t : Torus) (l : Location) : List Location :=
  let up := before t.rows l.row
  let down := after t.rows l.row
  let left := before t.cols l.col
  let right := after t.cols l.col
  [⟨up, left⟩, ⟨up, l.col⟩, ⟨up, right⟩,
    ⟨l.row, left⟩, ⟨l.row, right⟩,
    ⟨down, left⟩, ⟨down, l.col⟩, ⟨down, right⟩]

/-- The distance along one axis, the shorter way round. -/
def axisDistance (side i j : Nat) : Nat :=
  let d := (i - j) + (j - i)
  min d (side - d)

/-- The least number of king moves. -/
def distance (t : Torus) (a b : Location) : Nat :=
  max (axisDistance t.rows a.row b.row) (axisDistance t.cols a.col b.col)

@[simp] theorem length_neighbours (t : Torus) (l : Location) : (t.neighbours l).length = 8 := rfl

/-- On the board the numbers are those below the number of tiles. -/
theorem index_lt {t : Torus} {l : Location} (h : t.Contains l) : t.index l < t.size := by
  have := Nat.mul_le_mul_right t.cols (Nat.succ_le_of_lt h.1)
  rw [Nat.succ_mul] at this
  have := h.2
  unfold index size
  omega

/-- On the board a location is found again by its number. -/
theorem ofIndex_index {t : Torus} {l : Location} (h : t.Contains l) :
    t.ofIndex (t.index l) = l := by
  have hc : (l.row * t.cols + l.col) / t.cols = l.row := by
    rw [Nat.mul_comm, Nat.mul_add_div t.cols_pos, Nat.div_eq_of_lt h.2, Nat.add_zero]
  have hm : (l.row * t.cols + l.col) % t.cols = l.col := by
    rw [Nat.mul_comm, Nat.mul_add_mod, Nat.mod_eq_of_lt h.2]
  simp [ofIndex, index, hc, hm]

theorem contains_ofIndex {t : Torus} {i : Nat} (h : i < t.size) : t.Contains (t.ofIndex i) :=
  ⟨(Nat.div_lt_iff_lt_mul t.cols_pos).2 h, Nat.mod_lt _ t.cols_pos⟩

theorem before_lt {side : Nat} (h : 0 < side) (i : Nat) : before side i < side := Nat.mod_lt _ h

theorem after_lt {side : Nat} (h : 0 < side) (i : Nat) : after side i < side := Nat.mod_lt _ h

/-- From the board no step leads off it. -/
theorem contains_of_mem_neighbours {t : Torus} {l m : Location} (h : t.Contains l)
    (hm : m ∈ t.neighbours l) : t.Contains m := by
  have hu := before_lt t.rows_pos l.row
  have hd := after_lt t.rows_pos l.row
  have hl := before_lt t.cols_pos l.col
  have hr := after_lt t.cols_pos l.col
  obtain ⟨hrow, hcol⟩ := h
  simp only [neighbours, List.mem_cons, List.not_mem_nil, or_false] at hm
  rcases hm with rfl | rfl | rfl | rfl | rfl | rfl | rfl | rfl <;>
    exact ⟨by assumption, by assumption⟩

variable {ρ : Type} [WordSource ρ]

/-- A location drawn at random, the row first. -/
def randomLocation (t : Torus) (g : ρ) : Location × ρ :=
  let (row, g) := below 64 t.rows g
  let (col, g) := below 64 t.cols g
  (⟨row, col⟩, g)

/-- A location drawn at random is on the board. -/
theorem contains_randomLocation (t : Torus) (g : ρ) : t.Contains (t.randomLocation g).1 :=
  ⟨below_lt (by decide) t.rows_pos g, below_lt (by decide) t.cols_pos _⟩

end Torus

end Skirmish.Arena
