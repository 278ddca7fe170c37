import Skirmish.Arena.Board

/-!
# Questions about the board

How many units there are on either side of a unit, and how far the nearest one
is.  Units beside it are read off the tiles, units in all off the lists of the
players, and distances off the list of units.
-/

namespace Skirmish.Arena

/-- The units of the same player, or those of all others. -/
inductive Side where
  | ally
  | enemy
deriving DecidableEq

/-- Whether an owner is on a side of a player. -/
def Side.includes (side : Side) (player owner : PlayerId) : Bool :=
  (owner == player) == (side == .ally)

namespace Board

variable {ρ : Type}

/-- Whether a unit of this number is on a side of a player. -/
def isOnSide (b : Board ρ) (id : Serial) (player : PlayerId) (side : Side) : Bool :=
  (b.unit? id).any fun u ↦ side.includes player u.owner

/-- The units beside a unit that are on a side of it. -/
def adjacent (b : Board ρ) (u : Fighter) (side : Side) : List Serial :=
  ((b.torus.neighbours u.location).filterMap b.tiles.at?).filter fun id ↦
    id != u.serial && b.isOnSide id u.owner side

/-- How many units of a side are beside a unit. -/
def countAdjacent (b : Board ρ) (id : Serial) (side : Side) : Nat :=
  ((b.unit? id).map fun u ↦ (b.adjacent u side).length).getD 0

/-- How many units of a side there are, the unit itself left out. -/
def countTotal (b : Board ρ) (id : Serial) (side : Side) : Nat :=
  match b.unit? id with
  | none => 0
  | some u =>
    let counted := b.players.filter fun p ↦ side.includes u.owner p.id
    unitCount counted - if side = .ally then 1 else 0

/-- The distance from a unit to the nearest one of a side, and more than any
distance if there is none. -/
def distanceToClosest (b : Board ρ) (id : Serial) (side : Side) : Nat :=
  let beyond := b.torus.rows + b.torus.cols
  match b.unit? id with
  | none => beyond
  | some u =>
    let others := b.units.filter fun v ↦ v.serial != id && side.includes u.owner v.owner
    ((others.map fun v ↦ b.torus.distance u.location v.location).min?).getD beyond

end Board

end Skirmish.Arena
