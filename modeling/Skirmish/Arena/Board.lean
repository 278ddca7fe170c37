import Skirmish.Arena.Fighter
import Skirmish.Arena.TurnQueue

/-!
# The board

Units in four places at once: in the list of units, on the tiles, in the list of
their player, and in the turn queue.  `add` and `despawn` put a unit into all
four places and take it out of them again; nothing else does either.

A unit is named by its serial number.  Naming a unit that is gone is no mistake:
there is nothing to be done then, and nothing happens.

Operations that can go wrong return their result beside the board, for what
happened before the failure stays.
-/

namespace Skirmish.Arena

open Skirmish.Random

/-- The units and what they stand on, with the generator of random choices. -/
structure Board (ρ : Type) where
  tiles : Tiles
  /-- The units, in the order in which they were spawned. -/
  units : List Fighter
  /-- The players who are still in, in the order of their numbers. -/
  players : List Player
  queue : TurnQueue Serial
  rng : ρ
  /-- How many units a player can have at a time. -/
  unitLimit : Nat
  /-- The hit points of a new unit. -/
  unitHp : Int64
  /-- How many units have been spawned. -/
  spawned : Nat

/-- Why a unit cannot be spawned at all. -/
inductive SpawnError where
  | tileOccupied (location : Location)
  | unknownPlayer (player : PlayerId)
deriving DecidableEq

/-- The reason in words. -/
def SpawnError.message : SpawnError → String
  | tileOccupied location =>
    let place := location.text
    s!"cannot spawn a unit at {place}: tile is occupied"
  | unknownPlayer player =>
    let id := player.text
    s!"no player with id {id}"

namespace Board

variable {ρ : Type}

/-- A board with nobody on it. -/
def empty (torus : Torus) (unitLimit : Nat) (unitHp : Int64) (rng : ρ) : Board ρ where
  tiles := .empty torus
  units := []
  players := []
  queue := .empty
  rng := rng
  unitLimit := unitLimit
  unitHp := unitHp
  spawned := 0

/-- The size of the board. -/
def torus (b : Board ρ) : Torus := b.tiles.torus

/-- The unit with a serial number. -/
def unit? (b : Board ρ) (id : Serial) : Option Fighter := b.units.find? (·.serial == id)

/-- The player with a number. -/
def player? (b : Board ρ) (id : PlayerId) : Option Player := b.players.find? (·.id == id)

/-- Put a unit in the place of the one with its serial number. -/
def setUnit (b : Board ρ) (u : Fighter) : Board ρ :=
  { b with units := b.units.map fun v ↦ if v.serial = u.serial then u else v }

/-- Do something to a unit, if there is one of this number. -/
def onUnit {α : Type} (b : Board ρ) (id : Serial) (f : Fighter → α × Fighter) :
    Option α × Board ρ :=
  match b.unit? id with
  | none => (none, b)
  | some u =>
    let (a, u) := f u
    (some a, b.setUnit u)

/-- Change a unit, if there is one of this number. -/
def updateUnit (b : Board ρ) (id : Serial) (f : Fighter → Fighter) : Board ρ :=
  match b.unit? id with
  | none => b
  | some u => b.setUnit (f u)

/-- Change what belongs to a player. -/
def updatePlayer (b : Board ρ) (id : PlayerId) (f : Player → Player) : Board ρ :=
  { b with players := b.players.map fun p ↦ if p.id = id then f p else p }

/-- Let a player in, unless that player is in already. -/
def addPlayer (b : Board ρ) (id : PlayerId) : Board ρ :=
  if (b.player? id).isSome then b else { b with players := b.players ++ [.new id] }

/-! ## Coming and going -/

/-- Put a new unit everywhere it belongs. -/
def add (b : Board ρ) (u : Fighter) : Board ρ :=
  { b.updatePlayer u.owner (·.addUnit u.serial) with
    tiles := b.tiles.place u.location u.serial
    units := b.units ++ [u]
    queue := b.queue.enqueue u.serial
    spawned := u.serial }

/-- Spawn a unit at a location: nothing happens if the player has as many units
as there may be. -/
def spawn (b : Board ρ) (player : PlayerId) (location : Location) :
    Except SpawnError (Option Serial) × Board ρ :=
  if b.tiles.isFree location then
    match b.player? player with
    | none => (.error (.unknownPlayer player), b)
    | some p =>
      if b.unitLimit ≤ p.units.length then (.ok none, b)
      else
        let u := Fighter.new (b.spawned + 1) player location b.unitHp
        (.ok (some u.serial), b.add u)
  else (.error (.tileOccupied location), b)

/-- Take a unit away from everywhere. -/
def despawn (b : Board ρ) (id : Serial) : Option Fighter × Board ρ :=
  match b.unit? id with
  | none => (none, b)
  | some u =>
    (some u, { b.updatePlayer u.owner (·.removeUnit id) with
      tiles := b.tiles.clear u.location
      units := b.units.filter (·.serial != id)
      queue := b.queue.dequeue id })

/-- The players who have lost all their units, and the board without them. -/
def removeEliminated (b : Board ρ) : List PlayerId × Board ρ :=
  ((b.players.filter (·.units.isEmpty)).map (·.id),
    { b with players := b.players.filter (!·.units.isEmpty) })

/-! ## Choosing a place -/

variable [WordSource ρ]

/-- Choose from a list. -/
def choose {α : Type} (b : Board ρ) (xs : List α) : Option α × Board ρ :=
  let (x, rng) := choose? xs b.rng
  (x, { b with rng })

/-- A free tile beside a location, if there is one. -/
def chooseFreeNeighbour (b : Board ρ) (l : Location) : Option Location × Board ρ :=
  b.choose ((b.torus.neighbours l).filter b.tiles.isFree)

/-- Spawn a unit beside a location, if there is room. -/
def spawnAdjacent (b : Board ρ) (player : PlayerId) (l : Location) :
    Except SpawnError (Option Serial) × Board ρ :=
  match b.chooseFreeNeighbour l with
  | (none, b) => (.ok none, b)
  | (some free, b) => b.spawn player free

/-- Draw locations until one is free.  By the rules of the game this goes on until a
free tile comes, however long it takes, and never ends where there is none.  The
bound is not among the rules: a function has to end, so here locations are drawn at
most so many times and once more, and then the first free one there is is taken, or
the last one drawn if there is none. -/
def drawFreeWithin : (draws : Nat) → Board ρ → Location × Board ρ
  | 0, b =>
    let (l, rng) := b.torus.randomLocation b.rng
    (if b.tiles.isFree l then l else b.tiles.firstFree?.getD l, { b with rng })
  | draws + 1, b =>
    let (l, rng) := b.torus.randomLocation b.rng
    let b := { b with rng }
    if b.tiles.isFree l then (l, b) else drawFreeWithin draws b

/-- A free location drawn at random.  Sixty-four draws for each tile stand for a drawing
without a bound: even a single free tile is missed by all of them less than once in
`10 ^ 27` times, and unless all of them miss, the bound makes no difference. -/
def drawFree (b : Board ρ) : Location × Board ρ := b.drawFreeWithin (64 * b.torus.size)

/-- One unit for each of the players, at locations drawn at random. -/
def spawnEach : List PlayerId → Board ρ → Except SpawnError Unit × Board ρ
  | [], b => (.ok (), b)
  | p :: ps, b =>
    let (l, b) := b.drawFree
    match b.spawn p l with
    | (.error e, b) => (.error e, b)
    | (.ok _, b) => spawnEach ps b

/-- One unit for each player on the board. -/
def spawnInitial (b : Board ρ) : Except SpawnError Unit × Board ρ :=
  b.spawnEach (b.players.map (·.id))

end Board

end Skirmish.Arena
