import Skirmish.Arena.Census

/-!
# Moves, attacks and turns

What units do to the board.  Where a unit can choose between several tiles or
several enemies, chance decides; where it has no choice at all, nothing happens
and nothing is drawn.
-/

namespace Skirmish.Arena

open Skirmish.Random

/-- An attack that found somebody. -/
structure Attack where
  target : Serial
  hit : Hit
deriving DecidableEq

namespace Board

variable {ρ : Type} [WordSource ρ]

/-- Move a unit to a free tile beside it: the tiles it leaves and enters, none
if it is gone or there is no room. -/
def move (b : Board ρ) (id : Serial) : Option (Location × Location) × Board ρ :=
  match b.unit? id with
  | none => (none, b)
  | some u =>
    match b.chooseFreeNeighbour u.location with
    | (none, b) => (none, b)
    | (some goal, b) =>
      (some (u.location, goal),
        { b.setUnit { u with location := goal } with
          tiles := (b.tiles.clear u.location).place goal id })

/-- Let a unit be hit, and take it off the board if that kills it. -/
def strike (b : Board ρ) (v : Fighter) (amount : Int64) : Attack × Board ρ :=
  let (hit, v) := v.damage amount
  let b := b.setUnit v
  (⟨v.serial, hit⟩, if hit = .killed then (b.despawn v.serial).2 else b)

/-- Let a unit hit one of the enemies beside it. -/
def attack (b : Board ρ) (attacker : Serial) (amount : Int64) : Option Attack × Board ρ :=
  match b.unit? attacker with
  | none => (none, b)
  | some u =>
    match b.choose (b.adjacent u .enemy) with
    | (none, b) => (none, b)
    | (some target, b) =>
      match b.unit? target with
      | none => (none, b)
      | some v =>
        let (report, b) := b.strike v amount
        (some report, b)

/-- Carry out what falls due for a unit: first the spawning, then the charge. -/
def settle (b : Board ρ) (u : Fighter) (due : Due) : Except SpawnError Unit × Board ρ :=
  let (spawned, b) := if due.spawn then b.spawnAdjacent u.owner u.location else (.ok none, b)
  match spawned, due.charge with
  | .error e, _ => (.error e, b)
  | .ok _, none => (.ok (), b)
  | .ok _, some amount => (.ok (), (b.attack u.serial amount).2)

/-- Start the next turn: whose it is, if anybody is left. -/
def beginTurn (b : Board ρ) : Except SpawnError (Option Serial) × Board ρ :=
  match b.queue.startTurn with
  | (none, _) => (.ok none, b)
  | (some id, queue) =>
    let b := { b with queue }
    match b.unit? id with
    | none => (.ok (some id), b)
    | some u =>
      let (due, u) := u.startTurn
      let (result, b) := (b.setUnit u).settle u due
      (result.map fun _ ↦ some id, b)

omit [WordSource ρ] in
/-- End the turn. -/
def endTurn (b : Board ρ) : Board ρ := { b with queue := b.queue.endTurn }

end Board

end Skirmish.Arena
