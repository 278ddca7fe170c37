import Skirmish.Arena.Player
import Skirmish.Script.Bindings

/-!
# Units

A unit on the board: whose it is, where it stands, how many hit points it has,
and what it is busy with.  It can act once in each of its own turns, and not at
all while it is spawning or charging.  Its timers run only at the start of its
own turns.

Hit points are integers of 64 bits and timers numbers of 32 bits; both stop at
their ends.
-/

namespace Skirmish.Arena

open Script

/-- A unit. -/
structure Fighter where
  serial : Serial
  owner : PlayerId
  location : Location
  hp : Int64
  /-- Own turns until a new unit appears beside it, 0 if it is not spawning. -/
  spawnTimer : Nat
  /-- Own turns until its charge hits, 0 if it is not charging. -/
  chargeTimer : Nat
  /-- Own turns that it has been charging. -/
  chargeStrength : Nat
  /-- Own turns it has started. -/
  turn : Nat
  /-- The next attack will be blocked. -/
  defending : Bool
  /-- It has acted in this turn. -/
  acted : Bool
  /-- Its variables. -/
  bindings : Bindings

/-- What falls due at the start of a turn. -/
structure Due where
  /-- A new unit appears. -/
  spawn : Bool
  /-- The charge hits this hard. -/
  charge : Option Int64

/-- What an attack does to the unit that is hit. -/
inductive Hit where
  /-- It was defending, and is no more. -/
  | blocked
  /-- It is left with so many hit points. -/
  | wounded (hp : Int64)
  /-- It has no hit points left. -/
  | killed
deriving DecidableEq

/-- The nearest integer of 64 bits. -/
def clamp (n : Int) : Int64 := Int64.ofIntClamp n

/-- The longest time a timer can be set to. -/
def maxTimer : Nat := UInt32.size - 1

/-- The damage of a charge of so many turns: the next triangular number but
one.  The product is limited to 64 bits before it is halved. -/
def chargeDamage (strength : Nat) : Int64 :=
  Int64.ofNat (min ((strength + 1) * (strength + 2)) Int64.maxValue.toNatClampNeg / 2)

namespace Fighter

/-- A unit that has just been spawned. -/
def new (serial : Serial) (owner : PlayerId) (location : Location) (hp : Int64) : Fighter where
  serial := serial
  owner := owner
  location := location
  hp := hp
  spawnTimer := 0
  chargeTimer := 0
  chargeStrength := 0
  turn := 0
  defending := false
  acted := false
  bindings := .empty

/-- Run the spawn timer down. -/
def tickSpawn (u : Fighter) : Bool × Fighter :=
  (u.spawnTimer == 1, { u with spawnTimer := u.spawnTimer - 1 })

/-- Run the charge timer down, gaining strength, until the charge hits. -/
def tickCharge (u : Fighter) : Option Int64 × Fighter :=
  if u.chargeTimer = 0 then (none, u)
  else
    let strength := u.chargeStrength + 1
    if u.chargeTimer = 1 then
      (some (chargeDamage strength), { u with chargeTimer := 0, chargeStrength := 0 })
    else (none, { u with chargeTimer := u.chargeTimer - 1, chargeStrength := strength })

/-- Start the unit's next turn: it can act again and no longer defends, and its
timers run down. -/
def startTurn (u : Fighter) : Due × Fighter :=
  let u := { u with turn := u.turn + 1, defending := false, acted := false }
  let (spawn, u) := u.tickSpawn
  let (charge, u) := u.tickCharge
  (⟨spawn, charge⟩, u)

/-- Whether the unit is busy with nothing and has not acted in this turn. -/
def canAct (u : Fighter) : Bool := u.spawnTimer == 0 && u.chargeTimer == 0 && !u.acted

/-- Use up the action of this turn, if the unit can act. -/
def tryAct (u : Fighter) : Bool × Fighter :=
  if u.canAct then (true, { u with acted := true }) else (false, u)

/-- Be busy spawning for so many turns more. -/
def setSpawn (u : Fighter) (turns : Nat) : Fighter :=
  { u with spawnTimer := min (u.spawnTimer + turns) maxTimer }

/-- Charge for so many turns. -/
def beginCharge (u : Fighter) (turns : Nat) : Fighter := { u with chargeTimer := turns }

/-- Defend against the next attack. -/
def defend (u : Fighter) : Fighter := { u with defending := true }

/-- Gain a hit point. -/
def fortify (u : Fighter) : Fighter := { u with hp := clamp (u.hp.toInt + 1) }

/-- Be attacked. -/
def damage (u : Fighter) (amount : Int64) : Hit × Fighter :=
  if u.defending then (.blocked, { u with defending := false })
  else
    let hp := clamp (u.hp.toInt - amount.toInt)
    (if hp.toInt ≤ 0 then .killed else .wounded hp, { u with hp })

end Fighter

end Skirmish.Arena
