import Skirmish.Arena.Tiles

/-!
# Players

Players are counted from 1 in the order of their scripts.  A player owns units,
listed in the order in which they were spawned.
-/

namespace Skirmish.Arena

/-- The number of a player. -/
structure PlayerId where
  number : Nat
  number_pos : 0 < number
deriving DecidableEq

namespace PlayerId

/-- The player with a number; nobody has number 0. -/
def ofNumber? (n : Nat) : Option PlayerId :=
  if h : 0 < n then some ⟨n, h⟩ else none

/-- The player whose script is at a position, counted from 0. -/
def ofIndex (i : Nat) : PlayerId := ⟨i + 1, Nat.succ_pos i⟩

/-- The same, as long as the number is one of 32 bits. -/
def ofIndex? (i : Nat) : Option PlayerId :=
  if i + 1 < UInt32.size then some (ofIndex i) else none

/-- The position of the script. -/
def index (p : PlayerId) : Nat := p.number - 1

/-- The number as it is printed. -/
def text (p : PlayerId) : String := toString p.number

@[simp] theorem index_ofIndex (i : Nat) : (ofIndex i).index = i := rfl

end PlayerId

/-- A player and the units that are left. -/
structure Player where
  id : PlayerId
  units : List Serial

namespace Player

/-- A player without units. -/
def new (id : PlayerId) : Player := ⟨id, []⟩

/-- Give the player a unit. -/
def addUnit (p : Player) (unit : Serial) : Player := { p with units := p.units ++ [unit] }

/-- Take a unit away. -/
def removeUnit (p : Player) (unit : Serial) : Player := { p with units := p.units.erase unit }

end Player

/-- How many units players have together. -/
def unitCount : List Player → Nat
  | [] => 0
  | p :: ps => p.units.length + unitCount ps

end Skirmish.Arena
