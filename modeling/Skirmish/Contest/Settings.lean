import Skirmish.Arena.Torus
import Skirmish.Decimal.Shortest

/-!
# Settings of a match

The size of the board, how long the match goes on, how many units there can be
and how strong they are, and what is shown.  Settings that no match can be
played with are refused; where several things are wrong with them, the one that
is listed first in `Refusal` is named.

Main statement: what is not refused has sides of at least three
(`three_le_sides`), so every tile has eight different neighbours.
-/

namespace Skirmish.Contest

open Arena

/-- The settings of a match. -/
structure Settings where
  /-- The number of columns. -/
  width : Nat
  /-- The number of rows. -/
  height : Nat
  /-- The match ends when so many turns have been played. -/
  turnLimit : Nat
  /-- How many units a player can have, as a part of the number of tiles. -/
  unitFraction : Float
  /-- The hit points of a new unit. -/
  unitHp : Int64
  /-- Show what units do and what scripts print. -/
  messages : Bool
  /-- Show the board after every turn. -/
  pictures : Bool
  /-- What all random choices follow from, left open if any will do. -/
  seed : Option UInt64
  /-- Stop the match at the first fault of a script. -/
  strict : Bool

/-- Why no match can be played with some settings. -/
inductive Refusal where
  | fewPlayers (players : Nat)
  | smallBoard (width height : Nat)
  | largeBoard (width height : Nat)
  | crowdedBoard (players width height : Nat)
  | unitFraction (fraction : Float)
  | unitHp (hp : Int64)

/-- The fewest players of a match. -/
def fewestPlayers : Nat := 2

/-- The shortest side of a board. -/
def shortestSide : Nat := 3

/-- The most tiles of a board. -/
def mostTiles : Nat := 1024 * 1024

/-- The reason in words. -/
def Refusal.message : Refusal → String
  | fewPlayers players => s!"at least {fewestPlayers} players are required, found {players}"
  | smallBoard width height =>
    s!"board must be at least {shortestSide}x{shortestSide}, found {width}x{height}"
  | largeBoard width height =>
    s!"board {width}x{height} is larger than the {mostTiles} tile maximum"
  | crowdedBoard players width height =>
    s!"{players} players do not fit on a {width}x{height} board"
  | unitFraction fraction =>
    let found := Decimal.text fraction
    s!"unit limit must be greater than 0 and at most 1, found {found}"
  | unitHp hp =>
    let found := hp.toInt
    s!"unit hp must be positive, found {found}"

/-- The least number of 64 bits that is not below a float, the greatest one if
all are. -/
def roundedUp (x : Float) : Nat :=
  let whole := x.toUInt64
  if whole.toFloat < x then min (whole.toNat + 1) (UInt64.size - 1) else whole.toNat

namespace Settings

/-- The settings where nothing else is asked for. -/
def default : Settings where
  width := 20
  height := 20
  turnLimit := 10000
  unitFraction := 0.05
  unitHp := 3
  messages := true
  pictures := true
  seed := none
  strict := false

/-- The number of tiles, as far as 64 bits can count them. -/
def capacity (s : Settings) : Nat := min (s.width * s.height) (UInt64.size - 1)

/-- How many units a player can have, rounded up. -/
def unitLimit (s : Settings) : Nat :=
  roundedUp ((UInt64.ofNat s.capacity).toFloat * s.unitFraction)

/-- Why a match of so many players cannot be played, if so. -/
def refusal? (s : Settings) (players : Nat) : Option Refusal :=
  if players < fewestPlayers then some (.fewPlayers players)
  else if s.width < shortestSide ∨ s.height < shortestSide then
    some (.smallBoard s.width s.height)
  else if mostTiles < s.width * s.height then some (.largeBoard s.width s.height)
  else if s.capacity < players then some (.crowdedBoard players s.width s.height)
  else if !(0 < s.unitFraction && s.unitFraction ≤ 1) then some (.unitFraction s.unitFraction)
  else if s.unitHp ≤ 0 then some (.unitHp s.unitHp)
  else none

/-- A board that is not refused is not a small one. -/
theorem three_le_sides {s : Settings} {players : Nat} (h : s.refusal? players = none) :
    3 ≤ s.width ∧ 3 ≤ s.height := by
  unfold refusal? at h
  split at h
  · contradiction
  split at h
  · contradiction
  next hs => simp only [shortestSide] at hs; omega

/-- The size of the board. -/
def torus (s : Settings) {players : Nat} (h : s.refusal? players = none) : Torus where
  rows := s.height
  cols := s.width
  rows_pos := Nat.lt_of_lt_of_le (by decide) (three_le_sides h).2
  cols_pos := Nat.lt_of_lt_of_le (by decide) (three_le_sides h).1

end Settings

end Skirmish.Contest
