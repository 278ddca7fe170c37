import Skirmish.Arena.Player

/-!
# Outcomes

Who is ahead, judged by the units that the players have left.  A player who has
no rival any more has won; among several, those with the most units share the
lead.
-/

namespace Skirmish.Contest

open Arena

/-- How a match ends. -/
inductive Outcome where
  /-- Everybody else is out. -/
  | winner (player : PlayerId) (units : Nat)
  /-- One player has more units than any other. -/
  | leader (player : PlayerId) (units : Nat)
  /-- Several players have the most units. -/
  | tie (players : List PlayerId) (units : Nat)
  /-- Nobody is left. -/
  | noSurvivors
deriving DecidableEq

namespace Outcome

/-- The greatest number of units that a player has. -/
def mostUnits (players : List Player) : Nat := (players.map (·.units.length)).max?.getD 0

/-- The players who have so many units. -/
def havingUnits (units : Nat) (players : List Player) : List PlayerId :=
  (players.filter (·.units.length == units)).map (·.id)

/-- How a match ends when these players are left. -/
def ofPlayers : List Player → Outcome
  | [] => noSurvivors
  | [p] => winner p.id p.units.length
  | players =>
    let units := mostUnits players
    match havingUnits units players with
    | [p] => leader p units
    | leaders => tie leaders units

/-- The outcome in words. -/
def text : Outcome → String
  | winner player _ =>
    let id := player.text
    s!"Player {id} has won the game"
  | leader player units =>
    let id := player.text
    s!"Turn limit reached, player {id} wins with {units} units remaining"
  | tie players units =>
    let ids := ", ".intercalate (players.map PlayerId.text)
    s!"Turn limit reached, players [{ids}] are tied with {units} units remaining"
  | noSurvivors => "No units survived, the game has no winner"

end Outcome

end Skirmish.Contest
