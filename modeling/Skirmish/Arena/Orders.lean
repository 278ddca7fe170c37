import Skirmish.Arena.Commentary
import Skirmish.Arena.Turn
import Skirmish.Script.Run

/-!
# Orders and questions

How the commands of a script reach the board, on behalf of one unit.

An action is read as an `Order` first.  The unit obeys if it can act, which uses
up its action even when the order has no effect; otherwise the answer is `false`
and nothing happens.  A `Question` never changes anything.
-/

namespace Skirmish.Arena

open Script Skirmish.Random

/-- A board and what is shown of it. -/
structure Scene (ρ : Type) where
  board : Board ρ
  commentary : Commentary

/-- What a unit can be told to do. -/
inductive Order where
  | attack
  /-- Attack after so many own turns. -/
  | charge (turns : Nat)
  | move
  | spawn
  | wait
  | defend
  | fortify
deriving DecidableEq

/-- What a unit can ask. -/
inductive Question where
  | serial
  | turn
  | adjacent (side : Side)
  | total (side : Side)
  | closest (side : Side)
  | unitLimit
deriving DecidableEq

/-- Own turns from the order to spawn until the new unit appears. -/
def spawnDelay : Nat := 3

/-- The hit points that an attack without a charge takes. -/
def strikeDamage : Int64 := 1

/-- The number of turns that a value is, if a timer can be set to it. -/
def chargeTurns : Value → Except Fault Nat
  | .int n =>
    if 0 ≤ n.toInt ∧ n.toInt.toNat ≤ maxTimer then .ok n.toInt.toNat
    else .error (.invalidArgument .chargeAttack (.chargeTurns n))
  | v => .error (.typeMismatch .chargeAttack .nonNegativeInteger v.kind)

/-- The order to attack after so many turns; with none it is an ordinary attack. -/
def Order.attackAfter : (turns : Nat) → Order
  | 0 => .attack
  | turns + 1 => .charge (turns + 1)

/-- The order that a call gives. -/
def Order.ofCall : Command → List Value → Except Fault Order
  | .chargeAttack, [turns] => (chargeTurns turns).map .attackAfter
  | .chargeAttack, _ => .ok .attack
  | .attack, _ => .ok .attack
  | .move, _ => .ok .move
  | .spawn, _ => .ok .spawn
  | .wait, _ => .ok .wait
  | .defend, _ => .ok .defend
  | .fortify, _ => .ok .fortify
  | c, _ => .error (.invalidArgument c .notAction)

/-- The question that a command asks. -/
def Question.ofCommand? : Command → Option Question
  | .unitId => some .serial
  | .turnNumber => some .turn
  | .adjacentAllies => some (.adjacent .ally)
  | .adjacentEnemies => some (.adjacent .enemy)
  | .totalAllies => some (.total .ally)
  | .totalEnemies => some (.total .enemy)
  | .closestAlly => some (.closest .ally)
  | .closestEnemy => some (.closest .enemy)
  | .unitLimit => some .unitLimit
  | _ => none

namespace Board

variable {ρ : Type}

/-- The answer to a question of a unit. -/
def answer (b : Board ρ) (u : Fighter) : Question → Nat
  | .serial => u.serial
  | .turn => u.turn
  | .adjacent side => b.countAdjacent u.serial side
  | .total side => b.countTotal u.serial side
  | .closest side => b.distanceToClosest u.serial side
  | .unitLimit => b.unitLimit

/-- The answer to a command that asks a question on behalf of a unit. -/
def query (b : Board ρ) (id : Serial) (c : Command) : Except Fault Value :=
  match b.unit? id with
  | none => .error (.invalidArgument c .unitGone)
  | some u =>
    match Question.ofCommand? c with
    | none => .error (.invalidArgument c .notQuery)
    | some q => .ok (.ofCount (b.answer u q))

end Board

namespace Scene

variable {ρ : Type}

/-- Show what a unit does. -/
def message (s : Scene ρ) (line : String) : Scene ρ :=
  { s with commentary := s.commentary.message line }

/-- Change a unit. -/
def updateUnit (s : Scene ρ) (id : Serial) (f : Fighter → Fighter) : Scene ρ :=
  { s with board := s.board.updateUnit id f }

/-- What is shown of a move. -/
def moveMessage (serial : Serial) (leaves enters : Location) : String :=
  let start := leaves.text
  let goal := enters.text
  s!"Unit {serial} moved from {start} to {goal}"

/-- What is shown of an order to spawn. -/
def spawnMessage (serial : Serial) (owner : PlayerId) : String :=
  let player := owner.text
  s!"Setting spawn for unit {serial} belonging to player {player} in {spawnDelay} turns"

variable [WordSource ρ]

/-- Carry out an order to a unit that can act.  The answer tells whether it had
any effect. -/
def carryOut (s : Scene ρ) (u : Fighter) : Order → Bool × Scene ρ
  | .attack =>
    let (found, board) := s.board.attack u.serial strikeDamage
    (found.isSome, { s with board })
  | .charge turns => (true, s.updateUnit u.serial (·.beginCharge turns))
  | .move =>
    match s.board.move u.serial with
    | (none, board) => (false, { s with board })
    | (some (leaves, enters), board) =>
      (true, { s with board }.message (moveMessage u.serial leaves enters))
  | .spawn =>
    (true, (s.updateUnit u.serial (·.setSpawn spawnDelay)).message
      (spawnMessage u.serial u.owner))
  | .wait =>
    let serial := u.serial
    (true, s.message s!"Unit {serial} has forfeited its turn")
  | .defend =>
    let serial := u.serial
    (true, (s.message s!"Unit {serial} is defending").updateUnit serial Fighter.defend)
  | .fortify => (true, s.updateUnit u.serial Fighter.fortify)

/-- Give an order to a unit. -/
def obey (s : Scene ρ) (id : Serial) (o : Order) : Bool × Scene ρ :=
  match s.board.unit? id with
  | none => (false, s)
  | some u =>
    let (able, u) := u.tryAct
    if able then { s with board := s.board.setUnit u }.carryOut u o else (false, s)

/-- Carry out a call of a script on behalf of a unit. -/
def perform (id : Serial) (c : Command) (args : List Value) (s : Scene ρ) :
    Except Fault Value × Scene ρ :=
  if c.isAction then
    match Order.ofCall c args with
    | .error fault => (.error fault, s)
    | .ok o =>
      let (effect, s) := s.obey id o
      (.ok (.bool effect), s)
  else (s.board.query id c, s)

/-- The world as the script of a unit sees it. -/
def host (id : Serial) : Host (Scene ρ) where
  perform := perform id
  print line s := { s with commentary := s.commentary.printed line }

end Scene

end Skirmish.Arena
