/-!
# Commands

The closed set of commands that scripts can call.  Each has one name and takes
a fixed number of arguments, and its kind says who carries it out: the special
forms choose for themselves which arguments to run, the operators work on the
values of all of them, and the rest is asked of the board.
-/

namespace Skirmish.Script

/-- Who carries a command out, and on what. -/
inductive Command.Kind where
  /-- Runs its arguments as it sees fit. -/
  | special
  /-- Works on values. -/
  | operator
  /-- Does something on the board, once a turn. -/
  | action
  /-- Asks about the board. -/
  | query
deriving DecidableEq

/-- What a script can call. -/
inductive Command where
  | define | ifElse | and | or
  | add | sub | mul | div
  | equal | greater | greaterEqual | less | lessEqual
  | not | print
  | attack | chargeAttack | move | spawn | wait | defend | fortify
  | unitId | turnNumber
  | adjacentAllies | adjacentEnemies | totalAllies | totalEnemies
  | closestAlly | closestEnemy
  | unitLimit
deriving DecidableEq

namespace Command

/-- Every command, in the order in which they are listed for authors. -/
def all : List Command :=
  [define, ifElse, and, or, add, sub, mul, div, equal, greater, greaterEqual, less, lessEqual,
    not, print, attack, chargeAttack, move, spawn, wait, defend, fortify, unitId, turnNumber,
    adjacentAllies, adjacentEnemies, totalAllies, totalEnemies, closestAlly, closestEnemy,
    unitLimit]

/-- The name by which scripts call it. -/
def name : Command → String
  | define => "define"
  | ifElse => "if_else"
  | and => "and"
  | or => "or"
  | add => "add"
  | sub => "sub"
  | mul => "mul"
  | div => "div"
  | equal => "eq"
  | greater => "gt"
  | greaterEqual => "gqt"
  | less => "lt"
  | lessEqual => "lqt"
  | not => "neg"
  | print => "prnt"
  | attack => "attack"
  | chargeAttack => "charge_attack"
  | move => "move"
  | spawn => "spawn"
  | wait => "wait"
  | defend => "defend"
  | fortify => "fortify"
  | unitId => "get_unit_id"
  | turnNumber => "get_turn_number"
  | adjacentAllies => "num_adjacent_allies"
  | adjacentEnemies => "num_adjacent_enemies"
  | totalAllies => "num_total_allies"
  | totalEnemies => "num_total_enemies"
  | closestAlly => "distance_from_closest_ally"
  | closestEnemy => "distance_from_closest_enemy"
  | unitLimit => "get_unit_limit"

/-- How many arguments it takes. -/
def arity : Command → Nat
  | ifElse => 3
  | define | and | or | add | sub | mul | div | equal | greater | greaterEqual | less
  | lessEqual => 2
  | not | print | chargeAttack => 1
  | _ => 0

/-- Its kind. -/
def kind : Command → Kind
  | define | ifElse | and | or => .special
  | add | sub | mul | div | equal | greater | greaterEqual | less | lessEqual | not
  | print => .operator
  | attack | chargeAttack | move | spawn | wait | defend | fortify => .action
  | unitId | turnNumber | adjacentAllies | adjacentEnemies | totalAllies | totalEnemies
  | closestAlly | closestEnemy | unitLimit => .query

/-- Limited to once a turn. -/
def isAction (c : Command) : Bool := c.kind == .action

/-- Carried out by the board. -/
def isForBoard (c : Command) : Bool := c.kind == .action || c.kind == .query

/-- The command of this name. -/
def ofName? (name : String) : Option Command := all.find? (·.name == name)

@[simp] theorem ofName?_name (c : Command) : ofName? c.name = some c := by cases c <;> decide

/-- A command is found under its own name and no other. -/
theorem ofName?_eq_some_iff {name : String} {c : Command} :
    ofName? name = some c ↔ name = c.name := by
  refine ⟨fun h ↦ ?_, fun h ↦ h ▸ ofName?_name c⟩
  have := List.find?_some h
  exact (beq_iff_eq.1 this).symm

end Command

end Skirmish.Script
