import Skirmish.Arena.Orders
import Skirmish.Contest.Entry
import Skirmish.Contest.Outcome
import Skirmish.Contest.Settings
import Skirmish.Random.Xoshiro

/-!
# Matches

A match is set up from settings and entries, and played turn by turn.  In a turn
the unit at the front of the queue is made ready, its owner's script is run once
against its own variables, and players without units leave.  A fault in a script
ends the turn of the unit, or the whole match where the settings are strict.

A match is over when one player is left or the turns have been played.  Every
turn is counted, so the turns that are left bound the play.
-/

namespace Skirmish.Contest

open Arena Report Script Skirmish.Random

/-- A match in progress. -/
structure Match (ρ : Type) where
  settings : Settings
  symbols : SymbolTable
  /-- The scripts, in the order of the players. -/
  scripts : List Block
  scene : Scene ρ
  /-- What was said about the scripts when they were compiled. -/
  warnings : List Diagnostic
  /-- How many turns ended with a fault. -/
  faults : Nat

/-- Why a match cannot be set up. -/
inductive SetupError where
  | refused (reason : Refusal)
  /-- Some scripts cannot be compiled; warnings are listed as well. -/
  | scripts (diagnostics : List Diagnostic)
  | spawn (error : SpawnError)

/-- The reason in words. -/
def SetupError.message : SetupError → String
  | refused reason =>
    let words := reason.message
    s!"invalid configuration: {words}"
  | scripts diagnostics =>
    let count := diagnostics.length
    s!"{count} script problem(s) prevented the game from starting"
  | spawn error => error.message

/-- Why a match cannot go on. -/
inductive Stoppage where
  /-- A unit could not be spawned where it was due. -/
  | spawn (error : SpawnError)
  /-- A script failed in a strict match. -/
  | script (player : PlayerId) (unit : Serial) (fault : Fault)

/-- The reason in words. -/
def Stoppage.message : Stoppage → String
  | spawn error => error.message
  | script player unit _ =>
    let id := player.text
    s!"script of player {id} failed on unit {unit}"

namespace Match

variable {ρ : Type}

/-- The board. -/
def board (m : Match ρ) : Board ρ := m.scene.board

/-- What has been shown. -/
def commentary (m : Match ρ) : Commentary := m.scene.commentary

/-- The match with another board. -/
def withBoard (m : Match ρ) (board : Board ρ) : Match ρ :=
  { m with scene := { m.scene with board } }

/-- Show a message. -/
def message (m : Match ρ) (line : String) : Match ρ := { m with scene := m.scene.message line }

/-- Show a line in any case. -/
def announce (m : Match ρ) (line : String) : Match ρ :=
  { m with scene := { m.scene with commentary := m.commentary.announce line } }

/-- Show the board. -/
def picture (m : Match ρ) : Match ρ :=
  { m with scene := { m.scene with commentary := m.commentary.picture m.board } }

/-- How many turns have been started. -/
def turns (m : Match ρ) : Nat := m.board.queue.turns

/-- The script of a player, empty for a player who did not enter. -/
def scriptOf (m : Match ρ) (player : PlayerId) : Block := m.scripts.getD player.index []

/-- Whether no turn is to be played any more. -/
def isOver (m : Match ρ) : Bool :=
  m.settings.turnLimit ≤ m.turns || m.board.players.length ≤ 1 || m.board.queue.waiting.isEmpty

/-- Who is ahead. -/
def outcome (m : Match ρ) : Outcome := .ofPlayers m.board.players

variable [WordSource ρ]

/-! ## Setting up -/

/-- The board with the first unit of each player. -/
def openingBoard (settings : Settings) (torus : Torus) (players : Nat) (rng : ρ) :
    Except SpawnError Unit × Board ρ :=
  let empty := Board.empty torus settings.unitLimit settings.unitHp rng
  let ids := (List.range players).map PlayerId.ofIndex
  (ids.foldl Board.addPlayer empty).spawnInitial

/-- Set up a match whose random choices come from a source. -/
def setUp (settings : Settings) (entries : List Entry) (rng : ρ) : Except SetupError (Match ρ) :=
  match h : settings.refusal? entries.length with
  | some reason => .error (.refused reason)
  | none =>
    let compiled := Compiled.ofEntries entries .new
    if compiled.hasErrors then .error (.scripts compiled.diagnostics)
    else
      match openingBoard settings (settings.torus h) entries.length rng with
      | (.error e, _) => .error (.spawn e)
      | (.ok (), board) => .ok {
          settings := settings
          symbols := compiled.symbols
          scripts := compiled.scripts
          scene := ⟨board, .new settings.messages settings.messages settings.pictures⟩
          warnings := compiled.diagnostics
          faults := 0 }

/-! ## Playing -/

/-- Run the script of a unit's owner on the unit's variables. -/
def runScript (m : Match ρ) (u : Fighter) : Except Fault (Option Value) × Match ρ :=
  let (result, after) :=
    (m.scriptOf u.owner).run (Scene.host u.serial) m.symbols u.bindings m.scene
  let scene := after.world.updateUnit u.serial fun v ↦ { v with bindings := after.bindings }
  (result, { m with scene })

/-- Let players without units leave. -/
def sayFarewell (m : Match ρ) : Match ρ :=
  let (gone, board) := m.board.removeEliminated
  gone.foldl (fun m player ↦ let id := player.text; m.message s!"Player {id} eliminated")
    (m.withBoard board)

/-- Count a fault of a unit's script. -/
def recordFault (m : Match ρ) (u : Fighter) (fault : Fault) : Match ρ :=
  let serial := u.serial
  let words := fault.message
  { m with faults := m.faults + 1 }.message s!"Unit {serial} script error: {words}"

/-- The part of a turn that belongs to the unit, once it has been made ready. -/
def act (m : Match ρ) (u : Fighter) : Except Stoppage Unit × Match ρ :=
  let turn := m.turns
  let serial := u.serial
  let m := (m.message s!"Turn number {turn}").message s!"Acting unit: {serial}"
  let (result, m) := m.runScript u
  let m := m.withBoard m.board.endTurn
  match result with
  | .ok _ => (.ok (), m.picture.sayFarewell)
  | .error fault =>
    let m := m.recordFault u fault
    if m.settings.strict then (.error (.script u.owner serial fault), m)
    else (.ok (), m.picture.sayFarewell)

/-- Play the turn of one unit. -/
def playTurn (m : Match ρ) : Except Stoppage Unit × Match ρ :=
  match m.board.beginTurn with
  | (.error e, board) => (.error (.spawn e), m.withBoard board)
  | (.ok none, board) => (.ok (), m.withBoard board)
  | (.ok (some id), board) =>
    let m := m.withBoard board
    match board.unit? id with
    | none => (.ok (), m.withBoard board.endTurn)
    | some u => m.act u

/-- Play until the match is over, but at most so many turns. -/
def playTurns : (turns : Nat) → Match ρ → Except Stoppage Unit × Match ρ
  | 0, m => (.ok (), m)
  | turns + 1, m =>
    if m.isOver then (.ok (), m)
    else
      match m.playTurn with
      | (.error e, m) => (.error e, m)
      | (.ok (), m) => playTurns turns m

/-- Play until the match is over and announce how it ended.  No more turns can
be played than there are up to the limit. -/
def play (m : Match ρ) : Except Stoppage Outcome × Match ρ :=
  match m.playTurns (m.settings.turnLimit - m.turns) with
  | (.error e, m) => (.error e, m)
  | (.ok (), m) => (.ok m.outcome, m.announce m.outcome.text)

end Match

end Skirmish.Contest
