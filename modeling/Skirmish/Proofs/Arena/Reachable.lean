import Skirmish.Proofs.Arena.Operations
import Skirmish.Random.Xoshiro

/-!
# Boards that can be reached

`Operation` lists everything that can be done to a board, `Scene.Reachable` are
the scenes that any number of operations make of an empty board, in any order
and with any random draws.

Main statement: in all of them the list of units, the tiles, the lists of the
players and the turn queue are about the same units (`places_agree`).
-/

namespace Skirmish.Arena

open Script Skirmish.Random

variable {ρ : Type}

/-- What can be done to a unit by itself. -/
inductive Change where
  | startTurn
  | tryAct
  | setSpawn (turns : Nat)
  | beginCharge (turns : Nat)
  | defend
  | fortify
  | damage (amount : Int64)

/-- The unit after a change. -/
def Change.apply : Change → Fighter → Fighter
  | startTurn, u => u.startTurn.2
  | tryAct, u => u.tryAct.2
  | setSpawn turns, u => u.setSpawn turns
  | beginCharge turns, u => u.beginCharge turns
  | defend, u => u.defend
  | fortify, u => u.fortify
  | damage amount, u => (u.damage amount).2

@[simp] theorem Change.station_apply (c : Change) (u : Fighter) :
    (c.apply u).station = u.station := by
  cases c <;> simp [Change.apply]

/-- What can be done to a board.  Units are named by their numbers, whether or
not there still is a unit of that number. -/
inductive Operation where
  | addPlayer (player : PlayerId)
  | spawn (player : PlayerId) (location : Location)
  | spawnAdjacent (player : PlayerId) (location : Location)
  | spawnInitial
  | despawn (unit : Serial)
  | move (unit : Serial)
  | attack (attacker : Serial) (amount : Int64)
  | beginTurn
  | endTurn
  | removeEliminated
  | perform (unit : Serial) (command : Command) (args : List Value)
  | change (unit : Serial) (c : Change)

namespace Operation

/-- Locations that are named have to be on the board. -/
def Fits (b : Board ρ) : Operation → Prop
  | spawn _ l | spawnAdjacent _ l => b.torus.Contains l
  | _ => True

instance (b : Board ρ) : (o : Operation) → Decidable (o.Fits b)
  | spawn _ l | spawnAdjacent _ l => inferInstanceAs (Decidable (b.torus.Contains l))
  | addPlayer _ | spawnInitial | despawn _ | move _ | attack _ _ | beginTurn | endTurn
  | removeEliminated | perform _ _ _ | change _ _ => isTrue trivial

variable [WordSource ρ]

/-- The scene after an operation, be it one that failed or had no effect. -/
def apply (s : Scene ρ) : Operation → Scene ρ
  | addPlayer player => { s with board := s.board.addPlayer player }
  | spawn player l => { s with board := (s.board.spawn player l).2 }
  | spawnAdjacent player l => { s with board := (s.board.spawnAdjacent player l).2 }
  | spawnInitial => { s with board := s.board.spawnInitial.2 }
  | despawn unit => { s with board := (s.board.despawn unit).2 }
  | move unit => { s with board := (s.board.move unit).2 }
  | attack attacker amount => { s with board := (s.board.attack attacker amount).2 }
  | beginTurn => { s with board := s.board.beginTurn.2 }
  | endTurn => { s with board := s.board.endTurn }
  | removeEliminated => { s with board := s.board.removeEliminated.2 }
  | perform unit command args => (s.perform unit command args).2
  | change unit c => { s with board := s.board.updateUnit unit c.apply }

theorem coherent_apply {s : Scene ρ} (h : s.board.Coherent) {o : Operation} (ho : o.Fits s.board) :
    (o.apply s).board.Coherent := by
  cases o with
  | addPlayer player => exact h.addPlayer player
  | spawn player l => exact h.spawn player ho
  | spawnAdjacent player l => exact h.spawnAdjacent player ho
  | spawnInitial => exact h.spawnEach _
  | despawn unit => exact h.despawn unit
  | move unit => exact h.move unit
  | attack attacker amount => exact h.attack attacker amount
  | beginTurn => exact h.beginTurn
  | endTurn => exact h.endTurn
  | removeEliminated => exact h.removeEliminated
  | perform unit command args => exact Scene.coherent_perform h unit command args
  | change unit c => exact h.updateUnit unit c.station_apply

end Operation

namespace Scene

variable [WordSource ρ]

/-- The scenes that any number of operations make of an empty board. -/
inductive Reachable (torus : Torus) (unitLimit : Nat) (unitHp : Int64) : Scene ρ → Prop
  | empty (rng : ρ) (commentary : Commentary) :
    Reachable torus unitLimit unitHp ⟨.empty torus unitLimit unitHp rng, commentary⟩
  | step {s : Scene ρ} (h : Reachable torus unitLimit unitHp s) (o : Operation)
    (ho : o.Fits s.board) : Reachable torus unitLimit unitHp (o.apply s)

variable {torus : Torus} {unitLimit : Nat} {unitHp : Int64} {s : Scene ρ}

theorem Reachable.coherent (h : s.Reachable torus unitLimit unitHp) : s.board.Coherent := by
  induction h with
  | empty rng commentary => exact Board.coherent_empty torus unitLimit unitHp rng
  | step _ o ho ih => exact Operation.coherent_apply ih ho

/-- In every scene that can be reached:

* a tile holds the unit that stands there, and every unit stands on the board;
* every unit waits in the queue, once, and nobody else does;
* players have different numbers, every unit belongs to one of them, and a
  player lists the units that belong to the player, in the order of their
  numbers;
* nobody has more units than there may be;
* units have different numbers, from 1 to the number of units spawned. -/
theorem places_agree (h : s.Reachable torus unitLimit unitHp) :
    (∀ l, s.board.torus.Contains l → ∀ id,
      s.board.tiles.at? l = some id ↔ ∃ u, s.board.unit? id = some u ∧ u.location = l) ∧
    (∀ id u, s.board.unit? id = some u → s.board.torus.Contains u.location) ∧
    s.board.queue.waiting.Nodup ∧
    (∀ id, id ∈ s.board.queue.waiting ↔ ∃ u, s.board.unit? id = some u) ∧
    (s.board.players.map (·.id)).Nodup ∧
    (∀ id u, s.board.unit? id = some u → ∃ p, s.board.player? u.owner = some p) ∧
    (∀ p ∈ s.board.players, p.units.Pairwise (· < ·) ∧
      (∀ id, id ∈ p.units ↔ ∃ u, s.board.unit? id = some u ∧ u.owner = p.id) ∧
      p.units.length ≤ s.board.unitLimit) ∧
    (s.board.units.map (·.serial)).Nodup ∧
    ∀ id u, s.board.unit? id = some u →
      u.serial = id ∧ 1 ≤ u.serial ∧ u.serial ≤ s.board.spawned := by
  have hb := h.coherent
  have hunit : ∀ {id u}, s.board.unit? id = some u ↔ u ∈ s.board.units ∧ u.serial = id :=
    hb.unit?_eq_some_iff
  refine ⟨?_, ?_, hb.waiting_nodup, ?_, hb.players_nodup, ?_, ?_, hb.serials_nodup, ?_⟩
  · intro l hl id
    simp only [hunit, and_assoc]
    exact hb.at?_iff l hl id
  · intro id u hu
    exact hb.contains u (hunit.1 hu).1
  · intro id
    simp only [hunit]
    exact hb.mem_waiting id
  · intro id u hu
    obtain ⟨p, hp, ho⟩ := List.mem_map.1 (hb.owner_mem u (hunit.1 hu).1)
    exact ⟨p, hb.player?_eq_some_iff.2 ⟨hp, ho⟩⟩
  · intro p hp
    refine ⟨hb.units_sorted p hp, ?_, hb.length_units_le p hp⟩
    intro id
    simp only [hunit, and_assoc]
    exact hb.mem_units p hp id
  · intro id u hu
    obtain ⟨hm, rfl⟩ := hunit.1 hu
    exact ⟨rfl, hb.serial_pos u hm, hb.serial_le u hm⟩

/-- A duel: of three units on a small board the first kills the second. -/
theorem places_agree_duel : ∃ s : Scene Xoshiro,
    s.Reachable ⟨3, 3, by decide, by decide⟩ 2 1 ∧ s.board.units.map (·.serial) = [1, 3] ∧
      s.board.queue.waiting = [3, 1] ∧ s.board.players.map (·.units) = [[1, 3]] ∧
      (∀ l, s.board.torus.Contains l → ∀ id,
        s.board.tiles.at? l = some id ↔ ∃ u, s.board.unit? id = some u ∧ u.location = l) ∧
      ∀ id, id ∈ s.board.queue.waiting ↔ ∃ u, s.board.unit? id = some u := by
  have h := (@Reachable.empty Xoshiro _ ⟨3, 3, by decide, by decide⟩ 2 1 (Xoshiro.ofSeed 0)
    (.new false false false))
    |>.step (.addPlayer (.ofIndex 0)) trivial
    |>.step (.addPlayer (.ofIndex 1)) trivial
    |>.step (.spawn (.ofIndex 0) ⟨0, 0⟩) (by decide)
    |>.step (.spawn (.ofIndex 1) ⟨0, 1⟩) (by decide)
    |>.step (.spawn (.ofIndex 0) ⟨2, 2⟩) (by decide)
    |>.step .beginTurn trivial
    |>.step (.perform 1 .attack []) trivial
    |>.step .endTurn trivial
    |>.step .removeEliminated trivial
  exact ⟨_, h, by decide, by decide, by decide, (places_agree h).1, (places_agree h).2.2.2.1⟩

end Scene

end Skirmish.Arena
