import Skirmish.Proofs.Arena.Refusals

/-!
# Units that come

A unit that comes is put into all four places at once.  `Board.Joins` says that this is
all that happens: the unit is the last one in the list of units, in the queue and in the
list of its owner, its tile is taken, and nothing else changes.  Spawning where there is
room for a unit is this and no more (`Coherent.spawn_of_room`,
`Coherent.spawnAdjacent_of_room`).

Main statement: in every scene that can be reached, a unit whose spawning falls due when
its turn starts gets a new unit beside it if and only if a tile beside it is free and its
owner is below the limit, and it can act in the same turn in any case
(`beginTurn_spawns`).
-/

namespace Skirmish.Arena

open Skirmish.Random

variable {ρ : Type}

namespace Board

variable {b b' : Board ρ}

/-- A unit has come, and nothing else has changed but the generator. -/
structure Joins (w : Fighter) (b b' : Board ρ) : Prop where
  units : b'.units = b.units ++ [w]
  /-- The tile on which it stands is taken, and no other one. -/
  tiles : ∀ l, b.torus.Contains l →
    b'.tiles.at? l = if l = w.location then some w.serial else b.tiles.at? l
  /-- It waits behind all others. -/
  queue : b'.queue = { b.queue with waiting := b.queue.waiting ++ [w.serial] }
  /-- Its owner lists it last. -/
  players : b'.players = b.players.map fun p ↦
    if p.id = w.owner then { p with units := p.units ++ [w.serial] } else p
  spawned : b'.spawned = w.serial
  rules : b'.rules = b.rules

namespace Joins

variable {w : Fighter}

/-- Where the generator stands does not matter. -/
theorem of_rng {g : ρ} (h : Joins w { b with rng := g } b') : Joins w b b' :=
  ⟨h.units, h.tiles, h.queue, h.players, h.spawned, h.rules⟩

theorem unit?_eq (h : Joins w b b') (k : Serial) :
    b'.unit? k = (b.unit? k).or (if w.serial = k then some w else none) := by
  rw [Board.unit?, h.units, List.find?_append, List.find?_singleton]
  simp only [beq_iff_eq]
  rfl

/-- A unit that was there is still the same. -/
theorem unit?_of_eq_some (h : Joins w b b') {k : Serial} {v : Fighter} (hk : b.unit? k = some v) :
    b'.unit? k = some v := by
  rw [h.unit?_eq, hk, Option.some_or]

end Joins

namespace Coherent

/-- A unit with a new number is put everywhere it belongs. -/
theorem joins_add (h : b.Coherent) {w : Fighter} (hw : b.spawned < w.serial)
    (hl : b.torus.Contains w.location) : Joins w b (b.add w) where
  units := rfl
  tiles _ hm := Tiles.at?_set_of_contains hl hm _
  queue := if_neg (h.serial_notMem_waiting hw)
  players := rfl
  spawned := rfl
  rules := rfl

/-- On a free tile, a unit comes for a player who is below the limit. -/
theorem spawn_of_room (h : b.Coherent) {player : PlayerId} {p : Player} {l : Location}
    (hp : b.player? player = some p) (hn : p.units.length < b.unitLimit)
    (hl : b.torus.Contains l) (hf : b.tiles.isFree l = true) :
    (b.spawn player l).1 = .ok (some (b.spawned + 1)) ∧
      Joins (.new (b.spawned + 1) player l b.unitHp) b (b.spawn player l).2 := by
  obtain ⟨hf', -⟩ | ⟨-, hp', -⟩ | ⟨q, -, hq, ⟨hle, -⟩ | ⟨-, e⟩⟩ := b.spawn_cases player l
  · cases hf.symm.trans hf'
  · cases hp.symm.trans hp'
  · obtain rfl : p = q := Option.some.inj (hp.symm.trans hq)
    exact absurd hle (Nat.not_le.2 hn)
  · rw [e]
    exact ⟨rfl, h.joins_add (w := .new (b.spawned + 1) player l b.unitHp) (Nat.lt_succ_self _) hl⟩

variable [WordSource ρ]

/-- Beside a location with a free tile around it, a unit comes for a player who is below
the limit, and stands on one of the free tiles. -/
theorem spawnAdjacent_of_room (h : b.Coherent) {player : PlayerId} {p : Player} {l : Location}
    (hp : b.player? player = some p) (hn : p.units.length < b.unitLimit)
    (hl : b.torus.Contains l) (hroom : ∃ m ∈ b.torus.neighbours l, b.tiles.isFree m = true) :
    (b.spawnAdjacent player l).1 = .ok (some (b.spawned + 1)) ∧
      ∃ m ∈ b.torus.neighbours l, b.tiles.isFree m = true ∧
        Joins (.new (b.spawned + 1) player m b.unitHp) b (b.spawnAdjacent player l).2 := by
  obtain ⟨-, hnone⟩ | ⟨goal, g, hgoal, hf, e⟩ := b.chooseFreeNeighbour_cases l
  · obtain ⟨m, hm, hfree⟩ := hroom
    cases hfree.symm.trans (hnone m hm)
  · have hcontains := Torus.contains_of_mem_neighbours hl hgoal
    obtain ⟨hok, hjoins⟩ := (h.withRng g).spawn_of_room hp hn hcontains hf
    unfold Board.spawnAdjacent
    rw [e]
    exact ⟨hok, goal, hgoal, hf, hjoins.of_rng⟩

end Coherent

variable [WordSource ρ]

/-- Without a free tile around the location, or for a player who is not below the limit,
nobody comes, and nothing goes wrong. -/
theorem spawnAdjacent_of_no_room {player : PlayerId} {p : Player} {l : Location}
    (hp : b.player? player = some p)
    (hno : ¬ ((∃ m ∈ b.torus.neighbours l, b.tiles.isFree m = true) ∧
      p.units.length < b.unitLimit)) :
    (b.spawnAdjacent player l).1 = .ok none ∧
      ∃ g, (b.spawnAdjacent player l).2 = { b with rng := g } := by
  have hnone : (b.spawnAdjacent player l).1 = .ok none := by
    obtain e | ⟨goal, g, hgoal, hf, e⟩ := b.spawnAdjacent_cases player l
    · rw [e]
    · obtain ⟨r, hr, hiff⟩ := spawn_of_known (b := { b with rng := g }) hf hp
      have hfull : b.unitLimit ≤ p.units.length :=
        Nat.not_lt.1 fun hlt ↦ hno ⟨⟨goal, hgoal, hf⟩, hlt⟩
      rw [e, hr, hiff.2 hfull]
  refine ⟨hnone, spawnAdjacent_refused fun id ↦ ?_⟩
  rw [hnone]
  exact nofun

/-- Where only a spawning falls due, settling it is spawning beside the unit. -/
theorem settle_spawn (b : Board ρ) (u : Fighter) :
    b.settle u ⟨true, none⟩ = ((b.spawnAdjacent u.owner u.location).1.map fun _ ↦ (),
      (b.spawnAdjacent u.owner u.location).2) := by
  unfold settle
  rw [if_pos rfl]
  dsimp only
  cases (b.spawnAdjacent u.owner u.location).1 <;> rfl

end Board

/-- When its spawn timer runs out and it does not charge, a unit is ready to act. -/
theorem Fighter.startTurn_of_spawnTimer_eq_one {u : Fighter} (hspawn : u.spawnTimer = 1)
    (hcharge : u.chargeTimer = 0) :
    u.startTurn = (⟨true, none⟩,
      { u with turn := u.turn + 1, spawnTimer := 0, defending := false, acted := false }) := by
  simp [startTurn, tickSpawn, tickCharge, hspawn, hcharge]

namespace Scene

variable [WordSource ρ]

/-- In every scene that can be reached, let a unit be the first in the queue, with a
spawning that falls due in its next turn and no charge.  When the turn starts, it is the
turn of this unit, and

* somebody comes if and only if a tile beside the unit is free and its owner has fewer
  units on the board than there may be;
* whoever comes is a new unit of the same owner with the next number, and stands on one
  of these free tiles.  It waits last in the queue and is listed last by its owner, and
  nobody else has changed, but for the unit whose turn it is;
* if nobody comes, nothing has changed but this unit and the generator;
* the unit whose turn it is can act in any case. -/
theorem beginTurn_spawns {torus : Torus} {unitLimit : Nat} {unitHp : Int64} {s : Scene ρ}
    (h : s.Reachable torus unitLimit unitHp) {u : Fighter} {rest : List Serial}
    (hq : s.board.queue.waiting = u.serial :: rest) (hu : s.board.unit? u.serial = some u)
    (hspawn : u.spawnTimer = 1) (hcharge : u.chargeTimer = 0) :
    let ready : Fighter :=
      { u with turn := u.turn + 1, spawnTimer := 0, defending := false, acted := false }
    let begun := (s.board.started u.serial).setUnit ready
    let after := s.board.beginTurn.2
    let room := (∃ m ∈ s.board.torus.neighbours u.location, s.board.tiles.isFree m = true) ∧
      s.board.countOf u.owner < s.board.unitLimit
    s.board.beginTurn.1 = .ok (some u.serial) ∧
    ((∃ k, s.board.unit? k = none ∧ (after.unit? k).isSome = true) ↔ room) ∧
    (room → ∃ m ∈ s.board.torus.neighbours u.location, s.board.tiles.isFree m = true ∧
      begun.Joins {
        serial := s.board.spawned + 1
        owner := u.owner
        location := m
        hp := s.board.unitHp
        spawnTimer := 0
        chargeTimer := 0
        chargeStrength := 0
        turn := 0
        defending := false
        acted := false
        bindings := .empty } after) ∧
    (¬ room → ∃ g, after = { begun with rng := g }) ∧
    after.unit? u.serial = some ready ∧ ready.canAct = true := by
  intro ready begun after room
  have hb := h.coherent
  have hmem := Board.mem_of_unit? hu
  have hstarted : (s.board.started u.serial).Coherent := hb.withQueue (.refl _)
  have hbegun : begun.Coherent := hstarted.setUnit (v := ready) hmem rfl
  have hready : begun.unit? u.serial = some ready := Board.unit?_setUnit_self (v := ready) hu
  obtain ⟨p, hp, ho⟩ := List.mem_map.1 (hb.owner_mem u hmem)
  have hplayer : begun.player? u.owner = some p := hb.player?_eq_some_iff.2 ⟨hp, ho⟩
  have hcount : p.units.length = s.board.countOf u.owner := ho ▸ hb.length_units hp
  have hbegin := Board.beginTurn_eq hq hu
  rw [Fighter.startTurn_of_spawnTimer_eq_one hspawn hcharge, Board.settle_spawn] at hbegin
  have hafter : after = (begun.spawnAdjacent u.owner u.location).2 := congrArg (·.2) hbegin
  have hanswer := congrArg (·.1) hbegin
  have hact : ready.canAct = true := by simp [Fighter.canAct, ready, hcharge]
  by_cases hroom : room
  · obtain ⟨hok, m, hm, hf, hjoins⟩ := hbegun.spawnAdjacent_of_room hplayer (hcount ▸ hroom.2)
      (hb.contains u hmem) hroom.1
    rw [← hafter] at hjoins
    have hfresh : s.board.unit? (s.board.spawned + 1) = none :=
      hb.unit?_fresh (Nat.lt_succ_self _)
    have hcame : (after.unit? (s.board.spawned + 1)).isSome = true := by
      rw [hjoins.unit?_eq]
      simp [Fighter.new, Board.setUnit, Board.started, begun]
    refine ⟨hanswer.trans (by rw [hok]; rfl), iff_of_true ⟨_, hfresh, hcame⟩ hroom,
      fun _ ↦ ⟨m, hm, hf, hjoins⟩, fun hno ↦ absurd hroom hno, hjoins.unit?_of_eq_some hready, hact⟩
  · obtain ⟨hnone, g, e⟩ := Board.spawnAdjacent_of_no_room hplayer (l := u.location)
      (hcount ▸ hroom)
    rw [← hafter] at e
    refine ⟨hanswer.trans (by rw [hnone]; rfl), iff_of_false ?_ hroom, fun hyes ↦ absurd hyes hroom,
      fun _ ↦ ⟨g, e⟩, e ▸ hready, hact⟩
    rintro ⟨k, hk, hsome⟩
    have hsame : after.unit? k = begun.unit? k := by rw [e]; rfl
    have hk' : (s.board.started u.serial).unit? k = none := hk
    rw [hsame, Board.unit?_setUnit, hk'] at hsome
    cases hsome

/-- A unit that has been told to spawn and has had two turns since. -/
def expecting : Scene Xoshiro :=
  [.addPlayer (.ofIndex 0), .spawn (.ofIndex 0) ⟨0, 0⟩, .perform 1 .spawn [], .beginTurn, .endTurn,
    .beginTurn, .endTurn].foldl Operation.apply
      ⟨.empty ⟨6, 6, by decide, by decide⟩ 2 1 (.ofSeed 0), .new false false false⟩

theorem reachable_expecting : expecting.Reachable ⟨6, 6, by decide, by decide⟩ 2 1 :=
  .step (.step (.step (.step (.step (.step (.step (.empty _ _) (.addPlayer _) trivial)
    (.spawn _ _) (by decide)) (.perform _ _ _) trivial) .beginTurn trivial) .endTurn trivial)
    .beginTurn trivial) .endTurn trivial

/-- In its third turn the unit gets company. -/
theorem beginTurn_spawns_expecting :
    ∃ u, expecting.board.unit? 1 = some u ∧ u.spawnTimer = 1 ∧ u.chargeTimer = 0 ∧
      expecting.board.beginTurn.1 = .ok (some 1) ∧
      ∃ k, expecting.board.unit? k = none ∧
        (expecting.board.beginTurn.2.unit? k).isSome = true := by
  have hunit : (expecting.board.unit? 1).isSome = true := by decide +kernel
  obtain ⟨u, hu⟩ := Option.isSome_iff_exists.1 hunit
  have hview : (expecting.board.unit? 1).map
      (fun u ↦ (u.serial, u.spawnTimer, u.chargeTimer, u.owner, u.location)) =
        some (1, 1, 0, .ofIndex 0, ⟨0, 0⟩) := by decide +kernel
  rw [hu] at hview
  obtain ⟨hserial, hspawn, hcharge, howner, hlocation⟩ :
      u.serial = 1 ∧ u.spawnTimer = 1 ∧ u.chargeTimer = 0 ∧ u.owner = .ofIndex 0 ∧
        u.location = ⟨0, 0⟩ := by simpa using hview
  have hq : expecting.board.queue.waiting = [u.serial] := by
    rw [hserial]
    decide +kernel
  obtain ⟨hturn, hcame, -⟩ :=
    beginTurn_spawns reachable_expecting hq (hserial ▸ hu) hspawn hcharge
  refine ⟨u, hu, hspawn, hcharge, hserial ▸ hturn, hcame.2 ⟨⟨⟨0, 1⟩, ?_, by decide +kernel⟩, ?_⟩⟩
  · rw [hlocation]
    decide +kernel
  · rw [howner]
    decide +kernel

end Scene

end Skirmish.Arena
