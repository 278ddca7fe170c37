import Skirmish.Proofs.Arena.Agreement

/-!
# Refusals

An operation that does not come about leaves the board as it was.  Spawning asks for
a free tile, a known player and room for one more unit before it changes anything;
moving and attacking draw a choice only where there is one; and a unit that is gone
is not looked for any further.  Only spawning beside a unit can be refused when a
tile has been drawn already, and then the generator has moved on.

Main statement: in every scene that can be reached, each refusal leaves the board as it
was, and comes about exactly when it has a reason (`refusals_leave_no_trace`).
-/

namespace Skirmish.Arena

open Skirmish.Random

variable {ρ : Type}

namespace Board

variable {b : Board ρ} {player : PlayerId} {l : Location} {id : Serial}

/-! ## Spawning -/

/-- Unless a unit comes, the board is as it was. -/
theorem spawn_refused (h : ∀ id, (b.spawn player l).1 ≠ .ok (some id)) :
    (b.spawn player l).2 = b := by
  obtain ⟨-, e⟩ | ⟨-, -, e⟩ | ⟨p, -, -, ⟨-, e⟩ | ⟨-, e⟩⟩ := b.spawn_cases player l
  · rw [e]
  · rw [e]
  · rw [e]
  · rw [e] at h
    exact absurd rfl (h _)

theorem spawn_of_taken (h : b.tiles.isFree l = false) :
    (b.spawn player l).1 = .error (.tileOccupied l) := by
  obtain ⟨-, e⟩ | ⟨hf, -⟩ | ⟨p, hf, -⟩ := b.spawn_cases player l
  · rw [e]
  · cases h.symm.trans hf
  · cases h.symm.trans hf

theorem spawn_of_unknown (hf : b.tiles.isFree l = true) (h : b.player? player = none) :
    (b.spawn player l).1 = .error (.unknownPlayer player) := by
  obtain ⟨hn, -⟩ | ⟨-, -, e⟩ | ⟨p, -, hp, -⟩ := b.spawn_cases player l
  · cases hf.symm.trans hn
  · rw [e]
  · cases h.symm.trans hp

/-- On a free tile a known player is refused a unit only at the limit. -/
theorem spawn_of_known (hf : b.tiles.isFree l = true) {p : Player}
    (hp : b.player? player = some p) :
    ∃ r, (b.spawn player l).1 = .ok r ∧ (r = none ↔ b.unitLimit ≤ p.units.length) := by
  obtain ⟨hn, -⟩ | ⟨-, hn, -⟩ | ⟨q, -, hq, hroom⟩ := b.spawn_cases player l
  · cases hf.symm.trans hn
  · cases hp.symm.trans hn
  · obtain rfl : p = q := Option.some.inj (hp.symm.trans hq)
    obtain ⟨hle, e⟩ | ⟨hlt, e⟩ := hroom
    · exact ⟨none, by rw [e], iff_of_true rfl hle⟩
    · exact ⟨some (b.spawned + 1), by rw [e], iff_of_false nofun (Nat.not_le.2 hlt)⟩

/-! ## Going -/

theorem despawn_eq_none_iff : (b.despawn id).1 = none ↔ b.unit? id = none := by
  cases h : b.unit? id with
  | none => simp [despawn_of_none h]
  | some u => simp [despawn_of_unit? h]

theorem despawn_refused (h : (b.despawn id).1 = none) : (b.despawn id).2 = b := by
  rw [despawn_of_none (despawn_eq_none_iff.1 h)]

/-! ## Choosing -/

variable [WordSource ρ]

/-- Unless a unit comes, only the generator can have moved on. -/
theorem spawnAdjacent_refused (h : ∀ id, (b.spawnAdjacent player l).1 ≠ .ok (some id)) :
    ∃ g, (b.spawnAdjacent player l).2 = { b with rng := g } := by
  obtain e | ⟨goal, g, -, -, e⟩ := b.spawnAdjacent_cases player l
  · exact ⟨b.rng, by rw [e]⟩
  · rw [e] at h ⊢
    exact ⟨g, spawn_refused h⟩

theorem move_refused (h : (b.move id).1 = none) : (b.move id).2 = b := by
  obtain e | ⟨u, goal, g, -, -, -, e⟩ := b.move_cases id
  · rw [e]
  · cases h.symm.trans (congrArg (·.1) e)

theorem attack_refused {amount : Int64} (h : (b.attack id amount).1 = none) :
    (b.attack id amount).2 = b := by
  obtain e | ⟨u, v, g, -, -, -, -, e⟩ := b.attack_cases id amount
  · rw [e]
  · cases h.symm.trans (congrArg (·.1) e)

theorem move_of_gone (h : b.unit? id = none) : b.move id = (none, b) := by rw [move, h]

theorem attack_of_gone (h : b.unit? id = none) (amount : Int64) :
    b.attack id amount = (none, b) := by rw [attack, h]

/-- A unit does not move if and only if it is gone or boxed in. -/
theorem move_eq_none_iff : (b.move id).1 = none ↔
    ∀ u, b.unit? id = some u → ∀ m ∈ b.torus.neighbours u.location, b.tiles.isFree m = false := by
  cases hu : b.unit? id with
  | none => simp [move_of_gone hu]
  | some u =>
    have hiff := not_congr (isSome_move hu)
    rw [Option.not_isSome_iff_eq_none] at hiff
    simpa using hiff

/-- An attack finds nobody if and only if the attacker is gone or has no enemy beside
it. -/
theorem attack_eq_none_iff (amount : Int64) : (b.attack id amount).1 = none ↔
    ∀ u, b.unit? id = some u → b.adjacent u .enemy = [] := by
  cases hu : b.unit? id with
  | none => simp [attack_of_gone hu]
  | some u =>
    have hiff := not_congr (isSome_attack hu amount)
    rw [Option.not_isSome_iff_eq_none] at hiff
    simpa using hiff

/-! ## Starting a turn -/

theorem beginTurn_of_waiting_eq_nil (h : b.queue.waiting = []) : b.beginTurn = (.ok none, b) := by
  have hstart : b.queue.startTurn = (none, b.queue) := by
    simp [TurnQueue.startTurn, TurnQueue.front?, h]
  rw [beginTurn, hstart]

/-- No turn is started if and only if nobody waits. -/
theorem Coherent.beginTurn_eq_none_iff (h : b.Coherent) :
    b.beginTurn.1 = .ok none ↔ b.queue.waiting = [] := by
  refine ⟨fun hnone ↦ ?_, fun hnil ↦ by rw [beginTurn_of_waiting_eq_nil hnil]⟩
  by_contra hne
  obtain ⟨id, owner, b', e, -⟩ := h.beginTurn_acting hne
  rw [e] at hnone
  cases hnone

end Board

namespace Scene

variable [WordSource ρ]

/-- In every scene that can be reached, whatever is asked for:

* unless a unit is spawned at a location, the board is as it was.  If the tile is taken,
  the refusal says so, whoever the player is; else, if the player is unknown, it says
  that; else there is no error, and no unit if and only if the player has as many units
  on the board as there may be;
* unless a unit is spawned beside a location, the board is as it was but for the
  generator;
* a unit is not taken away if and only if it is gone, it does not move if and only if it
  is gone or boxed in, and it attacks nobody if and only if it is gone or has no enemy
  beside it; then the board is as it was, the generator included;
* no turn is started if and only if nobody waits, and then the board is as it was. -/
theorem refusals_leave_no_trace {torus : Torus} {unitLimit : Nat} {unitHp : Int64} {s : Scene ρ}
    (h : s.Reachable torus unitLimit unitHp) :
    (∀ player l,
      ((∀ id, (s.board.spawn player l).1 ≠ .ok (some id)) →
        (s.board.spawn player l).2 = s.board) ∧
      (s.board.tiles.isFree l = false →
        (s.board.spawn player l).1 = .error (.tileOccupied l)) ∧
      (s.board.tiles.isFree l = true → s.board.player? player = none →
        (s.board.spawn player l).1 = .error (.unknownPlayer player)) ∧
      (s.board.tiles.isFree l = true → (s.board.player? player).isSome = true →
        ∃ r, (s.board.spawn player l).1 = .ok r ∧
          (r = none ↔ s.board.countOf player = s.board.unitLimit))) ∧
    (∀ player l, (∀ id, (s.board.spawnAdjacent player l).1 ≠ .ok (some id)) →
      ∃ g, (s.board.spawnAdjacent player l).2 = { s.board with rng := g }) ∧
    (∀ id, ((s.board.despawn id).1 = none ↔ s.board.unit? id = none) ∧
      ((s.board.despawn id).1 = none → (s.board.despawn id).2 = s.board)) ∧
    (∀ id,
      ((s.board.move id).1 = none ↔ ∀ u, s.board.unit? id = some u →
        ∀ m ∈ s.board.torus.neighbours u.location, s.board.tiles.isFree m = false) ∧
      ((s.board.move id).1 = none → (s.board.move id).2 = s.board)) ∧
    (∀ id amount,
      ((s.board.attack id amount).1 = none ↔
        ∀ u, s.board.unit? id = some u → s.board.adjacent u .enemy = []) ∧
      ((s.board.attack id amount).1 = none → (s.board.attack id amount).2 = s.board)) ∧
    (s.board.beginTurn.1 = .ok none ↔ s.board.queue.waiting = []) ∧
    (s.board.beginTurn.1 = .ok none → s.board.beginTurn.2 = s.board) := by
  have hb := h.coherent
  refine ⟨fun player l ↦ ⟨Board.spawn_refused, Board.spawn_of_taken, Board.spawn_of_unknown, ?_⟩,
    fun _ _ ↦ Board.spawnAdjacent_refused,
    fun _ ↦ ⟨Board.despawn_eq_none_iff, Board.despawn_refused⟩,
    fun _ ↦ ⟨Board.move_eq_none_iff, Board.move_refused⟩,
    fun _ amount ↦ ⟨Board.attack_eq_none_iff amount, Board.attack_refused⟩,
    hb.beginTurn_eq_none_iff, fun hnone ↦ ?_⟩
  · intro hfree hknown
    obtain ⟨p, hp⟩ := Option.isSome_iff_exists.1 hknown
    obtain ⟨r, hr, hiff⟩ := Board.spawn_of_known hfree hp
    obtain ⟨hmem, rfl⟩ := hb.player?_eq_some_iff.1 hp
    have hle := hb.length_units_le p hmem
    refine ⟨r, hr, hiff.trans ?_⟩
    rw [← hb.length_units hmem]
    omega
  · rw [Board.beginTurn_of_waiting_eq_nil (hb.beginTurn_eq_none_iff.1 hnone)]

/-- An unknown player is told first that the tile is taken; beside a taken tile it is
the player who is unknown, when a tile has been drawn. -/
theorem refusals_leave_no_trace_standoff :
    (standoff.board.spawn (.ofIndex 2) ⟨0, 0⟩).1 = .error (.tileOccupied ⟨0, 0⟩) ∧
      (standoff.board.spawn (.ofIndex 2) ⟨0, 0⟩).2 = standoff.board ∧
      (standoff.board.spawnAdjacent (.ofIndex 2) ⟨0, 0⟩).1 =
        .error (.unknownPlayer (.ofIndex 2)) ∧
      (∃ g, (standoff.board.spawnAdjacent (.ofIndex 2) ⟨0, 0⟩).2 =
        { standoff.board with rng := g }) ∧
      (standoff.board.move 3).1 = none ∧ (standoff.board.move 3).2 = standoff.board := by
  obtain ⟨hspawn, hadjacent, -, hmove, -⟩ := refusals_leave_no_trace reachable_standoff
  obtain ⟨hsame, htaken, -⟩ := hspawn (.ofIndex 2) ⟨0, 0⟩
  have hoccupied := htaken (by decide +kernel)
  have hunknown : (standoff.board.spawnAdjacent (.ofIndex 2) ⟨0, 0⟩).1 =
      .error (.unknownPlayer (.ofIndex 2)) := by decide +kernel
  have hgone : (standoff.board.move 3).1 = none := by decide +kernel
  refine ⟨hoccupied, hsame fun id ↦ ?_, hunknown, hadjacent _ _ fun id ↦ ?_, hgone,
    (hmove 3).2 hgone⟩
  · rw [hoccupied]
    exact nofun
  · rw [hunknown]
    exact nofun

end Scene

end Skirmish.Arena
