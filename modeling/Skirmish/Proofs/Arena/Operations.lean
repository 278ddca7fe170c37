import Skirmish.Proofs.Arena.Coherence

/-!
# What the operations of the board do

Each operation that chooses, spawns, moves or attacks ends in one of a few ways,
which are said once here (`spawn_cases`, `move_cases`, `attack_cases` and so on);
nothing else has to look into their definitions.

Main statements: none of them takes the four places out of step (the lemmas of
`Board.Coherent`), and neither does an order to a unit (`coherent_perform`).
-/

namespace Skirmish.Arena

open Script Skirmish.Random

variable {ρ : Type}

/-! ## Changes within a unit -/

namespace Fighter

variable (u : Fighter)

@[simp] theorem station_tickCharge : u.tickCharge.2.station = u.station := by
  unfold tickCharge
  split
  · rfl
  · dsimp only
    split <;> rfl

@[simp] theorem station_startTurn : u.startTurn.2.station = u.station :=
  station_tickCharge _

@[simp] theorem station_tryAct : u.tryAct.2.station = u.station := by
  unfold tryAct
  split <;> rfl

@[simp] theorem station_setSpawn (turns : Nat) : (u.setSpawn turns).station = u.station := rfl

@[simp] theorem station_beginCharge (turns : Nat) : (u.beginCharge turns).station = u.station := rfl

@[simp] theorem station_defend : u.defend.station = u.station := rfl

@[simp] theorem station_fortify : u.fortify.station = u.station := rfl

@[simp] theorem station_damage (amount : Int64) : (u.damage amount).2.station = u.station := by
  unfold damage
  split <;> rfl

end Fighter

namespace Board

section Cases

variable (b : Board ρ)

/-- Spawning is refused, for one of three reasons, or puts a new unit on a free
tile. -/
theorem spawn_cases (player : PlayerId) (l : Location) :
    (b.tiles.isFree l = false ∧ b.spawn player l = (.error (.tileOccupied l), b)) ∨
    (b.tiles.isFree l = true ∧ b.player? player = none ∧
      b.spawn player l = (.error (.unknownPlayer player), b)) ∨
    ∃ p, b.tiles.isFree l = true ∧ b.player? player = some p ∧
      ((b.unitLimit ≤ p.units.length ∧ b.spawn player l = (.ok none, b)) ∨
        (p.units.length < b.unitLimit ∧ b.spawn player l = (.ok (some (b.spawned + 1)),
          b.add (.new (b.spawned + 1) player l b.unitHp)))) := by
  unfold spawn
  split
  next hf =>
    cases hp : b.player? player with
    | none => exact .inr (.inl ⟨hf, rfl, rfl⟩)
    | some p =>
      refine .inr (.inr ⟨p, hf, rfl, ?_⟩)
      by_cases hn : b.unitLimit ≤ p.units.length
      · exact .inl ⟨hn, if_pos hn⟩
      · exact .inr ⟨Nat.lt_of_not_le hn, if_neg hn⟩
  next hf => exact .inl ⟨by simpa using hf, rfl⟩

variable [WordSource ρ]

/-- A free tile beside a location is found if there is any; looking for it can
only move the generator on. -/
theorem chooseFreeNeighbour_cases (l : Location) :
    (b.chooseFreeNeighbour l = (none, b) ∧ ∀ m ∈ b.torus.neighbours l, b.tiles.isFree m = false) ∨
    ∃ goal g, goal ∈ b.torus.neighbours l ∧ b.tiles.isFree goal = true ∧
      b.chooseFreeNeighbour l = (some goal, { b with rng := g }) := by
  cases hc : (choose? ((b.torus.neighbours l).filter b.tiles.isFree) b.rng).1 with
  | none =>
    have hnil := choose?_eq_none_iff.1 hc
    refine .inl ⟨by simp [chooseFreeNeighbour, choose, hnil], fun m hm ↦ ?_⟩
    simpa using List.filter_eq_nil_iff.1 hnil m hm
  | some goal =>
    have hm := List.mem_filter.1 (mem_of_choose? hc)
    exact .inr ⟨goal, _, hm.1, hm.2, by simp only [chooseFreeNeighbour, choose, hc]; rfl⟩

/-- Spawning beside a location is spawning at a free tile, where there is one. -/
theorem spawnAdjacent_cases (player : PlayerId) (l : Location) :
    b.spawnAdjacent player l = (.ok none, b) ∨
    ∃ goal g, goal ∈ b.torus.neighbours l ∧ b.tiles.isFree goal = true ∧
      b.spawnAdjacent player l = { b with rng := g }.spawn player goal := by
  unfold spawnAdjacent
  obtain ⟨e, -⟩ | ⟨goal, g, hm, hf, e⟩ := b.chooseFreeNeighbour_cases l
  · exact .inl (by rw [e])
  · exact .inr ⟨goal, g, hm, hf, by rw [e]⟩

/-- A unit stays where it is or goes to a free tile beside it. -/
theorem move_cases (id : Serial) :
    b.move id = (none, b) ∨
    ∃ u goal g, b.unit? id = some u ∧ goal ∈ b.torus.neighbours u.location ∧
      b.tiles.isFree goal = true ∧ b.move id = (some (u.location, goal),
        { { b with rng := g }.setUnit { u with location := goal } with
          tiles := (b.tiles.clear u.location).place goal id }) := by
  unfold move
  cases hid : b.unit? id with
  | none => exact .inl rfl
  | some u =>
    obtain ⟨e, -⟩ | ⟨goal, g, hm, hf, e⟩ := b.chooseFreeNeighbour_cases u.location
    · exact .inl (by simp only [e])
    · exact .inr ⟨u, goal, g, rfl, hm, hf, by simp only [e]⟩

omit [WordSource ρ] in
/-- The unit that answers to a number has it. -/
theorem serial_of_unit? {b : Board ρ} {id : Serial} {u : Fighter} (h : b.unit? id = some u) :
    u.serial = id := by
  simpa using List.find?_some h

omit [WordSource ρ] in
theorem mem_of_unit? {b : Board ρ} {id : Serial} {u : Fighter} (h : b.unit? id = some u) :
    u ∈ b.units :=
  List.mem_of_find?_eq_some h

omit [WordSource ρ] in
/-- The enemies beside a unit are units of other owners. -/
theorem exists_of_mem_adjacent_enemy {b : Board ρ} {u : Fighter} {id : Serial}
    (h : id ∈ b.adjacent u .enemy) : ∃ v, b.unit? id = some v ∧ v.owner ≠ u.owner := by
  have hside := (List.mem_filter.1 h).2
  simp only [isOnSide, Bool.and_eq_true, Option.any_eq_true] at hside
  obtain ⟨-, v, hv, ho⟩ := hside
  exact ⟨v, hv, by simpa [Side.includes] using ho⟩

/-- An attack strikes one of the enemies beside the attacker, if there are any. -/
theorem attack_cases (id : Serial) (amount : Int64) :
    b.attack id amount = (none, b) ∨
    ∃ u v g, b.unit? id = some u ∧ b.unit? v.serial = some v ∧
      v.serial ∈ b.adjacent u .enemy ∧ v.owner ≠ u.owner ∧
      b.attack id amount = (some ({ b with rng := g }.strike v amount).1,
        ({ b with rng := g }.strike v amount).2) := by
  unfold attack
  cases hid : b.unit? id with
  | none => exact .inl rfl
  | some u =>
    cases hc : (choose? (b.adjacent u .enemy) b.rng).1 with
    | none =>
      have hnil := choose?_eq_none_iff.1 hc
      exact .inl (by simp [choose, hnil])
    | some target =>
      have hmem := mem_of_choose? hc
      obtain ⟨v, hv, ho⟩ := exists_of_mem_adjacent_enemy hmem
      obtain rfl := serial_of_unit? hv
      refine .inr ⟨u, v, (choose? (b.adjacent u .enemy) b.rng).2, rfl, hv, hmem, ho, ?_⟩
      simp only [choose, hc]
      have hv' : { b with rng := (choose? (b.adjacent u .enemy) b.rng).2 }.unit? v.serial =
        some v := hv
      simp only [hv']

/-- A location that is drawn is on the board, and drawing it moves the generator on. -/
theorem drawFreeWithin_eq (draws : Nat) (b : Board ρ) :
    ∃ l g, b.torus.Contains l ∧ b.drawFreeWithin draws = (l, { b with rng := g }) := by
  induction draws generalizing b with
  | zero =>
    refine ⟨_, _, ?_, rfl⟩
    have hl := b.torus.contains_randomLocation b.rng
    dsimp only
    split
    · exact hl
    · cases hf : b.tiles.firstFree? with
      | none => exact hl
      | some m =>
        obtain ⟨i, hi, rfl⟩ := Option.map_eq_some_iff.1 hf
        exact Torus.contains_ofIndex (List.mem_range.1 (List.mem_of_find?_eq_some hi))
  | succ draws ih =>
    unfold drawFreeWithin
    dsimp only
    split
    · exact ⟨_, _, b.torus.contains_randomLocation b.rng, rfl⟩
    · obtain ⟨l, g, hl, e⟩ := ih { b with rng := (b.torus.randomLocation b.rng).2 }
      exact ⟨l, g, hl, e⟩

end Cases

/-- What spawning at a location on the board keeps, wherever the generator stands,
spawning a unit for each player keeps. -/
theorem spawnEach_keeps [WordSource ρ] {P : Board ρ → Prop}
    (hspawn : ∀ (b : Board ρ) (g : ρ) (player : PlayerId) (l : Location), P b →
      b.torus.Contains l → P ({ b with rng := g }.spawn player l).2)
    {b : Board ρ} (h : P b) (ps : List PlayerId) : P (b.spawnEach ps).2 := by
  induction ps generalizing b with
  | nil => exact h
  | cons p ps ih =>
    obtain ⟨l, g, hl, e⟩ := drawFreeWithin_eq (64 * b.torus.size) b
    have hs := hspawn b g p l h hl
    unfold spawnEach drawFree
    rw [e]
    dsimp only
    split
    next heq =>
      rw [heq] at hs
      exact hs
    next heq =>
      rw [heq] at hs
      exact ih hs

/-! ## Coherence is kept -/

namespace Coherent

variable {b : Board ρ}

/-- A unit can change within itself. -/
theorem updateUnit (h : b.Coherent) (id : Serial) {f : Fighter → Fighter}
    (hf : ∀ u, (f u).station = u.station) : (b.updateUnit id f).Coherent := by
  unfold Board.updateUnit
  split
  · exact h
  next u hid => exact h.setUnit (mem_of_unit? hid) (hf u)

theorem spawn (h : b.Coherent) (player : PlayerId) {l : Location} (hl : b.torus.Contains l) :
    (b.spawn player l).2.Coherent := by
  obtain ⟨-, e⟩ | ⟨-, -, e⟩ | ⟨p, hf, hp, ⟨-, e⟩ | ⟨hn, e⟩⟩ := b.spawn_cases player l
  · rw [e]
    exact h
  · rw [e]
    exact h
  · rw [e]
    exact h
  · rw [e]
    obtain ⟨hp, ho⟩ := h.player?_eq_some_iff.1 hp
    exact h.add (u := .new (b.spawned + 1) player l b.unitHp) (Nat.lt_succ_self _) hl
      (Tiles.isFree_iff.1 hf) hp ho hn

variable [WordSource ρ]

theorem spawnAdjacent (h : b.Coherent) (player : PlayerId) {l : Location}
    (hl : b.torus.Contains l) : (b.spawnAdjacent player l).2.Coherent := by
  obtain e | ⟨goal, g, hm, -, e⟩ := b.spawnAdjacent_cases player l
  · rw [e]
    exact h
  · rw [e]
    exact (h.withRng g).spawn player (Torus.contains_of_mem_neighbours hl hm)

theorem spawnEach (h : b.Coherent) (ps : List PlayerId) : (b.spawnEach ps).2.Coherent :=
  spawnEach_keeps (fun _ g p _ hb hl ↦ (hb.withRng g).spawn p hl) h ps

theorem move (h : b.Coherent) (id : Serial) : (b.move id).2.Coherent := by
  obtain e | ⟨u, goal, g, hid, hm, hf, e⟩ := b.move_cases id
  · rw [e]
    exact h
  · rw [e]
    obtain ⟨hu, rfl⟩ := h.unit?_eq_some_iff.1 hid
    exact (h.withRng g).relocate hu (Torus.contains_of_mem_neighbours (h.contains u hu) hm)
      (Tiles.isFree_iff.1 hf)

omit [WordSource ρ] in
theorem strike (h : b.Coherent) {v : Fighter} (hv : v ∈ b.units) (amount : Int64) :
    (b.strike v amount).2.Coherent := by
  have hs := h.setUnit hv (v.station_damage amount)
  unfold Board.strike
  dsimp only
  split
  · exact hs.despawn _
  · exact hs

theorem attack (h : b.Coherent) (id : Serial) (amount : Int64) :
    (b.attack id amount).2.Coherent := by
  obtain e | ⟨u, v, g, -, hv, -, -, e⟩ := b.attack_cases id amount
  · rw [e]
    exact h
  · rw [e]
    exact (h.withRng g).strike (mem_of_unit? hv) amount

theorem settle (h : b.Coherent) {u : Fighter} (hu : b.torus.Contains u.location) (due : Due) :
    (b.settle u due).2.Coherent := by
  have hs :
      (if due.spawn then b.spawnAdjacent u.owner u.location else (.ok none, b)).2.Coherent := by
    split
    · exact h.spawnAdjacent u.owner hu
    · exact h
  unfold Board.settle
  dsimp only
  split
  · exact hs
  · exact hs
  · exact hs.attack _ _

theorem beginTurn (h : b.Coherent) : b.beginTurn.2.Coherent := by
  unfold Board.beginTurn
  split
  · exact h
  next id q hq =>
    have hwait : q.waiting = b.queue.waiting := by
      unfold TurnQueue.startTurn at hq
      split at hq <;> cases hq
      rfl
    have hb : { b with queue := q }.Coherent := h.withQueue (by rw [hwait])
    dsimp only
    split
    · exact hb
    next u hid =>
      have hu := mem_of_unit? hid
      have hset := hb.setUnit hu u.station_startTurn
      have hloc : u.startTurn.2.location = u.location :=
        congrArg (·.2.2) u.station_startTurn
      exact hset.settle (by rw [hloc]; exact h.contains u hu) _

omit [WordSource ρ] in
theorem endTurn (h : b.Coherent) : b.endTurn.Coherent := h.withQueue b.queue.perm_endTurn

end Coherent

end Board

namespace Scene

variable [WordSource ρ] {s : Scene ρ}

theorem coherent_carryOut (h : s.board.Coherent) (u : Fighter) (o : Order) :
    (s.carryOut u o).2.board.Coherent := by
  cases o with
  | attack => exact h.attack _ _
  | charge turns => exact h.updateUnit _ fun v ↦ v.station_beginCharge turns
  | move =>
    have hm := h.move u.serial
    simp only [carryOut]
    split <;> simp_all [message]
  | spawn => exact h.updateUnit _ fun v ↦ v.station_setSpawn spawnDelay
  | wait => exact h
  | defend => exact h.updateUnit _ Fighter.station_defend
  | fortify => exact h.updateUnit _ Fighter.station_fortify

/-- A unit that is gone or busy obeys no order.  Any other carries the order out,
which uses up its action. -/
theorem obey_cases (s : Scene ρ) (id : Serial) (o : Order) :
    ((∀ u, s.board.unit? id = some u → u.canAct = false) ∧ s.obey id o = (false, s)) ∨
    ∃ u, s.board.unit? id = some u ∧ u.canAct = true ∧
      s.obey id o = { s with board := s.board.setUnit { u with acted := true } }.carryOut
        { u with acted := true } o := by
  unfold obey
  cases hid : s.board.unit? id with
  | none => exact .inl ⟨nofun, rfl⟩
  | some u =>
    cases hact : u.canAct with
    | true => exact .inr ⟨u, rfl, hact, by simp [Fighter.tryAct, hact]⟩
    | false =>
      refine .inl ⟨?_, by simp [Fighter.tryAct, hact]⟩
      rintro _ ⟨⟩
      exact hact

/-- A call is an order to the unit, or it changes nothing. -/
theorem perform_cases (s : Scene ρ) (id : Serial) (c : Command) (args : List Value) :
    ((∀ o, c.isAction = true → Order.ofCall c args ≠ .ok o) ∧ (s.perform id c args).2 = s) ∨
    ∃ o, c.isAction = true ∧ Order.ofCall c args = .ok o ∧
      s.perform id c args = (.ok (.bool (s.obey id o).1), (s.obey id o).2) := by
  unfold perform
  cases hc : c.isAction with
  | false => exact .inl ⟨nofun, rfl⟩
  | true =>
    cases ho : Order.ofCall c args with
    | error f => exact .inl ⟨nofun, rfl⟩
    | ok o => exact .inr ⟨o, rfl, rfl, rfl⟩

theorem coherent_obey (h : s.board.Coherent) (id : Serial) (o : Order) :
    (s.obey id o).2.board.Coherent := by
  obtain ⟨-, e⟩ | ⟨u, hu, -, e⟩ := s.obey_cases id o
  · rw [e]
    exact h
  · rw [e]
    exact coherent_carryOut (h.setUnit (v := { u with acted := true }) (Board.mem_of_unit? hu) rfl)
      _ _

theorem coherent_perform (h : s.board.Coherent) (id : Serial) (c : Command) (args : List Value) :
    (s.perform id c args).2.board.Coherent := by
  obtain ⟨-, e⟩ | ⟨o, -, -, e⟩ := s.perform_cases id c args
  · rw [e]
    exact h
  · rw [e]
    exact coherent_obey h id o

end Scene

end Skirmish.Arena
