import Skirmish.Proofs.Arena.Operations

/-!
# The unit whose turn it is

What holds of a board while a unit has its turn: the unit stays on the board,
because attacks only hit units of other owners; the players stay the same,
because nobody leaves before the turn is over; and no other turn is started.
`Board.Acting` says so, and whatever the unit is told to do keeps it
(`Scene.acting_perform`).

Between turns a board is `Settled`: every player who is left has units.

Main statements: where units wait, a turn can be started, and the spawning that
falls due then cannot fail (`Coherent.beginTurn_acting`); and when players
without units have left, somebody remains (`Acting.settled`).
-/

namespace Skirmish.Arena

open Script Skirmish.Random

variable {ρ : Type}

namespace Board

/-- The turn of a unit on a board with these players, the last one of so many. -/
structure Acting (players : List PlayerId) (turns : Nat) (id : Serial) (owner : PlayerId)
    (b : Board ρ) : Prop where
  coherent : b.Coherent
  players : b.players.map (·.id) = players
  turns : b.queue.turns = turns
  /-- The unit is on the board. -/
  actor : ∃ u ∈ b.units, u.serial = id ∧ u.owner = owner

namespace Acting

variable {players : List PlayerId} {turns : Nat} {id : Serial} {owner : PlayerId} {b : Board ρ}

theorem withRng (h : b.Acting players turns id owner) (g : ρ) :
    { b with rng := g }.Acting players turns id owner :=
  ⟨h.coherent.withRng g, h.players, h.turns, h.actor⟩

theorem setUnit (h : b.Acting players turns id owner) {u v : Fighter} (hu : u ∈ b.units)
    (hv : v.station = u.station) : (b.setUnit v).Acting players turns id owner where
  coherent := h.coherent.setUnit hu hv
  players := h.players
  turns := h.turns
  actor := (exists_iff_of_map_eq (h.coherent.map_station_setUnit hu hv)
    fun s ↦ s.1 = id ∧ s.2.1 = owner).2 h.actor

theorem updateUnit (h : b.Acting players turns id owner) (unit : Serial) {f : Fighter → Fighter}
    (hf : ∀ u, (f u).station = u.station) :
    (b.updateUnit unit f).Acting players turns id owner := by
  unfold Board.updateUnit
  split
  · exact h
  next u hid => exact h.setUnit (mem_of_unit? hid) (hf u)

/-- The unit that answers to the number is the one whose turn it is. -/
theorem owner_of_unit? (h : b.Acting players turns id owner) {u : Fighter}
    (hu : b.unit? id = some u) : u.owner = owner := by
  obtain ⟨v, hv, hs, ho⟩ := h.actor
  have := h.coherent.unit?_eq_some_iff.2 ⟨hv, hs⟩
  rw [hu] at this
  rw [Option.some.inj this, ho]

/-- Any other unit can go. -/
theorem despawn (h : b.Acting players turns id owner) {other : Serial} (hne : other ≠ id) :
    (b.despawn other).2.Acting players turns id owner := by
  have hc := h.coherent.despawn other
  cases hu : b.unit? other with
  | none =>
    rw [despawn_of_none hu]
    exact h
  | some u =>
    rw [despawn_of_unit? hu] at hc ⊢
    refine ⟨hc, ?_, h.turns, ?_⟩
    · exact (b.map_id_updatePlayer u.owner (f := (·.removeUnit other)) fun _ ↦ rfl).trans h.players
    · obtain ⟨w, hw, hs, ho⟩ := h.actor
      exact ⟨w, List.mem_filter.2 ⟨hw, by simpa [hs] using hne.symm⟩, hs, ho⟩

/-- A unit of another owner can be struck, and even killed. -/
theorem strike (h : b.Acting players turns id owner) {v : Fighter} (hv : b.unit? v.serial = some v)
    (ho : v.owner ≠ owner) (amount : Int64) :
    (b.strike v amount).2.Acting players turns id owner := by
  have hs := h.setUnit (mem_of_unit? hv) (v.station_damage amount)
  have hserial : (v.damage amount).2.serial = v.serial :=
    congrArg Prod.fst (v.station_damage amount)
  have hne : v.serial ≠ id := by
    rintro rfl
    exact ho (h.owner_of_unit? hv)
  unfold Board.strike
  dsimp only
  split
  · exact hs.despawn (hserial ▸ hne)
  · exact hs

/-- A new unit can come. -/
theorem add (h : b.Acting players turns id owner) {u : Fighter} (hadd : (b.add u).Coherent) :
    (b.add u).Acting players turns id owner where
  coherent := hadd
  players := (b.map_id_add u).trans h.players
  turns := (TurnQueue.turns_enqueue b.queue u.serial).trans h.turns
  actor := by
    obtain ⟨w, hw, hs⟩ := h.actor
    exact ⟨w, List.mem_append_left _ hw, hs⟩

theorem spawn (h : b.Acting players turns id owner) (player : PlayerId) {l : Location}
    (hl : b.torus.Contains l) : (b.spawn player l).2.Acting players turns id owner := by
  have hs := h.coherent.spawn player hl
  obtain ⟨-, e⟩ | ⟨-, -, e⟩ | ⟨p, -, -, ⟨-, e⟩ | ⟨-, e⟩⟩ := b.spawn_cases player l
  · rw [e]
    exact h
  · rw [e]
    exact h
  · rw [e]
    exact h
  · rw [e] at hs ⊢
    exact h.add hs

variable [WordSource ρ]

theorem attack (h : b.Acting players turns id owner) (amount : Int64) :
    (b.attack id amount).2.Acting players turns id owner := by
  obtain e | ⟨u, v, g, hu, hv, -, ho, e⟩ := b.attack_cases id amount
  · rw [e]
    exact h
  · rw [e]
    exact (h.withRng g).strike hv (h.owner_of_unit? hu ▸ ho) amount

theorem move (h : b.Acting players turns id owner) (unit : Serial) :
    (b.move unit).2.Acting players turns id owner := by
  have hc := h.coherent.move unit
  obtain e | ⟨u, goal, g, hu, -, -, e⟩ := b.move_cases unit
  · rw [e]
    exact h
  · rw [e] at hc ⊢
    refine ⟨hc, h.players, h.turns, ?_⟩
    obtain ⟨w, hw, hs, ho⟩ := h.actor
    have hmem := h.coherent.mem_setUnit (v := { u with location := goal }) (mem_of_unit? hu) rfl
    by_cases e : w = u
    · exact ⟨_, (hmem _).2 (.inl rfl), e ▸ hs, e ▸ ho⟩
    · exact ⟨w, (hmem w).2 (.inr ⟨hw, e⟩), hs, ho⟩

theorem spawnAdjacent (h : b.Acting players turns id owner) (player : PlayerId) {l : Location}
    (hl : b.torus.Contains l) : (b.spawnAdjacent player l).2.Acting players turns id owner := by
  obtain e | ⟨goal, g, hm, -, e⟩ := b.spawnAdjacent_cases player l
  · rw [e]
    exact h
  · rw [e]
    exact (h.withRng g).spawn player (Torus.contains_of_mem_neighbours hl hm)

end Acting

/-! ## Starting a turn -/

variable [WordSource ρ]

/-- A free tile is looked for, so spawning beside a location only fails for
players who are not known. -/
theorem spawnAdjacent_ok {b : Board ρ} {player : PlayerId} {p : Player}
    (hp : b.player? player = some p) (l : Location) :
    ∃ r, (b.spawnAdjacent player l).1 = .ok r := by
  obtain e | ⟨goal, g, -, hf, e⟩ := b.spawnAdjacent_cases player l
  · exact ⟨none, by rw [e]⟩
  · obtain ⟨hn, -⟩ | ⟨-, hn, -⟩ | ⟨q, -, -, ⟨-, e'⟩ | ⟨-, e'⟩⟩ :=
      { b with rng := g }.spawn_cases player goal
    · cases hf.symm.trans hn
    · cases hp.symm.trans hn
    · exact ⟨none, by rw [e, e']⟩
    · exact ⟨_, by rw [e, e']⟩

/-- The owner of a unit is known, so what falls due for the unit comes about. -/
theorem Acting.settle {players : List PlayerId} {turns : Nat} {u : Fighter} {b : Board ρ}
    (h : b.Acting players turns u.serial u.owner) (hu : u ∈ b.units) (due : Due) :
    (b.settle u due).1 = .ok () ∧ (b.settle u due).2.Acting players turns u.serial u.owner := by
  have hspawn : ∃ r b', (if due.spawn then b.spawnAdjacent u.owner u.location else (.ok none, b)) =
      (.ok r, b') ∧ b'.Acting players turns u.serial u.owner := by
    split
    · obtain ⟨p, hp, ho⟩ := List.mem_map.1 (h.coherent.owner_mem u hu)
      obtain ⟨r, hr⟩ := spawnAdjacent_ok (h.coherent.player?_eq_some_iff.2 ⟨hp, ho⟩) u.location
      exact ⟨r, _, Prod.ext hr rfl, h.spawnAdjacent u.owner (h.coherent.contains u hu)⟩
    · exact ⟨none, b, rfl, h⟩
  obtain ⟨r, b', e, h'⟩ := hspawn
  unfold Board.settle
  rw [e]
  cases due.charge with
  | none => exact ⟨rfl, h'⟩
  | some amount => exact ⟨rfl, h'.attack amount⟩

/-- The board when the turn of a unit has been started and nothing has fallen due yet. -/
def started (b : Board ρ) (id : Serial) : Board ρ :=
  { b with queue := { b.queue with turns := b.queue.turns + 1, acting := some id } }

/-- Starting a turn is making the first unit ready and settling what falls due for it. -/
theorem beginTurn_eq {b : Board ρ} {u : Fighter} {rest : List Serial}
    (hq : b.queue.waiting = u.serial :: rest) (hu : b.unit? u.serial = some u) :
    let settled := ((b.started u.serial).setUnit u.startTurn.2).settle u.startTurn.2 u.startTurn.1
    b.beginTurn = (settled.1.map fun _ ↦ some u.serial, settled.2) := by
  have hstart : b.queue.startTurn = (some u.serial, (b.started u.serial).queue) := by
    simp [started, TurnQueue.startTurn, TurnQueue.front?, hq]
  have hunit : { b with queue := (b.started u.serial).queue }.unit? u.serial = some u := hu
  unfold beginTurn
  rw [hstart]
  dsimp only
  rw [hunit]
  rfl

/-- The first unit in the queue gets its turn, and nothing goes wrong. -/
theorem Coherent.acting_beginTurn {b : Board ρ} (h : b.Coherent) {u : Fighter} {rest : List Serial}
    (hq : b.queue.waiting = u.serial :: rest) (hu : b.unit? u.serial = some u) :
    b.beginTurn.1 = .ok (some u.serial) ∧
      b.beginTurn.2.Acting (b.players.map (·.id)) (b.queue.turns + 1) u.serial u.owner := by
  have hmem := mem_of_unit? hu
  have hstarted : (b.started u.serial).Acting (b.players.map (·.id)) (b.queue.turns + 1) u.serial
      u.owner := ⟨h.withQueue (.refl _), rfl, rfl, u, hmem, rfl, rfl⟩
  have hs : u.startTurn.2.station = u.station := u.station_startTurn
  have hserial : u.startTurn.2.serial = u.serial := congrArg (·.1) hs
  have howner : u.startTurn.2.owner = u.owner := congrArg (·.2.1) hs
  have hready : ((b.started u.serial).setUnit u.startTurn.2).Acting (b.players.map (·.id))
      (b.queue.turns + 1) u.startTurn.2.serial u.startTurn.2.owner := by
    rw [hserial, howner]
    exact hstarted.setUnit hmem hs
  have hmem' : u.startTurn.2 ∈ ((b.started u.serial).setUnit u.startTurn.2).units :=
    (hstarted.coherent.mem_setUnit hmem hserial _).2 (.inl rfl)
  obtain ⟨hok, hacting⟩ := hready.settle hmem' u.startTurn.1
  rw [hserial, howner] at hacting
  rw [beginTurn_eq hq hu]
  exact ⟨by rw [hok]; rfl, hacting⟩

/-- Where units wait, it is the turn of one of them, and nothing goes wrong. -/
theorem Coherent.beginTurn_acting {b : Board ρ} (h : b.Coherent) (hw : b.queue.waiting ≠ []) :
    ∃ id owner b', b.beginTurn = (.ok (some id), b') ∧
      b'.Acting (b.players.map (·.id)) (b.queue.turns + 1) id owner := by
  obtain ⟨id, rest, hq⟩ := List.exists_cons_of_ne_nil hw
  obtain ⟨u, hu, rfl⟩ := (h.mem_waiting id).1 (hq ▸ List.mem_cons_self)
  obtain ⟨hok, hacting⟩ := h.acting_beginTurn hq (h.unit?_eq_some_iff.2 ⟨hu, rfl⟩)
  exact ⟨u.serial, u.owner, _, Prod.ext hok rfl, hacting⟩

/-! ## Between turns -/

/-- A board between turns, on which some of these players are left. -/
structure Settled (players : List PlayerId) (b : Board ρ) : Prop where
  coherent : b.Coherent
  players : (b.players.map (·.id)).Sublist players
  /-- Players without units have left. -/
  populated : ∀ p ∈ b.players, p.units ≠ []
  /-- Somebody remains. -/
  players_ne_nil : b.players ≠ []

omit [WordSource ρ] in
/-- The unit whose turn it was keeps its owner in. -/
theorem Acting.settled {players : List PlayerId} {turns : Nat} {id : Serial} {owner : PlayerId}
    {b : Board ρ} (h : b.Acting players turns id owner) : b.removeEliminated.2.Settled players where
  coherent := h.coherent.removeEliminated
  players := h.players ▸ List.filter_sublist.map _
  populated := by
    intro p hp
    simpa using (List.mem_filter.1 hp).2
  players_ne_nil := by
    obtain ⟨u, hu, -, -⟩ := h.actor
    have hleft := h.coherent.removeEliminated.owner_mem u hu
    intro hnil
    rw [hnil] at hleft
    cases hleft

omit [WordSource ρ] in
theorem Acting.endTurn {players : List PlayerId} {turns : Nat} {id : Serial} {owner : PlayerId}
    {b : Board ρ} (h : b.Acting players turns id owner) : b.endTurn.Acting players turns id owner :=
  ⟨h.coherent.endTurn, h.players, (TurnQueue.turns_endTurn b.queue).trans h.turns, h.actor⟩

end Board

namespace Scene

variable [WordSource ρ] {players : List PlayerId} {turns : Nat} {id : Serial} {owner : PlayerId}
  {s : Scene ρ}

theorem acting_carryOut (h : s.board.Acting players turns id owner) {u : Fighter}
    (hu : u.serial = id) (o : Order) : (s.carryOut u o).2.board.Acting players turns id owner := by
  subst hu
  cases o with
  | attack => exact h.attack _
  | charge turns => exact h.updateUnit _ fun v ↦ v.station_beginCharge turns
  | move =>
    have hm := h.move u.serial
    simp only [carryOut]
    split <;> simp_all [message]
  | spawn => exact h.updateUnit _ fun v ↦ v.station_setSpawn spawnDelay
  | wait => exact h
  | defend => exact h.updateUnit _ Fighter.station_defend
  | fortify => exact h.updateUnit _ Fighter.station_fortify

theorem acting_obey (h : s.board.Acting players turns id owner) (o : Order) :
    (s.obey id o).2.board.Acting players turns id owner := by
  obtain ⟨-, e⟩ | ⟨u, hu, -, e⟩ := s.obey_cases id o
  · rw [e]
    exact h
  · rw [e]
    have hset := h.setUnit (v := { u with acted := true }) (Board.mem_of_unit? hu) rfl
    exact acting_carryOut hset (Board.serial_of_unit? hu) o

/-- Whatever the unit whose turn it is does, it stays on the board. -/
theorem acting_perform (h : s.board.Acting players turns id owner) (c : Command)
    (args : List Value) : (s.perform id c args).2.board.Acting players turns id owner := by
  obtain ⟨-, e⟩ | ⟨o, -, -, e⟩ := s.perform_cases id c args
  · rw [e]
    exact h
  · rw [e]
    exact acting_obey h o

end Scene

end Skirmish.Arena
