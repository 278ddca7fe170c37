import Skirmish.Proofs.Arena.Reach
import Skirmish.Proofs.Arena.Reachable

/-!
# Timers and hit points in order

Nothing in a unit keeps its two timers from running at once or its strength from
growing past 32 bits: `setSpawn` and `beginCharge` do as they are told.  What
keeps them in order is that a unit is only told so when it can act
(`Fighter.Sound.setSpawn`, `Fighter.Sound.beginCharge`), and what keeps its hit
points above 0 is that a unit with none is taken off the board at once
(`Board.Sound.strike`).

Main statement: as long as no unit is changed by hand, every unit on the board is
`Sound`, and no counter leaves its range when a turn starts (`units_sound`).
-/

namespace Skirmish.Arena

open Script Skirmish.Random

/-! ## One unit -/

theorem toInt_clamp (n : Int) :
    (clamp n).toInt = max Int64.minValue.toInt (min n Int64.maxValue.toInt) := by
  have hle : Int64.minValue.toInt ≤ Int64.maxValue.toInt := by decide
  unfold clamp Int64.ofIntClamp
  split
  next hl =>
    split
    next hu =>
      rw [Int64.toInt_ofIntLE]
      omega
    next => omega
  next => omega

theorem one_le_clamp {n : Int} (h : 1 ≤ n) : 1 ≤ (clamp n).toInt := by
  have hmax : 1 ≤ Int64.maxValue.toInt := by decide
  rw [toInt_clamp]
  omega

namespace Fighter

/-- What holds of a unit whose timers have only been set when it could act. -/
structure Sound (u : Fighter) : Prop where
  one_le_hp : 1 ≤ u.hp.toInt
  /-- It does not spawn and charge at once. -/
  one_timer : u.spawnTimer = 0 ∨ u.chargeTimer = 0
  spawnTimer_le : u.spawnTimer ≤ spawnDelay
  /-- It gains strength only while it charges. -/
  strength_eq : u.chargeTimer = 0 → u.chargeStrength = 0
  /-- A charge is no stronger in the end than timers are long. -/
  strength_le : u.chargeStrength + u.chargeTimer ≤ maxTimer

/-- One less, if that is a number of 32 bits. -/
def lower? (n : Nat) : Option Nat := if n = 0 then none else some (n - 1)

/-- One more, if that is a number of 32 bits. -/
def raise? (n : Nat) : Option Nat := if n < maxTimer then some (n + 1) else none

/-- Run the spawn timer down, if no number leaves its range by that. -/
def tickSpawn? (u : Fighter) : Option (Bool × Fighter) :=
  if u.spawnTimer = 0 then some (false, u)
  else do
    let timer ← lower? u.spawnTimer
    return (timer == 0, { u with spawnTimer := timer })

/-- Run the charge timer down, gaining strength, if no number leaves its range by that. -/
def tickCharge? (u : Fighter) : Option (Option Int64 × Fighter) :=
  if u.chargeTimer = 0 then some (none, u)
  else do
    let timer ← lower? u.chargeTimer
    let strength ← raise? u.chargeStrength
    if timer = 0 then
      return (some (chargeDamage strength), { u with chargeTimer := timer, chargeStrength := 0 })
    else return (none, { u with chargeTimer := timer, chargeStrength := strength })

/-- Start the unit's next turn, if no number leaves its range by that. -/
def startTurn? (u : Fighter) : Option (Due × Fighter) := do
  let u := { u with turn := u.turn + 1, defending := false, acted := false }
  let (spawn, u) ← u.tickSpawn?
  let (charge, u) ← u.tickCharge?
  return (⟨spawn, charge⟩, u)

/-- The spawn timer runs down exactly. -/
theorem tickSpawn?_eq (u : Fighter) : u.tickSpawn? = some u.tickSpawn := by
  obtain ⟨_, _, _, _, spawnTimer, _⟩ := u
  cases spawnTimer with
  | zero => rfl
  | succ n => simp [tickSpawn?, tickSpawn, lower?]

theorem tickCharge?_eq {u : Fighter} (h : u.chargeStrength + u.chargeTimer ≤ maxTimer) :
    u.tickCharge? = some u.tickCharge := by
  unfold tickCharge? tickCharge
  by_cases hzero : u.chargeTimer = 0
  · rw [if_pos hzero, if_pos hzero]
  · have hraise : u.chargeStrength < maxTimer := by omega
    rw [if_neg hzero, if_neg hzero, lower?, if_neg hzero, raise?, if_pos hraise]
    by_cases hone : u.chargeTimer = 1
    · simp [hone]
    · have hmore : u.chargeTimer - 1 ≠ 0 := by omega
      simp [hone, hmore]

/-- Where its strength and its charge timer are short enough, a unit can start its
turn without a number leaving its range. -/
theorem startTurn?_eq {u : Fighter} (h : u.chargeStrength + u.chargeTimer ≤ maxTimer) :
    u.startTurn? = some u.startTurn := by
  unfold startTurn? startTurn
  simp only [tickSpawn?_eq, Option.bind_eq_bind, Option.bind_some]
  rw [tickCharge?_eq]
  · rfl
  · exact h

theorem sound_new {serial : Serial} {owner : PlayerId} {l : Location} {hp : Int64}
    (h : 1 ≤ hp.toInt) : (new serial owner l hp).Sound where
  one_le_hp := h
  one_timer := .inl rfl
  spawnTimer_le := Nat.zero_le _
  strength_eq _ := rfl
  strength_le := Nat.zero_le _

theorem sound_tickSpawn {u : Fighter} (h : u.Sound) : u.tickSpawn.2.Sound where
  one_le_hp := h.one_le_hp
  one_timer := h.one_timer.imp_left fun e ↦ by simp [tickSpawn, e]
  spawnTimer_le := Nat.le_trans (Nat.sub_le _ _) h.spawnTimer_le
  strength_eq := h.strength_eq
  strength_le := h.strength_le

theorem sound_tickCharge {u : Fighter} (h : u.Sound) : u.tickCharge.2.Sound := by
  have hle := h.strength_le
  unfold tickCharge
  split
  · exact h
  next hzero =>
    have hspawn : u.spawnTimer = 0 := h.one_timer.resolve_right hzero
    dsimp only
    split
    · exact ⟨h.one_le_hp, .inr rfl, h.spawnTimer_le, fun _ ↦ rfl, Nat.zero_le _⟩
    next hone =>
      refine ⟨h.one_le_hp, .inl hspawn, h.spawnTimer_le, fun e ↦ ?_, ?_⟩
      · dsimp only at e
        omega
      · dsimp only
        omega

namespace Sound

variable {u : Fighter}

/-- Soundness is about hit points and timers. -/
theorem congr {v : Fighter} (h : u.Sound) (hhp : v.hp = u.hp) (hspawn : v.spawnTimer = u.spawnTimer)
    (hcharge : v.chargeTimer = u.chargeTimer) (hstrength : v.chargeStrength = u.chargeStrength) :
    v.Sound := by
  constructor
  · exact hhp ▸ h.one_le_hp
  · rw [hspawn, hcharge]
    exact h.one_timer
  · exact hspawn ▸ h.spawnTimer_le
  · rw [hcharge, hstrength]
    exact h.strength_eq
  · rw [hcharge, hstrength]
    exact h.strength_le

theorem startTurn (h : u.Sound) : u.startTurn.2.Sound :=
  sound_tickCharge (sound_tickSpawn (h.congr rfl rfl rfl rfl))

/-- A unit that can act has no timer running. -/
theorem setSpawn (h : u.Sound) (hspawn : u.spawnTimer = 0) (hcharge : u.chargeTimer = 0) :
    (u.setSpawn spawnDelay).Sound where
  one_le_hp := h.one_le_hp
  one_timer := .inr hcharge
  spawnTimer_le := by
    rw [Fighter.setSpawn, hspawn, Nat.zero_add]
    exact Nat.min_le_left _ _
  strength_eq := h.strength_eq
  strength_le := h.strength_le

theorem beginCharge (h : u.Sound) (hspawn : u.spawnTimer = 0) (hcharge : u.chargeTimer = 0)
    {turns : Nat} (hturns : turns ≤ maxTimer) : (u.beginCharge turns).Sound where
  one_le_hp := h.one_le_hp
  one_timer := .inl hspawn
  spawnTimer_le := h.spawnTimer_le
  strength_eq _ := h.strength_eq hcharge
  strength_le := by
    rw [Fighter.beginCharge, h.strength_eq hcharge, Nat.zero_add]
    exact hturns

theorem fortify (h : u.Sound) : u.fortify.Sound where
  one_le_hp := one_le_clamp (by have := h.one_le_hp; omega)
  one_timer := h.one_timer
  spawnTimer_le := h.spawnTimer_le
  strength_eq := h.strength_eq
  strength_le := h.strength_le

/-- A unit that is hit and not killed has hit points left. -/
theorem damage (h : u.Sound) {amount : Int64} (hkill : (u.damage amount).1 ≠ .killed) :
    (u.damage amount).2.Sound := by
  unfold Fighter.damage at hkill ⊢
  split
  · exact h.congr rfl rfl rfl rfl
  next hd =>
    rw [if_neg hd] at hkill
    have hpos : ¬(clamp (u.hp.toInt - amount.toInt)).toInt ≤ 0 := fun hle ↦ hkill (if_pos hle)
    refine ⟨?_, h.one_timer, h.spawnTimer_le, h.strength_eq, h.strength_le⟩
    dsimp only
    omega

end Sound

end Fighter

/-! ## The board -/

variable {ρ : Type}

namespace Board

/-- All units are sound, and so will be those that are spawned. -/
structure Sound (b : Board ρ) : Prop where
  one_le_unitHp : 1 ≤ b.unitHp.toInt
  units : ∀ u ∈ b.units, u.Sound

theorem mem_units_of_setUnit {b : Board ρ} {v w : Fighter} (h : w ∈ (b.setUnit v).units) :
    w = v ∨ w ∈ b.units := by
  obtain ⟨x, hx, rfl⟩ := List.mem_map.1 h
  by_cases e : x.serial = v.serial
  · exact .inl (if_pos e)
  · rw [if_neg e]
    exact .inr hx

/-- Nobody with the number of a unit that has been taken away is left. -/
theorem mem_units_despawn_iff {b : Board ρ} {id : Serial} {w : Fighter} :
    w ∈ (b.despawn id).2.units ↔ w ∈ b.units ∧ w.serial ≠ id := by
  cases hid : b.unit? id with
  | none =>
    rw [despawn_of_none hid]
    exact ⟨fun hw ↦ ⟨hw, by simpa using List.find?_eq_none.1 hid w hw⟩, And.left⟩
  | some u =>
    rw [despawn_of_unit? hid]
    simp [List.mem_filter]

theorem unitHp_eq_of_rules_eq {b b' : Board ρ} (h : b'.rules = b.rules) :
    b'.unitHp = b.unitHp := congrArg (·.2.2) h

namespace Sound

variable {b : Board ρ}

theorem setUnit (h : b.Sound) {v : Fighter} (hv : v.Sound) : (b.setUnit v).Sound where
  one_le_unitHp := h.one_le_unitHp
  units w hw := by
    obtain rfl | hw := mem_units_of_setUnit hw
    · exact hv
    · exact h.units w hw

theorem withRng (h : b.Sound) (g : ρ) : { b with rng := g }.Sound := ⟨h.one_le_unitHp, h.units⟩

theorem withQueue (h : b.Sound) (q : TurnQueue Serial) : { b with queue := q }.Sound :=
  ⟨h.one_le_unitHp, h.units⟩

theorem unit? (h : b.Sound) {id : Serial} {u : Fighter} (hu : b.unit? id = some u) : u.Sound :=
  h.units u (mem_of_unit? hu)

/-- A unit can be changed if that leaves it sound. -/
theorem updateUnit (h : b.Sound) {id : Serial} {f : Fighter → Fighter}
    (hf : ∀ u, b.unit? id = some u → (f u).Sound) : (b.updateUnit id f).Sound := by
  unfold Board.updateUnit
  split
  · exact h
  next u hu => exact h.setUnit (hf u hu)

theorem add (h : b.Sound) {u : Fighter} (hu : u.Sound) : (b.add u).Sound where
  one_le_unitHp := h.one_le_unitHp
  units := List.forall_mem_append.2 ⟨h.units, List.forall_mem_singleton.2 hu⟩

theorem despawn (h : b.Sound) (id : Serial) : (b.despawn id).2.Sound where
  one_le_unitHp := unitHp_eq_of_rules_eq (b.rules_despawn id) ▸ h.one_le_unitHp
  units w hw := h.units w (mem_units_despawn_iff.1 hw).1

theorem addPlayer (h : b.Sound) (player : PlayerId) : (b.addPlayer player).Sound := by
  unfold Board.addPlayer
  split
  · exact h
  · exact ⟨h.one_le_unitHp, h.units⟩

theorem removeEliminated (h : b.Sound) : b.removeEliminated.2.Sound := ⟨h.one_le_unitHp, h.units⟩

theorem endTurn (h : b.Sound) : b.endTurn.Sound := h.withQueue _

/-- New units begin with their hit points and no timer running. -/
theorem spawn (h : b.Sound) (player : PlayerId) (l : Location) : (b.spawn player l).2.Sound := by
  obtain ⟨-, e⟩ | ⟨-, -, e⟩ | ⟨p, -, -, ⟨-, e⟩ | ⟨-, e⟩⟩ := b.spawn_cases player l
  · exact e ▸ h
  · exact e ▸ h
  · exact e ▸ h
  · rw [e]
    exact h.add (Fighter.sound_new h.one_le_unitHp)

/-- A unit that is struck is left with hit points, or it is not left at all. -/
theorem strike (h : b.Sound) {v : Fighter} (hv : v ∈ b.units) (amount : Int64) :
    (b.strike v amount).2.Sound := by
  have hserial : (v.damage amount).2.serial = v.serial :=
    congrArg Prod.fst (v.station_damage amount)
  have hunitHp := unitHp_eq_of_rules_eq (b.rules_strike v amount)
  unfold Board.strike at hunitHp ⊢
  dsimp only at hunitHp ⊢
  split
  next hkill =>
    rw [if_pos hkill] at hunitHp
    refine ⟨hunitHp ▸ h.one_le_unitHp, fun w hw ↦ ?_⟩
    obtain ⟨hw, hne⟩ := mem_units_despawn_iff.1 hw
    obtain rfl | hw := mem_units_of_setUnit hw
    · exact absurd rfl hne
    · exact h.units w hw
  next hkill => exact h.setUnit ((h.units v hv).damage hkill)

variable [WordSource ρ]

theorem spawnAdjacent (h : b.Sound) (player : PlayerId) (l : Location) :
    (b.spawnAdjacent player l).2.Sound := by
  obtain e | ⟨goal, g, -, -, e⟩ := b.spawnAdjacent_cases player l
  · exact e ▸ h
  · exact e ▸ (h.withRng g).spawn player goal

theorem spawnEach (h : b.Sound) (ps : List PlayerId) : (b.spawnEach ps).2.Sound :=
  spawnEach_keeps (fun _ g p l hb _ ↦ (hb.withRng g).spawn p l) h ps

theorem move (h : b.Sound) (id : Serial) : (b.move id).2.Sound := by
  obtain e | ⟨u, goal, g, hu, -, -, e⟩ := b.move_cases id
  · exact e ▸ h
  · rw [e]
    have hset := h.setUnit (v := { u with location := goal }) ((h.unit? hu).congr rfl rfl rfl rfl)
    exact ⟨hset.one_le_unitHp, hset.units⟩

theorem attack (h : b.Sound) (id : Serial) (amount : Int64) : (b.attack id amount).2.Sound := by
  obtain e | ⟨u, v, g, -, hv, -, -, e⟩ := b.attack_cases id amount
  · exact e ▸ h
  · exact e ▸ (h.withRng g).strike (mem_of_unit? hv) amount

theorem settle (h : b.Sound) (u : Fighter) (due : Due) : (b.settle u due).2.Sound := by
  have hs :
      (if due.spawn then b.spawnAdjacent u.owner u.location else (.ok none, b)).2.Sound := by
    split
    · exact h.spawnAdjacent u.owner u.location
    · exact h
  unfold Board.settle
  dsimp only
  split
  · exact hs
  · exact hs
  · exact hs.attack _ _

theorem beginTurn (h : b.Sound) : b.beginTurn.2.Sound := by
  unfold Board.beginTurn
  split
  · exact h
  next id q _ =>
    dsimp only
    split
    · exact h.withQueue q
    next u hu =>
      have hset := (h.withQueue q).setUnit (v := u.startTurn.2) (h.unit? hu).startTurn
      exact hset.settle _ _

end Sound

end Board

/-! ## Orders -/

theorem chargeTurns_le {v : Value} {n : Nat} (h : chargeTurns v = .ok n) : n ≤ maxTimer := by
  unfold chargeTurns at h
  split at h
  · split at h
    next hfits =>
      cases h
      exact hfits.2
    · cases h
  · cases h

/-- No charge is longer than a timer. -/
theorem Order.turns_le_of_ofCall {c : Command} {args : List Value} {turns : Nat}
    (h : Order.ofCall c args = .ok (.charge turns)) : turns ≤ maxTimer := by
  unfold Order.ofCall at h
  split at h
  next value =>
    cases hn : chargeTurns value with
    | error f => simp [hn, Except.map] at h
    | ok n =>
      rw [hn] at h
      cases n with
      | zero => cases h
      | succ n =>
        cases h
        exact chargeTurns_le hn
  all_goals cases h

namespace Scene

variable [WordSource ρ] {s : Scene ρ}

/-- A unit without a running timer can carry out any order that a call can give. -/
theorem sound_carryOut (h : s.board.Sound) {u : Fighter} (hu : s.board.unit? u.serial = some u)
    (hspawn : u.spawnTimer = 0) (hcharge : u.chargeTimer = 0) {o : Order}
    (ho : ∀ turns, o = .charge turns → turns ≤ maxTimer) : (s.carryOut u o).2.board.Sound := by
  have hself : ∀ f : Fighter → Fighter, (f u).Sound →
      (s.board.updateUnit u.serial f).Sound := fun f hf ↦ h.updateUnit fun v hv ↦ by
    rw [hu] at hv
    exact Option.some.inj hv ▸ hf
  have hsound := h.unit? hu
  cases o with
  | attack => exact h.attack _ _
  | charge turns => exact hself _ (hsound.beginCharge hspawn hcharge (ho turns rfl))
  | move =>
    have hm := h.move u.serial
    simp only [carryOut]
    split <;> simp_all [message]
  | spawn => exact hself _ (hsound.setSpawn hspawn hcharge)
  | wait => exact h
  | defend => exact hself _ (hsound.congr rfl rfl rfl rfl)
  | fortify => exact hself _ hsound.fortify

theorem sound_obey (h : s.board.Sound) (id : Serial) {o : Order}
    (ho : ∀ turns, o = .charge turns → turns ≤ maxTimer) : (s.obey id o).2.board.Sound := by
  obtain ⟨-, e⟩ | ⟨u, hu, hact, e⟩ := s.obey_cases id o
  · exact e ▸ h
  · rw [e]
    obtain rfl := Board.serial_of_unit? hu
    simp only [Fighter.canAct, Bool.and_eq_true, beq_iff_eq] at hact
    obtain ⟨⟨hspawn, hcharge⟩, -⟩ := hact
    let acted : Fighter := { u with acted := true }
    have hset : (s.board.setUnit acted).Sound :=
      h.setUnit ((h.unit? hu).congr rfl rfl rfl rfl)
    exact sound_carryOut (s := { s with board := s.board.setUnit acted }) hset
      (Board.unit?_setUnit_self (v := acted) hu) hspawn hcharge ho

/-- Whatever a script asks for leaves all units sound. -/
theorem sound_perform (h : s.board.Sound) (id : Serial) (c : Command) (args : List Value) :
    (s.perform id c args).2.board.Sound := by
  obtain ⟨-, e⟩ | ⟨o, -, ho, e⟩ := s.perform_cases id c args
  · rw [e]
    exact h
  · rw [e]
    exact sound_obey h id fun turns hcharge ↦ Order.turns_le_of_ofCall (hcharge ▸ ho)

end Scene

/-! ## Boards on which no unit is changed by hand -/

namespace Operation

/-- A unit is changed without regard to what it is doing. -/
def isByHand : Operation → Bool
  | change _ _ => true
  | _ => false

variable [WordSource ρ]

theorem sound_apply {s : Scene ρ} (h : s.board.Sound) {o : Operation} (ho : o.isByHand = false) :
    (o.apply s).board.Sound := by
  cases o with
  | addPlayer player => exact h.addPlayer player
  | spawn player l => exact h.spawn player l
  | spawnAdjacent player l => exact h.spawnAdjacent player l
  | spawnInitial => exact h.spawnEach _
  | despawn unit => exact h.despawn unit
  | move unit => exact h.move unit
  | attack attacker amount => exact h.attack attacker amount
  | beginTurn => exact h.beginTurn
  | endTurn => exact h.endTurn
  | removeEliminated => exact h.removeEliminated
  | perform unit command args => exact Scene.sound_perform h unit command args
  | change unit c => cases ho

end Operation

namespace Scene

variable [WordSource ρ]

/-- The scenes that any number of operations make of an empty board, none of which
changes a unit by hand.  Locations that are named need not be on the board. -/
inductive Untampered (torus : Torus) (unitLimit : Nat) (unitHp : Int64) : Scene ρ → Prop
  | empty (rng : ρ) (commentary : Commentary) :
    Untampered torus unitLimit unitHp ⟨.empty torus unitLimit unitHp rng, commentary⟩
  | step {s : Scene ρ} (h : Untampered torus unitLimit unitHp s) (o : Operation)
    (ho : o.isByHand = false) : Untampered torus unitLimit unitHp (o.apply s)

variable {torus : Torus} {unitLimit : Nat} {unitHp : Int64} {s : Scene ρ}

theorem Untampered.run (h : s.Untampered torus unitLimit unitHp) {os : List Operation}
    (hos : ∀ o ∈ os, o.isByHand = false) :
    (os.foldl Operation.apply s).Untampered torus unitLimit unitHp := by
  induction os generalizing s with
  | nil => exact h
  | cons o os ih =>
    obtain ⟨ho, hos⟩ := List.forall_mem_cons.1 hos
    exact ih (h.step o ho) hos

theorem Untampered.sound (h : s.Untampered torus unitLimit unitHp) (hhp : 1 ≤ unitHp.toInt) :
    s.board.Sound := by
  induction h with
  | empty rng commentary => exact ⟨hhp, nofun⟩
  | step _ o ho ih => exact Operation.sound_apply ih ho

/-- If units have hit points to begin with and none is changed by hand, every unit
that is left has hit points, is busy with at most one thing, spawns within three
turns, has strength only while it charges, and never as much as would not fit a
timer; so it can start its turn without a number leaving its range. -/
theorem units_sound (h : s.Untampered torus unitLimit unitHp) (hhp : 1 ≤ unitHp.toInt)
    {u : Fighter} (hu : u ∈ s.board.units) :
    1 ≤ u.hp.toInt ∧ (u.spawnTimer = 0 ∨ u.chargeTimer = 0) ∧ u.spawnTimer ≤ 3 ∧
      (u.chargeTimer = 0 → u.chargeStrength = 0) ∧
      u.chargeStrength + u.chargeTimer ≤ UInt32.size - 1 ∧
      u.startTurn? = some u.startTurn := by
  have hsound := (h.sound hhp).units u hu
  exact ⟨hsound.one_le_hp, hsound.one_timer, hsound.spawnTimer_le, hsound.strength_eq,
    hsound.strength_le, Fighter.startTurn?_eq hsound.strength_le⟩

/-- Two units, of which the one charges for as long as it can and is in its second turn,
and the other is spawning. -/
def preparations : Scene Xoshiro :=
  [.addPlayer (.ofIndex 0), .addPlayer (.ofIndex 1), .spawn (.ofIndex 0) ⟨0, 0⟩,
    .spawn (.ofIndex 1) ⟨0, 1⟩, .beginTurn, .perform 1 .chargeAttack [.int 4294967295], .endTurn,
    .beginTurn, .perform 2 .spawn [], .endTurn, .beginTurn].foldl Operation.apply
      ⟨.empty ⟨4, 4, by decide, by decide⟩ 3 1 (.ofSeed 0), .new false false false⟩

theorem untampered_preparations :
    preparations.Untampered ⟨4, 4, by decide, by decide⟩ 3 1 :=
  (Untampered.empty _ _).run (by decide)

/-- In the second turn of its charge a unit has gained as much as the charge has
become shorter. -/
theorem units_sound_preparations :
    preparations.board.units.map (fun u ↦ (u.spawnTimer, u.chargeTimer, u.chargeStrength)) =
        [(0, 4294967294, 1), (3, 0, 0)] ∧
      ∀ u ∈ preparations.board.units, u.startTurn? = some u.startTurn := by
  refine ⟨by decide +kernel, fun u hu ↦ ?_⟩
  obtain ⟨-, -, -, -, -, hstart⟩ := units_sound untampered_preparations (by decide) hu
  exact hstart

end Scene

end Skirmish.Arena
