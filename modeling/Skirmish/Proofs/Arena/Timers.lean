import Skirmish.Proofs.Arena.Readiness

/-!
# Timers

A unit that has been told to spawn, to charge, or both, is busy until both timers have
run down.  They run down in its own turns only, one step in each, and nothing that
happens between the turns has a say in it.  So the timers and the strength of the unit
are known from the number of its turns alone: `Fighter.Scheduled` says what they are,
each change keeps to that (`Scheduled.apply`), and so does any history of them
(`Scheduled.after`).  To ask whether a unit can act changes nothing, so a history leaves
that out.

Main statement: in any history in which no timer is set again, each timer fires once, in
the turn for which it was set, and the unit cannot act before both have
(`timers_fire_once`).
-/

namespace Skirmish.Arena

/-! ## Histories of a unit -/

namespace Change

/-- A turn of the unit begins. -/
def isTurn : Change → Bool
  | startTurn => true
  | _ => false

/-- A timer is set. -/
def setsTimer : Change → Bool
  | setSpawn _ | beginCharge _ => true
  | _ => false

/-- What falls due by a change, if it begins a turn. -/
def due? (u : Fighter) : Change → Option Due
  | startTurn => some u.startTurn.1
  | _ => none

end Change

/-- How many turns begin. -/
def turnCount (cs : List Change) : Nat := cs.countP (·.isTurn)

@[simp] theorem turnCount_nil : turnCount [] = 0 := rfl

@[simp] theorem turnCount_cons (c : Change) (cs : List Change) :
    turnCount (c :: cs) = turnCount cs + if c.isTurn then 1 else 0 :=
  List.countP_cons ..

/-- What falls due in a turn, when turns are counted from 1, a spawning was ordered for
one of them and a charge until one of them.  There is no turn 0. -/
def Due.scheduled (spawn charge turn : Nat) : Due where
  spawn := turn == spawn
  charge := if turn = charge then some (chargeDamage charge) else none

namespace Fighter

/-- The unit after some changes, one after the other. -/
def after (u : Fighter) (cs : List Change) : Fighter := cs.foldl (fun u c ↦ c.apply u) u

/-- What falls due in the turns that begin, in their order. -/
def dues : Fighter → List Change → List Due
  | _, [] => []
  | u, c :: cs => (c.due? u).toList ++ dues (c.apply u) cs

@[simp] theorem after_nil (u : Fighter) : u.after [] = u := rfl

@[simp] theorem after_cons (u : Fighter) (c : Change) (cs : List Change) :
    u.after (c :: cs) = (c.apply u).after cs := rfl

/-- The unit has been told to spawn, to charge, or both, with nothing in between. -/
inductive Busied (u : Fighter) : (spawn charge : Nat) → Fighter → Prop
  | spawn (k : Nat) : Busied u k 0 (u.setSpawn k)
  | charge (n : Nat) : Busied u 0 n (u.beginCharge n)
  | spawnCharge (k n : Nat) : Busied u k n ((u.setSpawn k).beginCharge n)
  | chargeSpawn (k n : Nat) : Busied u k n ((u.beginCharge n).setSpawn k)

/-! ## The schedule -/

/-- The spawn timer runs out in the turn for which the spawning was ordered. -/
theorem tickSpawn_eq {u : Fighter} {k t : Nat} (h : u.spawnTimer = k - t) :
    u.tickSpawn = (t + 1 == k, { u with spawnTimer := k - (t + 1) }) := by
  have hlast : (u.spawnTimer == 1) = (t + 1 == k) := by
    rw [Bool.eq_iff_iff, beq_iff_eq, beq_iff_eq]
    omega
  have hnext : u.spawnTimer - 1 = k - (t + 1) := by omega
  rw [tickSpawn, hlast, hnext]

/-- The charge hits in the turn until which it was ordered, with the strength of all turns
up to this one. -/
theorem tickCharge_eq {u : Fighter} {n t : Nat} (htimer : u.chargeTimer = n - t)
    (hstrength : u.chargeStrength = if t < n then t else 0) :
    u.tickCharge = (if t + 1 = n then some (chargeDamage n) else none,
      { u with
        chargeTimer := n - (t + 1)
        chargeStrength := if t + 1 < n then t + 1 else 0 }) := by
  rcases Nat.lt_trichotomy (t + 1) n with hlt | rfl | hgt
  · rw [if_pos (by omega)] at hstrength
    have hzero : ¬ u.chargeTimer = 0 := by omega
    have hone : ¬ u.chargeTimer = 1 := by omega
    have hnext : u.chargeTimer - 1 = n - (t + 1) := by omega
    simp only [tickCharge, if_neg hzero, if_neg hone, hnext, hstrength, if_pos hlt,
      if_neg (Nat.ne_of_lt hlt)]
  · rw [if_pos (Nat.lt_succ_self t)] at hstrength
    have hone : u.chargeTimer = 1 := by omega
    simp [tickCharge, hone, hstrength]
  · rw [if_neg (by omega)] at hstrength
    have hzero : u.chargeTimer = 0 := by omega
    have hnext : n - (t + 1) = u.chargeTimer := by omega
    rw [tickCharge, if_pos hzero, if_neg (Nat.ne_of_gt hgt), if_neg (Nat.lt_asymm hgt), hnext,
      ← hstrength]

/-- The timers of a unit that is to spawn in one of its turns and to charge until one of
them, when so many have begun. -/
structure Scheduled (spawn charge turns : Nat) (u : Fighter) : Prop where
  spawnTimer : u.spawnTimer = spawn - turns
  chargeTimer : u.chargeTimer = charge - turns
  /-- It gains strength in each turn, and none is left when the charge has hit. -/
  chargeStrength : u.chargeStrength = if turns < charge then turns else 0

theorem Busied.scheduled {u v : Fighter} {k n : Nat} (h : u.Busied k n v)
    (hspawn : u.spawnTimer = 0) (hcharge : u.chargeTimer = 0) (hstrength : u.chargeStrength = 0)
    (hk : k ≤ maxTimer) : v.Scheduled k n 0 := by
  have hset : min (u.spawnTimer + k) maxTimer = k := by omega
  cases h with
  | spawn => exact ⟨hset, hcharge, hstrength.trans (ite_self 0).symm⟩
  | charge => exact ⟨hspawn, rfl, hstrength.trans (ite_self 0).symm⟩
  | spawnCharge => exact ⟨hset, rfl, hstrength.trans (ite_self 0).symm⟩
  | chargeSpawn => exact ⟨hset, rfl, hstrength.trans (ite_self 0).symm⟩

namespace Scheduled

variable {k n t : Nat} {u : Fighter}

/-- The schedule is about timers and strength only. -/
theorem congr {v : Fighter} (h : u.Scheduled k n t) (hspawn : v.spawnTimer = u.spawnTimer)
    (hcharge : v.chargeTimer = u.chargeTimer) (hstrength : v.chargeStrength = u.chargeStrength) :
    v.Scheduled k n t :=
  ⟨hspawn.trans h.spawnTimer, hcharge.trans h.chargeTimer, hstrength.trans h.chargeStrength⟩

/-- When a turn begins, there falls due what the schedule has for it. -/
theorem startTurn (h : u.Scheduled k n t) :
    u.startTurn.1 = .scheduled k n (t + 1) ∧ u.startTurn.2.Scheduled k n (t + 1) := by
  let begun : Fighter := { u with turn := u.turn + 1, defending := false, acted := false }
  have hspawn := tickSpawn_eq (u := begun) h.spawnTimer
  have hcharge := tickCharge_eq (u := { begun with spawnTimer := k - (t + 1) }) h.chargeTimer
    h.chargeStrength
  simp only [Fighter.startTurn, begun] at hspawn hcharge ⊢
  rw [hspawn]
  dsimp only
  rw [hcharge]
  exact ⟨rfl, rfl, rfl, rfl⟩

theorem tryAct (h : u.Scheduled k n t) : u.tryAct.2.Scheduled k n t := by
  unfold Fighter.tryAct
  split
  · exact h.congr rfl rfl rfl
  · exact h

theorem damage (h : u.Scheduled k n t) (amount : Int64) : (u.damage amount).2.Scheduled k n t := by
  unfold Fighter.damage
  split <;> exact h.congr rfl rfl rfl

/-- Nothing but a turn that begins moves the schedule on. -/
theorem apply (h : u.Scheduled k n t) {c : Change} (hc : c.setsTimer = false) :
    c.due? u = (if c.isTurn then some (.scheduled k n (t + 1)) else none) ∧
      (c.apply u).Scheduled k n (t + if c.isTurn then 1 else 0) := by
  cases c with
  | startTurn => exact ⟨congrArg some h.startTurn.1, h.startTurn.2⟩
  | tryAct => exact ⟨rfl, h.tryAct⟩
  | setSpawn turns => cases hc
  | beginCharge turns => cases hc
  | defend => exact ⟨rfl, h.congr rfl rfl rfl⟩
  | fortify => exact ⟨rfl, h.congr rfl rfl rfl⟩
  | damage amount => exact ⟨rfl, h.damage amount⟩

/-- In a history in which no timer is set, what falls due in each turn is what the
schedule has for it. -/
theorem after (h : u.Scheduled k n t) {cs : List Change} (hcs : ∀ c ∈ cs, c.setsTimer = false) :
    u.dues cs = (List.range' (t + 1) (turnCount cs)).map (.scheduled k n) ∧
      (u.after cs).Scheduled k n (t + turnCount cs) := by
  induction cs generalizing u t with
  | nil => exact ⟨rfl, h⟩
  | cons c cs ih =>
    obtain ⟨hc, hcs⟩ := List.forall_mem_cons.1 hcs
    obtain ⟨hdue, hnext⟩ := h.apply hc
    obtain ⟨hdues, hafter⟩ := ih hnext hcs
    rw [dues, hdue, hdues, turnCount_cons, after_cons]
    cases hturn : c.isTurn with
    | false =>
      rw [hturn] at hafter
      exact ⟨rfl, hafter⟩
    | true =>
      simp only [hturn, if_true] at hafter ⊢
      refine ⟨rfl, ?_⟩
      rwa [Nat.add_right_comm] at hafter

/-! ## Acting -/

/-- As long as a timer runs the unit cannot act. -/
theorem canAct_of_lt (h : u.Scheduled k n t) (ht : t < max k n) : u.canAct = false := by
  have hspawn := h.spawnTimer
  have hcharge := h.chargeTimer
  rw [Fighter.canAct, Bool.and_eq_false_iff, Bool.and_eq_false_iff]
  refine .inl ?_
  simp only [beq_eq_false_iff_ne]
  omega

/-- When both timers have run down, nothing is left of them. -/
theorem idle_of_le (h : u.Scheduled k n t) (ht : max k n ≤ t) :
    u.spawnTimer = 0 ∧ u.chargeTimer = 0 ∧ u.chargeStrength = 0 := by
  have hspawn := h.spawnTimer
  have hcharge := h.chargeTimer
  have hstrength := h.chargeStrength
  rw [if_neg (by omega)] at hstrength
  exact ⟨by omega, by omega, hstrength⟩

theorem strength_le (h : u.Scheduled k n t) : u.chargeStrength + u.chargeTimer ≤ n := by
  have hcharge := h.chargeTimer
  have hstrength := h.chargeStrength
  split at hstrength <;> omega

end Scheduled

/-- A unit that is not busy is told to spawn, to charge, or both, for times that a timer
can be set to.  In any history from then on in which no timer is set again, however turns,
attacks on the unit and what it does itself follow on each other:

* what falls due in the turns is a new unit in the turn for which it was ordered, the
  charge in the turn until which it was ordered, and nothing else; if a time is 0, it
  never comes;
* before both timers have run down, the unit cannot act, and trying to act does nothing;
* from then on both timers and the strength are 0, and whether the unit can act is only a
  matter of whether it has acted;
* when the next turn begins, no number leaves its range. -/
theorem timers_fire_once {u v : Fighter} {k n : Nat} (hspawn : u.spawnTimer = 0)
    (hcharge : u.chargeTimer = 0) (hstrength : u.chargeStrength = 0) (hk : k ≤ maxTimer)
    (hn : n ≤ maxTimer) (hv : u.Busied k n v) {cs : List Change}
    (hcs : ∀ c ∈ cs, c.setsTimer = false) :
    v.dues cs = (List.range' 1 (turnCount cs)).map (.scheduled k n) ∧
    (turnCount cs < max k n →
      (v.after cs).canAct = false ∧ (v.after cs).tryAct = (false, v.after cs)) ∧
    (max k n ≤ turnCount cs →
      (v.after cs).spawnTimer = 0 ∧ (v.after cs).chargeTimer = 0 ∧
        (v.after cs).chargeStrength = 0 ∧ (v.after cs).canAct = !(v.after cs).acted) ∧
    (v.after cs).startTurn? = some (v.after cs).startTurn := by
  obtain ⟨hdues, hafter⟩ := (hv.scheduled hspawn hcharge hstrength hk).after hcs
  rw [Nat.zero_add] at hdues hafter
  refine ⟨hdues, fun hlt ↦ ?_, fun hle ↦ ?_, startTurn?_eq (Nat.le_trans hafter.strength_le hn)⟩
  · have hbusy := hafter.canAct_of_lt hlt
    exact ⟨hbusy, by simp [tryAct, hbusy]⟩
  · obtain ⟨hs, hc, hstrength⟩ := hafter.idle_of_le hle
    exact ⟨hs, hc, hstrength, by simp [canAct, hs, hc]⟩

/-- A unit spawns and charges at once, defends, is hit and tries to act meanwhile: the new
unit is due in its second turn and the charge in the third. -/
theorem timers_fire_once_interrupted :
    let v := ((Fighter.new 1 (.ofIndex 0) ⟨0, 0⟩ 2).setSpawn 2).beginCharge 3
    v.dues [.defend, .startTurn, .tryAct, .startTurn, .damage 1, .fortify, .startTurn] =
        [⟨false, none⟩, ⟨true, none⟩, ⟨false, some 10⟩] ∧
      (v.after [.defend, .startTurn, .tryAct]).canAct = false := by
  have hbusied := Busied.spawnCharge (u := .new 1 (.ofIndex 0) ⟨0, 0⟩ 2) 2 3
  have hall : ∀ c ∈ [Change.defend, .startTurn, .tryAct, .startTurn, .damage 1, .fortify,
      .startTurn], c.setsTimer = false := by decide
  have hfirst : ∀ c ∈ [Change.defend, .startTurn, .tryAct], c.setsTimer = false := by decide
  obtain ⟨hdues, -⟩ := timers_fire_once rfl rfl rfl (by decide) (by decide) hbusied hall
  obtain ⟨-, hbusy, -⟩ := timers_fire_once rfl rfl rfl (by decide) (by decide) hbusied hfirst
  exact ⟨hdues, (hbusy (by decide)).1⟩

end Fighter

end Skirmish.Arena
