import Mathlib.Data.List.Induction
import Skirmish.Proofs.Arena.Timers

/-!
# Defence

A unit that defends blocks the next attack, unless its own turn comes first.  Nothing
but the unit's order to defend, an attack and the beginning of a turn has a say in
whether it is defending, and each of these settles it, whatever has been before.  So
the last one of them in a history of the unit tells whether an attack will be blocked
(`defending_after_iff`), however much else has happened since.

Main statement: which attacks are blocked, and what becomes of the hit points
(`defence_blocks_one_attack`).
-/

namespace Skirmish.Arena

/-- Whether a change settles if the unit is defending. -/
def Change.settlesDefence : Change → Bool
  | startTurn | defend | damage _ => true
  | _ => false

/-- The last change in a history that settles if the unit is defending. -/
def lastSettling? (cs : List Change) : Option Change := (cs.filter (·.settlesDefence)).getLast?

theorem lastSettling?_concat (cs : List Change) (c : Change) :
    lastSettling? (cs ++ [c]) = if c.settlesDefence then some c else lastSettling? cs := by
  unfold lastSettling?
  rw [List.filter_append]
  cases h : c.settlesDefence with
  | true => rw [List.filter_cons_of_pos h, List.filter_nil, List.getLast?_concat, if_pos rfl]
  | false =>
    rw [List.filter_cons_of_neg (by simp [h]), List.filter_nil, List.append_nil,
      if_neg Bool.false_ne_true]

namespace Fighter

theorem after_concat (u : Fighter) (cs : List Change) (c : Change) :
    u.after (cs ++ [c]) = c.apply (u.after cs) :=
  List.foldl_concat ..

/-- The beginning of a turn ends the defence, allows the unit to act, and has a say in the
timers, but in nothing else. -/
theorem exists_startTurn_eq (u : Fighter) : ∃ spawnTimer chargeTimer chargeStrength : Nat,
    u.startTurn.2 = { u with
      spawnTimer, chargeTimer, chargeStrength
      turn := u.turn + 1
      defending := false
      acted := false } := by
  unfold startTurn tickSpawn tickCharge
  dsimp only
  split
  · exact ⟨_, _, _, rfl⟩
  · split <;> exact ⟨_, _, _, rfl⟩

/-- To try to act is of no consequence but for whether the unit has acted. -/
theorem exists_tryAct_eq (u : Fighter) : ∃ acted : Bool, u.tryAct.2 = { u with acted } := by
  unfold tryAct
  split
  · exact ⟨_, rfl⟩
  · exact ⟨u.acted, rfl⟩

/-! ## Whether the unit defends -/

/-- An attack that is blocked ends the defence, and any other finds none. -/
theorem defending_damage (u : Fighter) (amount : Int64) :
    (u.damage amount).2.defending = false := by
  unfold damage
  split
  · rfl
  next h => exact Bool.eq_false_iff.2 h

/-- A change that does not settle it leaves the defence as it is. -/
theorem defending_apply (u : Fighter) {c : Change} (hc : c.settlesDefence = false) :
    (c.apply u).defending = u.defending := by
  cases c with
  | startTurn => cases hc
  | tryAct =>
    obtain ⟨acted, h⟩ := u.exists_tryAct_eq
    rw [Change.apply, h]
  | setSpawn turns => rfl
  | beginCharge turns => rfl
  | defend => cases hc
  | fortify => rfl
  | damage amount => cases hc

/-- After a change that settles it, a unit defends if it was told to. -/
theorem defending_apply_iff (u : Fighter) {c : Change} (hc : c.settlesDefence = true) :
    (c.apply u).defending = true ↔ c = .defend := by
  cases c with
  | startTurn =>
    obtain ⟨spawn, charge, strength, h⟩ := u.exists_startTurn_eq
    rw [Change.apply, h]
    refine iff_of_false Bool.false_ne_true ?_
    rintro ⟨⟩
  | tryAct => cases hc
  | setSpawn turns => cases hc
  | beginCharge turns => cases hc
  | defend => exact iff_of_true rfl rfl
  | fortify => cases hc
  | damage amount =>
    rw [Change.apply, defending_damage]
    refine iff_of_false Bool.false_ne_true ?_
    rintro ⟨⟩

/-- A unit that did not defend at first does so after a history if it was the order to
defend that settled it last. -/
theorem defending_after_iff {u : Fighter} (hu : u.defending = false) (cs : List Change) :
    (u.after cs).defending = true ↔ lastSettling? cs = some .defend := by
  induction cs using List.reverseRecOn with
  | nil => exact iff_of_false (by simp [hu]) nofun
  | append_singleton cs c ih =>
    rw [after_concat, lastSettling?_concat]
    cases hc : c.settlesDefence with
    | true => rw [defending_apply_iff _ hc, if_pos rfl, Option.some_inj]
    | false => rw [defending_apply _ hc, ih, if_neg Bool.false_ne_true]

/-! ## Attacks and hit points -/

theorem damage_of_defending {u : Fighter} (h : u.defending = true) (amount : Int64) :
    u.damage amount = (.blocked, { u with defending := false }) := if_pos h

theorem damage_of_not_defending {u : Fighter} (h : u.defending = false) (amount : Int64) :
    let hp := clamp (u.hp.toInt - amount.toInt)
    u.damage amount = (if hp.toInt ≤ 0 then .killed else .wounded hp, { u with hp }) := by
  simp [damage, h]

/-- An attack is blocked by a unit that is defending, and by no other. -/
theorem damage_fst_eq_blocked_iff (u : Fighter) (amount : Int64) :
    (u.damage amount).1 = .blocked ↔ u.defending = true := by
  cases h : u.defending with
  | true => exact iff_of_true (by rw [damage_of_defending h]) rfl
  | false =>
    refine iff_of_false ?_ Bool.false_ne_true
    rw [damage_of_not_defending h]
    dsimp only
    split <;> exact nofun

/-- An attack that takes hit points takes no more than there are numbers for. -/
theorem toInt_clamp_sub (hp : Int64) {amount : Int64} (h : 0 ≤ amount.toInt) :
    (clamp (hp.toInt - amount.toInt)).toInt =
      max Int64.minValue.toInt (hp.toInt - amount.toInt) := by
  have hmax := hp.toInt_le
  rw [toInt_clamp]
  omega

theorem toInt_clamp_succ (hp : Int64) :
    (clamp (hp.toInt + 1)).toInt = min (hp.toInt + 1) Int64.maxValue.toInt := by
  have hmin := hp.minValue_le_toInt
  have hle : Int64.minValue.toInt ≤ Int64.maxValue.toInt := by decide
  rw [toInt_clamp]
  omega

/-- Hit points are a matter of fortifying and attacks. -/
theorem hp_apply (u : Fighter) {c : Change} (hfortify : c ≠ .fortify)
    (hdamage : ∀ amount, c ≠ .damage amount) : (c.apply u).hp = u.hp := by
  cases c with
  | startTurn =>
    obtain ⟨spawn, charge, strength, h⟩ := u.exists_startTurn_eq
    rw [Change.apply, h]
  | tryAct =>
    obtain ⟨acted, h⟩ := u.exists_tryAct_eq
    rw [Change.apply, h]
  | setSpawn turns => rfl
  | beginCharge turns => rfl
  | defend => rfl
  | fortify => exact absurd rfl hfortify
  | damage amount => exact absurd rfl (hdamage amount)

/-- Whatever has happened to a unit since it was spawned:

* an attack is blocked if and only if, of all orders to defend, attacks and beginnings of
  turns so far, the last one was an order to defend;
* an attack that is blocked leaves the hit points as they are;
* any other attack takes as many hit points as it has, down to the least number of 64
  bits, and kills the unit if and only if no hit points are left; otherwise the unit is
  reported to be wounded and left with what it has now;
* fortifying adds a hit point, up to the greatest number of 64 bits;
* nothing else changes the hit points. -/
theorem defence_blocks_one_attack (serial : Serial) (owner : PlayerId) (location : Location)
    (hp : Int64) (cs : List Change) :
    let u := (new serial owner location hp).after cs
    (∀ amount : Int64,
      ((u.damage amount).1 = .blocked ↔ lastSettling? cs = some .defend) ∧
      ((u.damage amount).1 = .blocked → (u.damage amount).2.hp = u.hp) ∧
      ((u.damage amount).1 ≠ .blocked → 0 ≤ amount.toInt →
        (u.damage amount).2.hp.toInt = max Int64.minValue.toInt (u.hp.toInt - amount.toInt) ∧
        (u.damage amount).1 = if (u.damage amount).2.hp.toInt ≤ 0 then .killed
          else .wounded (u.damage amount).2.hp)) ∧
    u.fortify.hp.toInt = min (u.hp.toInt + 1) Int64.maxValue.toInt ∧
    ∀ c : Change, c ≠ .fortify → (∀ amount, c ≠ .damage amount) → (c.apply u).hp = u.hp := by
  intro u
  have hdefending : u.defending = true ↔ lastSettling? cs = some .defend :=
    defending_after_iff rfl cs
  refine ⟨fun amount ↦ ⟨?_, fun hblocked ↦ ?_, fun hblocked hamount ↦ ?_⟩, ?_, fun c hf hd ↦ ?_⟩
  · rw [damage_fst_eq_blocked_iff, hdefending]
  · rw [damage_of_defending ((damage_fst_eq_blocked_iff u amount).1 hblocked)]
  · have hopen : u.defending = false :=
      Bool.eq_false_iff.2 fun h ↦ hblocked ((damage_fst_eq_blocked_iff u amount).2 h)
    rw [damage_of_not_defending hopen]
    exact ⟨toInt_clamp_sub u.hp hamount, rfl⟩
  · exact toInt_clamp_succ u.hp
  · exact hp_apply u hf hd

/-- A unit defends, begins to charge, and is attacked twice: the second attack kills it. -/
theorem defence_blocks_one_attack_twice :
    let u := new 1 (.ofIndex 0) ⟨0, 0⟩ 2
    ((u.after [.defend, .tryAct, .beginCharge 3, .fortify]).damage 5).1 = .blocked ∧
      ((u.after [.defend, .tryAct, .beginCharge 3, .fortify, .damage 5]).damage 5).1 = .killed := by
  intro u
  obtain ⟨hfirst, -, -⟩ := defence_blocks_one_attack 1 (.ofIndex 0) ⟨0, 0⟩ 2
    [.defend, .tryAct, .beginCharge 3, .fortify]
  obtain ⟨hsecond, -, -⟩ := defence_blocks_one_attack 1 (.ofIndex 0) ⟨0, 0⟩ 2
    [.defend, .tryAct, .beginCharge 3, .fortify, .damage 5]
  refine ⟨(hfirst 5).1.2 rfl, ?_⟩
  obtain ⟨hblocked, -, hhit⟩ := hsecond 5
  obtain ⟨-, hanswer⟩ := hhit (fun h ↦ by cases hblocked.1 h) (by decide)
  rw [hanswer, if_pos (by decide)]

end Fighter

end Skirmish.Arena
