import Mathlib.Tactic.Ring
import Skirmish.Proofs.Arena.Timers

/-!
# How hard a charge hits

A charge of `n` turns is meant to deal the triangular number `(n + 1)(n + 2) / 2`, as far as
64 bits go: this is `triangularDamage`.  What it deals differs from that in two ways.

* `chargeDamage` limits the product to 64 bits and then halves it, so it stops at half of
  the greatest number, while the triangular number itself would fit for charges a good deal
  longer.  The products are too great from 3037000499 turns on
  (`product_le_maxValue_iff`).
* What counts is the strength, which goes up by one in each turn and back to 0 only when a
  charge hits.  A charge that is broken off leaves its strength to the next one.

`Fighter.Charging` is what is known of a unit that charges; a turn either brings the charge
closer (`Charging.startTurn`) or is the last one (`Charging.startTurn_last`), and what falls
due in all of its turns follows (`Charging.dues`).

Main statement: what a charge deals, when this is the triangular number, and when no number
leaves its range (`charge_triangular_iff`).
-/

namespace Skirmish.Arena

/-- The damage that is meant for a charge of so many turns: the triangular number, or the
greatest number of 64 bits if there is no room for it. -/
def triangularDamage (turns : Nat) : Int64 :=
  let damage : Int := ((turns + 1) * (turns + 2) / 2 : Nat)
  if damage ≤ Int64.maxValue.toInt then Int64.ofInt damage else Int64.maxValue

/-- The longest charge whose product fits in 64 bits. -/
def longestExact : Nat := 3037000498

/-- A number of 64 bits, if it is one. -/
def int64? (n : Nat) : Option Int64 :=
  if n ≤ Int64.maxValue.toNatClampNeg then some (Int64.ofNat n) else none

/-- The damage of a charge, computed in numbers of 64 bits: the two factors have to fit, and
the product is limited. -/
def chargeDamage? (strength : Nat) : Option Int64 := do
  let a ← int64? (strength + 1)
  let b ← int64? (strength + 2)
  return clamp (a.toInt * b.toInt) / 2

/-! ## The damage as a number -/

theorem toNatClampNeg_maxValue : Int64.maxValue.toNatClampNeg = 9223372036854775807 := rfl

theorem toInt_chargeDamage (n : Nat) :
    (chargeDamage n).toInt =
      (min ((n + 1) * (n + 2)) Int64.maxValue.toNatClampNeg / 2 : Nat) := by
  have hmax := toNatClampNeg_maxValue
  rw [chargeDamage, Int64.toInt_ofNat_of_lt]
  omega

theorem toInt_triangularDamage (n : Nat) :
    (triangularDamage n).toInt =
      (min ((n + 1) * (n + 2) / 2) Int64.maxValue.toNatClampNeg : Nat) := by
  have hmax := toNatClampNeg_maxValue
  have hmaxInt : Int64.maxValue.toInt = 9223372036854775807 := rfl
  unfold triangularDamage
  dsimp only
  split
  next h =>
    rw [Int64.toInt_ofInt_of_le (by omega) (by omega)]
    omega
  next h => omega

theorem product_le_maxValue_iff {n : Nat} :
    (n + 1) * (n + 2) ≤ Int64.maxValue.toNatClampNeg ↔ n ≤ longestExact := by
  rw [toNatClampNeg_maxValue, longestExact]
  constructor
  · intro h
    by_contra hn
    have hfirst : 3037000500 ≤ n + 1 := by omega
    have hsecond : 3037000501 ≤ n + 2 := by omega
    have hproduct := Nat.mul_le_mul hfirst hsecond
    omega
  · intro hn
    have hfirst : n + 1 ≤ 3037000499 := by omega
    have hsecond : n + 2 ≤ 3037000500 := by omega
    have hproduct := Nat.mul_le_mul hfirst hsecond
    omega

theorem product_le_product {m n : Nat} (h : m ≤ n) :
    (m + 1) * (m + 2) ≤ (n + 1) * (n + 2) :=
  Nat.mul_le_mul (Nat.add_le_add_right h 1) (Nat.add_le_add_right h 2)

theorem product_succ (n : Nat) :
    (n + 1 + 1) * (n + 1 + 2) = (n + 1) * (n + 2) + 2 * (n + 2) := by
  ring

theorem chargeDamage_le_chargeDamage {m n : Nat} (h : m ≤ n) : chargeDamage m ≤ chargeDamage n := by
  have hproduct := product_le_product h
  rw [Int64.le_iff_toInt_le, toInt_chargeDamage, toInt_chargeDamage]
  omega

/-- Even a charge of one turn deals three. -/
theorem three_le_chargeDamage {n : Nat} (h : 1 ≤ n) : 3 ≤ chargeDamage n := by
  have hone : chargeDamage 1 = 3 := by decide
  exact hone ▸ chargeDamage_le_chargeDamage h

/-- What is dealt in the end is the triangular number of the charge if and only if all of the
strength has been gained in this charge, and the product fits. -/
theorem chargeDamage_eq_triangularDamage_iff (strength turns : Nat) :
    chargeDamage (strength + turns) = triangularDamage turns ↔
      strength = 0 ∧ turns ≤ longestExact := by
  have hmax := toNatClampNeg_maxValue
  have hle := product_le_product (Nat.le_add_left turns strength)
  rw [← Int64.toInt_inj, toInt_chargeDamage, toInt_triangularDamage, Int.natCast_inj]
  by_cases hfits : strength + turns ≤ longestExact
  · -- Nothing is limited, and triangular numbers tell their charges apart.
    have hproduct := product_le_maxValue_iff.2 hfits
    rw [Nat.min_eq_left hproduct, Nat.min_eq_left (by omega)]
    constructor
    · intro h
      refine ⟨?_, by omega⟩
      by_contra hstrength
      have hnext : turns + 1 ≤ strength + turns := by omega
      have hgrows := product_le_product hnext
      rw [product_succ] at hgrows
      omega
    · rintro ⟨rfl, -⟩
      rw [Nat.zero_add]
  · -- Half of the greatest number lies between two triangular numbers.
    have hproduct := mt product_le_maxValue_iff.1 hfits
    refine iff_of_false ?_ (by omega)
    rw [Nat.min_eq_right (by omega)]
    by_cases hturns : turns ≤ longestExact
    · have hbelow := product_le_product hturns
      have hlast : (longestExact + 1) * (longestExact + 2) = 9223372033963249500 := rfl
      omega
    · have habove := product_le_product (Nat.lt_of_not_le hturns)
      have hnext : (longestExact.succ + 1) * (longestExact.succ + 2) = 9223372040037250500 := rfl
      omega

theorem toInt_clamp_ofNat (n : Nat) :
    (clamp n).toInt = (min n Int64.maxValue.toNatClampNeg : Nat) := by
  have hmin : Int64.minValue.toInt ≤ 0 := by decide
  have hmax : Int64.maxValue.toInt = (Int64.maxValue.toNatClampNeg : Int) := rfl
  rw [toInt_clamp]
  omega

theorem int64?_eq {n : Nat} (h : n ≤ maxTimer + 2) :
    ∃ m : Int64, int64? n = some m ∧ m.toInt = n := by
  have hmax := toNatClampNeg_maxValue
  have htimer : maxTimer = 4294967295 := rfl
  exact ⟨_, if_pos (by omega), Int64.toInt_ofNat_of_lt (by omega)⟩

/-- For any strength that timers allow, the damage is computed within 64 bits. -/
theorem chargeDamage?_eq {n : Nat} (h : n ≤ maxTimer) :
    chargeDamage? n = some (chargeDamage n) := by
  obtain ⟨a, ha, hfirst⟩ := int64?_eq (n := n + 1) (by omega)
  obtain ⟨b, hb, hsecond⟩ := int64?_eq (n := n + 2) (by omega)
  simp only [chargeDamage?, ha, hb, Option.bind_eq_bind, Option.bind_some, Option.pure_def,
    hfirst, hsecond]
  rw [Option.some_inj, ← Int64.toInt_inj, Int64.toInt_div_of_ne_right _ _ (by decide),
    ← Int.natCast_mul, toInt_clamp_ofNat, toInt_chargeDamage]
  rfl

/-! ## Turns of a unit that charges -/

namespace Fighter

/-- The unit has nothing to do but to charge, for so many turns more, and has gathered some
strength. -/
structure Charging (u : Fighter) (strength turns : Nat) : Prop where
  spawnTimer : u.spawnTimer = 0
  chargeTimer : u.chargeTimer = turns
  chargeStrength : u.chargeStrength = strength

namespace Charging

variable {u : Fighter} {s n : Nat}

/-- Before the last turn there falls nothing due, and the unit gains strength. -/
theorem startTurn (h : u.Charging s (n + 2)) :
    u.startTurn.1 = ⟨false, none⟩ ∧ u.startTurn.2.Charging (s + 1) (n + 1) := by
  obtain ⟨hspawn, hcharge, rfl⟩ := h
  have hturn : u.startTurn = (⟨false, none⟩, { u with
      turn := u.turn + 1
      defending := false
      acted := false
      chargeTimer := n + 1
      chargeStrength := u.chargeStrength + 1 }) := by
    simp [Fighter.startTurn, tickSpawn, tickCharge, hspawn, hcharge]
  rw [hturn]
  exact ⟨rfl, hspawn, rfl, rfl⟩

/-- In the last turn the charge hits with the strength of this turn and all before. -/
theorem startTurn_last (h : u.Charging s 1) :
    u.startTurn.1 = ⟨false, some (chargeDamage (s + 1))⟩ := by
  obtain ⟨hspawn, hcharge, rfl⟩ := h
  simp [Fighter.startTurn, tickSpawn, tickCharge, hspawn, hcharge]

/-- So many turns into a charge, with at least one to come. -/
theorem after {turns : Nat} (h : u.Charging s (turns + (n + 1))) :
    (u.after (List.replicate turns .startTurn)).Charging (s + turns) (n + 1) := by
  induction turns generalizing u s with
  | zero =>
    rw [Nat.zero_add] at h
    exact h
  | succ turns ih =>
    rw [Nat.add_right_comm] at h
    rw [List.replicate_succ, after_cons, Nat.add_comm turns 1, ← Nat.add_assoc]
    exact ih h.startTurn.2

/-- What falls due in the turns of a charge, from the first to the last. -/
theorem dues (h : u.Charging s (n + 1)) :
    u.dues (List.replicate (n + 1) .startTurn) =
      List.replicate n ⟨false, none⟩ ++ [⟨false, some (chargeDamage (s + (n + 1)))⟩] := by
  induction n generalizing u s with
  | zero =>
    rw [List.replicate_one, Fighter.dues, Fighter.dues, Change.due?, h.startTurn_last]
    rfl
  | succ n ih =>
    obtain ⟨hnothing, hnext⟩ := h.startTurn
    rw [List.replicate_succ, Fighter.dues, Change.due?, hnothing, Change.apply, ih hnext,
      Nat.add_right_comm, Nat.add_assoc s (n + 1) 1]
    rfl

/-- There is no strength beyond the greatest number that timers have. -/
theorem startTurn?_eq_none (h : u.Charging s (n + 1)) (hs : maxTimer ≤ s) :
    u.startTurn? = none := by
  obtain ⟨-, hcharge, rfl⟩ := h
  simp [startTurn?, tickSpawn?_eq, tickSpawn, tickCharge?, raise?, hcharge, Nat.not_lt.2 hs]

/-- In all turns of a charge the numbers stay in their range if and only if there is room for
the strength in the end. -/
theorem startTurn?_eq_iff (h : u.Charging s (n + 1)) :
    (∀ turns ≤ n, (u.after (List.replicate turns .startTurn)).startTurn? =
      some (u.after (List.replicate turns .startTurn)).startTurn) ↔ s + (n + 1) ≤ maxTimer := by
  constructor
  · intro hall
    by_contra hroom
    have hlast : (u.after (List.replicate n .startTurn)).Charging (s + n) (0 + 1) := after h
    have hnone := hlast.startTurn?_eq_none (by omega)
    rw [hall n (Nat.le_refl n)] at hnone
    cases hnone
  · intro hroom turns hturns
    obtain ⟨more, rfl⟩ := Nat.exists_eq_add_of_le hturns
    have hthen : (u.after (List.replicate turns .startTurn)).Charging (s + turns) (more + 1) :=
      after h
    refine startTurn?_eq ?_
    rw [hthen.chargeStrength, hthen.chargeTimer]
    omega

end Charging

theorem charging_beginCharge {u : Fighter} (h : u.spawnTimer = 0) (turns : Nat) :
    (u.beginCharge turns).Charging u.chargeStrength turns :=
  ⟨h, rfl, rfl⟩

theorem turn_startTurn (u : Fighter) : u.startTurn.2.turn = u.turn + 1 := by
  unfold startTurn tickSpawn tickCharge
  dsimp only
  split
  · rfl
  · split <;> rfl

theorem turn_after_replicate (u : Fighter) (turns : Nat) :
    (u.after (List.replicate turns .startTurn)).turn = u.turn + turns := by
  induction turns generalizing u with
  | zero => rfl
  | succ turns ih =>
    rw [List.replicate_succ, after_cons, ih, Change.apply, turn_startTurn]
    omega

/-- A unit that is not spawning is told to charge for at least one turn, and then begins as
many turns:

* in the last of them the charge hits, with the strength that the unit had before and one
  more for each turn, and in the others there falls nothing due;
* this is the triangular number of the charge, or the greatest number of 64 bits if there
  is no room for it, if and only if the unit had no strength before, and the charge is not
  too long for its product to fit;
* in any case it is at least three, and a longer charge does not deal less;
* the timer and the strength stay in 32 bits, and what is computed from them in 64, if and
  only if timers have room for the strength in the end; the count of turns goes up by one
  in each. -/
theorem charge_triangular_iff {u : Fighter} (hspawn : u.spawnTimer = 0) {n : Nat} (hn : 1 ≤ n) :
    let strength := u.chargeStrength
    let v := u.beginCharge n
    v.dues (List.replicate n .startTurn) =
      List.replicate (n - 1) ⟨false, none⟩ ++ [⟨false, some (chargeDamage (strength + n))⟩] ∧
    (chargeDamage (strength + n) = triangularDamage n ↔ strength = 0 ∧ n ≤ longestExact) ∧
    3 ≤ chargeDamage (strength + n) ∧
    (∀ m, n ≤ m → chargeDamage (strength + n) ≤ chargeDamage (strength + m)) ∧
    ((∀ turns < n, (v.after (List.replicate turns .startTurn)).startTurn? =
        some (v.after (List.replicate turns .startTurn)).startTurn) ∧
      chargeDamage? (strength + n) = some (chargeDamage (strength + n)) ↔
        strength + n ≤ maxTimer) ∧
    ∀ turns, (v.after (List.replicate turns .startTurn)).turn = u.turn + turns := by
  intro strength v
  obtain ⟨k, rfl⟩ := Nat.exists_eq_add_of_le' hn
  have hcharging : v.Charging strength (k + 1) := charging_beginCharge hspawn (k + 1)
  refine ⟨hcharging.dues, chargeDamage_eq_triangularDamage_iff strength (k + 1),
    three_le_chargeDamage (by omega),
    fun m hm ↦ chargeDamage_le_chargeDamage (Nat.add_le_add_left hm strength), ?_,
    v.turn_after_replicate⟩
  simp only [Nat.lt_succ_iff, hcharging.startTurn?_eq_iff]
  exact and_iff_left_of_imp chargeDamage?_eq

/-- A unit that has just been spawned charges for three turns. -/
theorem charge_triangular_iff_three :
    let u := new 1 (.ofIndex 0) ⟨0, 0⟩ 3
    (u.beginCharge 3).dues [.startTurn, .startTurn, .startTurn] =
        [⟨false, none⟩, ⟨false, none⟩, ⟨false, some 10⟩] ∧
      chargeDamage 3 = triangularDamage 3 := by
  intro u
  obtain ⟨hdues, htriangular, -⟩ := charge_triangular_iff (u := u) (n := 3) rfl (by decide)
  have hten : chargeDamage (u.chargeStrength + 3) = 10 := by decide
  rw [hten] at hdues
  exact ⟨hdues, htriangular.2 ⟨rfl, by decide⟩⟩

/-- A charge of a unit that has just been spawned deals half of the greatest number of 64 bits
where the triangular number is greater and would fit.  And where two turns have been
ordered, the second one is called off and one turn is ordered instead, the charge deals six
instead of three: no timer was running, but the strength of the first turn was left. -/
theorem charge_misses_triangular :
    let fresh := new 1 (.ofIndex 0) ⟨0, 0⟩ 3
    let brokenOff := fresh.after [.beginCharge 2, .startTurn, .beginCharge 0]
    ((fresh.beginCharge 3037000499).dues (List.replicate 3037000499 .startTurn) =
        List.replicate 3037000498 ⟨false, none⟩ ++ [⟨false, some 4611686018427387903⟩] ∧
      triangularDamage 3037000499 = 4611686020018625250) ∧
    brokenOff.spawnTimer = 0 ∧ brokenOff.chargeTimer = 0 ∧
      (brokenOff.beginCharge 1).dues [.startTurn] = [⟨false, some 6⟩] ∧
      triangularDamage 1 = 3 := by
  intro fresh brokenOff
  have hlong : (fresh.beginCharge 3037000499).Charging 0 (3037000498 + 1) :=
    charging_beginCharge rfl 3037000499
  have hhalf : chargeDamage (0 + (3037000498 + 1)) = 4611686018427387903 := by decide
  have hshort : (brokenOff.beginCharge 1).Charging 1 (0 + 1) := charging_beginCharge rfl 1
  have hsix : chargeDamage (1 + (0 + 1)) = 6 := by decide
  refine ⟨⟨?_, by decide⟩, rfl, rfl, ?_, by decide⟩
  · rw [← hhalf]
    exact hlong.dues
  · rw [← hsix]
    exact hshort.dues

end Fighter

end Skirmish.Arena
