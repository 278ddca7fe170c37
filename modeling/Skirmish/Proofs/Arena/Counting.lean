import Mathlib.Data.List.Sort
import Skirmish.Proofs.Arena.Operations

/-!
# Counting units

Units are counted in the list of units: those of a player (`countOf`), and those
on a side of a unit, the unit itself left out (`others`).  The lists of the
players give the same numbers.

Main statement: the units of a side counted by players are those counted one by
one (`Coherent.countTotal_eq`).
-/

namespace Skirmish.Arena

/-- Members of one of two kinds are counted kind by kind, unless one is of both. -/
theorem countP_eq_add {α : Type} {p q r : α → Bool} {xs : List α}
    (hor : ∀ x ∈ xs, p x = (q x || r x)) (hand : ∀ x ∈ xs, (q x && r x) = false) :
    xs.countP p = xs.countP q + xs.countP r := by
  rw [List.countP_eq_countP_filter_add xs p q, List.countP_filter, List.countP_filter]
  congr 1 <;> refine List.countP_congr fun x hx ↦ ?_
  · rw [hor x hx]
    cases q x <;> simp
  · have := hand x hx
    rw [hor x hx]
    cases hq : q x <;> simp_all

namespace Board

variable {ρ : Type} {b : Board ρ}

/-- How many units of a player are on the board. -/
def countOf (b : Board ρ) (player : PlayerId) : Nat := (b.units.filter (·.owner == player)).length

/-- A player lists the player's units in the order in which they came. -/
theorem Coherent.units_eq (h : b.Coherent) {p : Player} (hp : p ∈ b.players) :
    p.units = (b.units.filter (·.owner == p.id)).map (·.serial) := by
  refine List.Pairwise.eq_of_mem_iff (r := (· < ·)) (h.units_sorted p hp)
    (List.pairwise_map.2 (h.serials.sublist List.filter_sublist)) fun id ↦ ?_
  rw [h.mem_units p hp id]
  simp only [List.mem_map, List.mem_filter, beq_iff_eq]
  constructor
  · rintro ⟨u, hu, hs, ho⟩
    exact ⟨u, ⟨hu, ho⟩, hs⟩
  · rintro ⟨u, ⟨hu, ho⟩, hs⟩
    exact ⟨u, hu, hs, ho⟩

theorem Coherent.length_units (h : b.Coherent) {p : Player} (hp : p ∈ b.players) :
    p.units.length = b.countOf p.id := by
  rw [h.units_eq hp, List.length_map, countOf]

/-- Whoever has units on the board is among the players. -/
theorem Coherent.exists_player (h : b.Coherent) {id : PlayerId} (hid : 1 ≤ b.countOf id) :
    ∃ p ∈ b.players, p.id = id := by
  obtain ⟨u, hu⟩ := List.exists_mem_of_length_pos hid
  obtain ⟨hu, ho⟩ := List.mem_filter.1 hu
  obtain ⟨p, hp, hpo⟩ := List.mem_map.1 (h.owner_mem u hu)
  exact ⟨p, hp, hpo.trans (by simpa using ho)⟩

/-- The units of some players, counted player by player and counted one by one. -/
theorem Coherent.unitCount_filter (h : b.Coherent) (q : PlayerId → Bool) :
    unitCount (b.players.filter (q ·.id)) = b.units.countP (q ·.owner) := by
  -- Players are different, so nobody's units are counted twice.
  have hcount : ∀ ps : List Player, (∀ p ∈ ps, p ∈ b.players) → (ps.map (·.id)).Nodup →
      unitCount ps = b.units.countP fun u ↦ decide (u.owner ∈ ps.map (·.id)) := by
    intro ps hps hn
    induction ps with
    | nil => simp [unitCount]
    | cons p ps ih =>
      rw [List.map_cons, List.nodup_cons] at hn
      have hp := h.length_units (hps p List.mem_cons_self)
      rw [countOf, ← List.countP_eq_length_filter] at hp
      rw [unitCount, hp, ih (fun p hp ↦ hps p (List.mem_cons_of_mem _ hp)) hn.2]
      refine (countP_eq_add (fun u _ ↦ ?_) fun u _ ↦ ?_).symm
      · simp [beq_eq_decide]
      · by_cases e : u.owner = p.id
        · simpa [e] using hn.1
        · simp [e]
  rw [hcount _ (fun p hp ↦ (List.mem_filter.1 hp).1)
    (h.players_nodup.sublist (List.filter_sublist.map _))]
  refine List.countP_congr fun u hu ↦ ?_
  obtain ⟨p, hp, hpo⟩ := List.mem_map.1 (h.owner_mem u hu)
  simp only [decide_eq_true_eq, List.mem_map, List.mem_filter]
  constructor
  · rintro ⟨r, ⟨-, hr⟩, e⟩
    exact e ▸ hr
  · intro hq
    exact ⟨p, ⟨hp, hpo ▸ hq⟩, hpo⟩

/-! ## The units on a side of a unit -/

/-- The units on a side of a unit, in the order in which they came, the unit itself
left out. -/
def others (b : Board ρ) (u : Fighter) (side : Side) : List Fighter :=
  b.units.filter fun v ↦ v.serial != u.serial && side.includes u.owner v.owner

theorem mem_others {u v : Fighter} {side : Side} :
    v ∈ b.others u side ↔
      v ∈ b.units ∧ v.serial ≠ u.serial ∧ side.includes u.owner v.owner = true := by
  simp [others]

/-- A unit is counted once, whatever is counted. -/
theorem Coherent.countP_eq (h : b.Coherent) {u : Fighter} (hu : u ∈ b.units)
    (q : Fighter → Bool) :
    b.units.countP q =
      (b.units.filter fun v ↦ v.serial != u.serial && q v).length + if q u then 1 else 0 := by
  have hself : b.units.filter (·.serial == u.serial) = [u] := by
    refine List.perm_singleton.1 ((List.perm_ext_iff_of_nodup ?_ (List.nodup_singleton u)).2 ?_)
    · exact (List.Nodup.of_map _ h.serials_nodup).filter _
    · intro v
      simp only [List.mem_filter, beq_iff_eq, List.mem_singleton]
      constructor
      · rintro ⟨hv, e⟩
        exact h.eq_of_serial_eq hv hu e
      · rintro rfl
        exact ⟨hu, rfl⟩
  rw [List.countP_eq_countP_filter_add _ q (·.serial == u.serial), hself, List.countP_singleton,
    Nat.add_comm, List.countP_filter, List.countP_eq_length_filter]
  congr 3
  funext v
  rw [Bool.and_comm, bne]

/-- Allies and enemies are all the units, but for the unit itself. -/
theorem Coherent.length_others (h : b.Coherent) {u : Fighter} (hu : u ∈ b.units) :
    (b.others u .ally).length + (b.others u .enemy).length + 1 = b.units.length := by
  have hall := h.countP_eq hu fun _ ↦ true
  rw [List.countP_true, if_pos rfl] at hall
  rw [hall, others, others, ← List.countP_eq_length_filter, ← List.countP_eq_length_filter,
    ← List.countP_eq_length_filter]
  refine congrArg (· + 1) (countP_eq_add (fun v _ ↦ ?_) fun v _ ↦ ?_).symm
  all_goals
    cases v.serial != u.serial <;> cases hv : v.owner == u.owner <;> simp [Side.includes, hv]

/-- The units of a side counted by players are those counted one by one. -/
theorem Coherent.countTotal_eq (h : b.Coherent) {id : Serial} {u : Fighter}
    (hu : b.unit? id = some u) (side : Side) :
    b.countTotal id side = (b.others u side).length := by
  have hown : side.includes u.owner u.owner = (side == .ally) := by simp [Side.includes]
  have hcount := h.countP_eq (mem_of_unit? hu) fun v ↦ side.includes u.owner v.owner
  rw [hown] at hcount
  simp only [countTotal, hu]
  rw [h.unitCount_filter, hcount, others]
  cases side <;> simp

end Board

end Skirmish.Arena
