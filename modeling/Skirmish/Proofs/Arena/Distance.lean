import Skirmish.Arena.Torus

/-!
# Distances on the torus

A step along an axis leads to the next number or, at the edge, to the other end
of the axis, and never further than that.

Main statement: where both sides are at least three tiles long, the eight tiles
around a location are those at distance one from it, no two of them are the same, and
it is one of the tiles around each of them (`neighbours_exact`).  On shorter sides a
step can lead back to where it came from.
-/

namespace Skirmish.Arena.Torus

theorem before_zero {side : Nat} (h : 0 < side) : before side 0 = side - 1 := by
  rw [before, Nat.zero_add]
  exact Nat.mod_eq_of_lt (Nat.sub_lt h Nat.one_pos)

theorem before_succ {side i : Nat} (h : i + 1 < side) : before side (i + 1) = i := by
  have : i + 1 + side - 1 = i + side := by omega
  rw [before, this, Nat.add_mod_right, Nat.mod_eq_of_lt (Nat.lt_of_succ_lt h)]

theorem after_of_lt {side i : Nat} (h : i + 1 < side) : after side i = i + 1 := Nat.mod_eq_of_lt h

theorem after_last {side i : Nat} (h : i + 1 = side) : after side i = 0 := by
  rw [after, h, Nat.mod_self]

theorem before_eq_ite {side i : Nat} (hi : i < side) :
    before side i = if i = 0 then side - 1 else i - 1 := by
  cases i with
  | zero => rw [before_zero hi, if_pos rfl]
  | succ i => rw [before_succ hi, if_neg i.succ_ne_zero, Nat.add_sub_cancel]

theorem after_eq_ite {side i : Nat} (hi : i < side) :
    after side i = if i + 1 = side then 0 else i + 1 := by
  split
  next heq => exact after_last heq
  next hne => exact after_of_lt (Nat.lt_of_le_of_ne hi hne)

@[simp] theorem axisDistance_self (side i : Nat) : axisDistance side i i = 0 := by
  simp [axisDistance]

theorem axisDistance_before {side i : Nat} (hs : 3 ≤ side) (hi : i < side) :
    axisDistance side i (before side i) = 1 := by
  cases i with
  | zero =>
    rw [before_zero hi, axisDistance]
    omega
  | succ i =>
    rw [before_succ hi, axisDistance]
    omega

theorem axisDistance_after {side i : Nat} (hs : 3 ≤ side) (hi : i < side) :
    axisDistance side i (after side i) = 1 := by
  rcases Nat.lt_or_eq_of_le (Nat.succ_le_of_lt hi) with hlt | heq
  · rw [after_of_lt hlt, axisDistance]
    omega
  · rw [after_last heq, axisDistance]
    omega

/-- A king reaches the tiles around a location in one move. -/
theorem distance_of_mem_neighbours {t : Torus} {l m : Location} (hrows : 3 ≤ t.rows)
    (hcols : 3 ≤ t.cols) (hl : t.Contains l) (hm : m ∈ t.neighbours l) : t.distance l m = 1 := by
  have hup := axisDistance_before hrows hl.1
  have hdown := axisDistance_after hrows hl.1
  have hleft := axisDistance_before hcols hl.2
  have hright := axisDistance_after hcols hl.2
  simp only [neighbours, List.mem_cons, List.not_mem_nil, or_false] at hm
  rcases hm with rfl | rfl | rfl | rfl | rfl | rfl | rfl | rfl <;>
    simp only [distance, hup, hdown, hleft, hright, axisDistance_self] <;> rfl

/-! ## Tiles and their distances -/

theorem axisDistance_eq_zero_iff {side i j : Nat} (hi : i < side) (hj : j < side) :
    axisDistance side i j = 0 ↔ i = j := by
  dsimp only [axisDistance]
  omega

theorem axisDistance_comm (side i j : Nat) : axisDistance side i j = axisDistance side j i := by
  simp only [axisDistance, Nat.add_comm]

/-- Half the way round is the furthest. -/
theorem axisDistance_le_half (side i j : Nat) : axisDistance side i j ≤ side / 2 := by
  dsimp only [axisDistance]
  omega

/-- One step leads to what is no further than that. -/
theorem axisDistance_le_one_iff {side i j : Nat} (hs : 3 ≤ side) (hi : i < side) (hj : j < side) :
    axisDistance side i j ≤ 1 ↔ j = before side i ∨ j = i ∨ j = after side i := by
  constructor
  · intro h
    rw [before_eq_ite hi, after_eq_ite hi]
    dsimp only [axisDistance] at h
    split <;> split <;> omega
  · rintro (rfl | rfl | rfl)
    · exact Nat.le_of_eq (axisDistance_before hs hi)
    · rw [axisDistance_self]
      exact Nat.zero_le 1
    · exact Nat.le_of_eq (axisDistance_after hs hi)

theorem before_ne {side i : Nat} (hs : 3 ≤ side) (hi : i < side) : before side i ≠ i := by
  intro e
  have h := axisDistance_before hs hi
  rw [e, axisDistance_self] at h
  cases h

theorem after_ne {side i : Nat} (hs : 3 ≤ side) (hi : i < side) : after side i ≠ i := by
  intro e
  have h := axisDistance_after hs hi
  rw [e, axisDistance_self] at h
  cases h

theorem before_ne_after {side i : Nat} (hs : 3 ≤ side) (hi : i < side) :
    before side i ≠ after side i := by
  rw [before_eq_ite hi, after_eq_ite hi]
  split <;> split <;> omega

variable {t : Torus} {l m : Location}

theorem distance_eq_zero_iff (hl : t.Contains l) (hm : t.Contains m) :
    t.distance l m = 0 ↔ l = m := by
  have hrow := axisDistance_eq_zero_iff hl.1 hm.1
  have hcol := axisDistance_eq_zero_iff hl.2 hm.2
  obtain ⟨row, col⟩ := l
  obtain ⟨row', col'⟩ := m
  rw [Location.mk.injEq, ← hrow, ← hcol, distance]
  omega

theorem distance_comm (t : Torus) (l m : Location) : t.distance l m = t.distance m l := by
  rw [distance, distance, axisDistance_comm, axisDistance_comm t.cols]

theorem distance_le_half (t : Torus) (l m : Location) :
    t.distance l m ≤ max t.rows t.cols / 2 := by
  have hrow := axisDistance_le_half t.rows l.row m.row
  have hcol := axisDistance_le_half t.cols l.col m.col
  unfold distance
  omega

/-- The tiles around a location are those that a king reaches in one move. -/
theorem mem_neighbours_iff (hrows : 3 ≤ t.rows) (hcols : 3 ≤ t.cols) (hl : t.Contains l)
    (hm : t.Contains m) : m ∈ t.neighbours l ↔ t.distance l m = 1 := by
  refine ⟨distance_of_mem_neighbours hrows hcols hl, fun h ↦ ?_⟩
  have hrow := (axisDistance_le_one_iff hrows hl.1 hm.1).1 (by unfold distance at h; omega)
  have hcol := (axisDistance_le_one_iff hcols hl.2 hm.2).1 (by unfold distance at h; omega)
  obtain ⟨row, col⟩ := m
  rcases hrow with rfl | rfl | rfl <;> rcases hcol with rfl | rfl | rfl
  case inr.inl.inr.inl =>
    rw [distance, axisDistance_self, axisDistance_self] at h
    cases h
  all_goals simp [neighbours]

/-- The eight tiles around a location are different ones. -/
theorem nodup_neighbours (hrows : 3 ≤ t.rows) (hcols : 3 ≤ t.cols) (hl : t.Contains l) :
    (t.neighbours l).Nodup := by
  have hup := before_ne hrows hl.1
  have hdown := after_ne hrows hl.1
  have hvertical := before_ne_after hrows hl.1
  have hleft := before_ne hcols hl.2
  have hright := after_ne hcols hl.2
  have hhorizontal := before_ne_after hcols hl.2
  simp [neighbours, hup, hdown.symm, hvertical, hleft, hleft.symm, hright, hright.symm, hhorizontal]

/-- Where both sides are at least three tiles long, the neighbours of a location are
eight different locations on the board, exactly those at distance one from it, and
neighbours are neighbours of each other. -/
theorem neighbours_exact (hrows : 3 ≤ t.rows) (hcols : 3 ≤ t.cols) (hl : t.Contains l) :
    (t.neighbours l).length = 8 ∧ (t.neighbours l).Nodup ∧
    (∀ m, m ∈ t.neighbours l ↔ t.Contains m ∧ t.distance l m = 1) ∧
    l ∉ t.neighbours l ∧
    ∀ m, t.Contains m → (m ∈ t.neighbours l ↔ l ∈ t.neighbours m) := by
  have hmem : ∀ m, m ∈ t.neighbours l ↔ t.Contains m ∧ t.distance l m = 1 := by
    intro m
    constructor
    · intro hm
      have hm' := contains_of_mem_neighbours hl hm
      exact ⟨hm', (mem_neighbours_iff hrows hcols hl hm').1 hm⟩
    · rintro ⟨hm', hd⟩
      exact (mem_neighbours_iff hrows hcols hl hm').2 hd
  refine ⟨length_neighbours t l, nodup_neighbours hrows hcols hl, hmem, ?_, ?_⟩
  · intro hself
    have hone := ((hmem l).1 hself).2
    rw [(distance_eq_zero_iff hl hl).2 rfl] at hone
    cases hone
  · intro m hm
    rw [mem_neighbours_iff hrows hcols hl hm, mem_neighbours_iff hrows hcols hm hl, distance_comm]

/-- The corner of a small board and the corner opposite to it. -/
theorem neighbours_exact_corner :
    let t : Torus := ⟨3, 4, by decide, by decide⟩
    t.Contains ⟨0, 0⟩ ∧ (t.neighbours ⟨0, 0⟩).Nodup ∧ ⟨2, 3⟩ ∈ t.neighbours ⟨0, 0⟩ ∧
      ⟨0, 0⟩ ∈ t.neighbours ⟨2, 3⟩ ∧ ⟨0, 2⟩ ∉ t.neighbours ⟨0, 0⟩ := by
  intro t
  have hcorner : t.Contains ⟨0, 0⟩ := by decide
  obtain ⟨-, hnodup, hmem, -, hsymm⟩ := neighbours_exact (t := t) (by decide) (by decide) hcorner
  have hopposite : ⟨2, 3⟩ ∈ t.neighbours ⟨0, 0⟩ := (hmem _).2 (by decide)
  refine ⟨hcorner, hnodup, hopposite, (hsymm _ (by decide)).1 hopposite, fun hfar ↦ ?_⟩
  have htwo : t.distance ⟨0, 0⟩ ⟨0, 2⟩ = 2 := by decide
  rw [((hmem _).1 hfar).2] at htwo
  cases htwo

end Skirmish.Arena.Torus
