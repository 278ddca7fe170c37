import Mathlib.Order.Bounds.Defs
import Skirmish.Proofs.Arena.Distance

/-!
# The distance counts king moves

`Moves n` is a way of `n` moves from one location to another, each to one of the
`neighbours`, not necessarily the shortest.  It is looked at one axis at a time:

* a step along an axis brings nothing closer by more than one
  (`axisDistance_le_of_isStep`), so no way is shorter than the distance;
* wherever something is not reached yet there is a step that brings it closer by one
  (`exists_isMove_closer`), the shorter way round, and steps along both axes make one
  move (`mem_neighbours_iff_isMove`), so there is a way as short as the distance.

Nothing of this needs long sides.  On a side of two tiles both ways round are the
same step, and on a side of one tile every step leads back.

Neither the neighbours nor the distance of locations on the board are computed with a
difference below zero (`neighbours?_eq`, `distance?_eq`).

Main statement: `distance_fewest_moves`.
-/

namespace Skirmish.Arena.Torus

/-! ## Differences -/

/-- A difference, if it is not below zero. -/
def minus? (n m : Nat) : Option Nat := if m ≤ n then some (n - m) else none

/-- One step up or to the left, if no difference falls below zero. -/
def before? (side i : Nat) : Option Nat := (minus? (i + side) 1).map (· % side)

/-- The tiles around a location, if no difference falls below zero. -/
def neighbours? (t : Torus) (l : Location) : Option (List Location) := do
  let up ← before? t.rows l.row
  let left ← before? t.cols l.col
  let down := after t.rows l.row
  let right := after t.cols l.col
  return [⟨up, left⟩, ⟨up, l.col⟩, ⟨up, right⟩,
    ⟨l.row, left⟩, ⟨l.row, right⟩,
    ⟨down, left⟩, ⟨down, l.col⟩, ⟨down, right⟩]

/-- How far two numbers are apart, the smaller one taken from the greater. -/
def gap? (i j : Nat) : Option Nat := if i < j then minus? j i else minus? i j

/-- The distance along one axis, if no difference falls below zero. -/
def axisDistance? (side i j : Nat) : Option Nat := do
  let d ← gap? i j
  let round ← minus? side d
  return min d round

/-- The least number of king moves, if no difference falls below zero. -/
def distance? (t : Torus) (a b : Location) : Option Nat := do
  let rows ← axisDistance? t.rows a.row b.row
  let cols ← axisDistance? t.cols a.col b.col
  return max rows cols

theorem minus?_of_le {n m : Nat} (h : m ≤ n) : minus? n m = some (n - m) := if_pos h

theorem before?_eq {side : Nat} (h : 0 < side) (i : Nat) : before? side i = some (before side i) := by
  rw [before?, minus?_of_le (Nat.le_trans h (Nat.le_add_left side i)), Option.map_some, before]

theorem neighbours?_eq (t : Torus) (l : Location) : t.neighbours? l = some (t.neighbours l) := by
  simp only [neighbours?, before?_eq t.rows_pos, before?_eq t.cols_pos, Option.bind_eq_bind,
    Option.bind_some]
  rfl

theorem gap?_eq (i j : Nat) : gap? i j = some ((i - j) + (j - i)) := by
  unfold gap?
  split
  next h => rw [minus?_of_le (Nat.le_of_lt h), Nat.sub_eq_zero_of_le (Nat.le_of_lt h), Nat.zero_add]
  next h =>
    have hle : j ≤ i := Nat.le_of_not_lt h
    rw [minus?_of_le hle, Nat.sub_eq_zero_of_le hle, Nat.add_zero]

theorem axisDistance?_eq {side i j : Nat} (hi : i < side) (hj : j < side) :
    axisDistance? side i j = some (axisDistance side i j) := by
  have hround : (i - j) + (j - i) ≤ side := by omega
  simp only [axisDistance?, gap?_eq, minus?_of_le hround, Option.bind_eq_bind, Option.bind_some]
  rfl

theorem distance?_eq {t : Torus} {a b : Location} (ha : t.Contains a) (hb : t.Contains b) :
    t.distance? a b = some (t.distance a b) := by
  simp only [distance?, axisDistance?_eq ha.1 hb.1, axisDistance?_eq ha.2 hb.2,
    Option.bind_eq_bind, Option.bind_some]
  rfl

/-! ## Along one axis -/

/-- One step along an axis, either way. -/
def IsMove (side i j : Nat) : Prop := j = before side i ∨ j = after side i

/-- One step along an axis, or none. -/
def IsStep (side i j : Nat) : Prop := j = i ∨ IsMove side i j

section Axis

variable {side i j k : Nat}

/-- No step brings anything closer by more than one. -/
theorem axisDistance_le_of_isStep (hi : i < side) (hk : k < side) (h : IsStep side i j) :
    axisDistance side i k ≤ axisDistance side j k + 1 := by
  rcases h with rfl | rfl | rfl
  · exact Nat.le_succ _
  · rw [before_eq_ite hi]
    dsimp only [axisDistance]
    split <;> omega
  · rw [after_eq_ite hi]
    dsimp only [axisDistance]
    split <;> omega

/-- Something that is not reached yet is brought closer by one, going the shorter way
round. -/
theorem exists_isMove_closer (hi : i < side) (hk : k < side) (h : 0 < axisDistance side i k) :
    ∃ j, IsMove side i j ∧ axisDistance side j k + 1 = axisDistance side i k := by
  by_cases hon : i < k ∧ 2 * k ≤ side + 2 * i ∨ k < i ∧ side + 2 * k ≤ 2 * i
  · refine ⟨after side i, .inr rfl, ?_⟩
    rw [after_eq_ite hi]
    dsimp only [axisDistance] at h ⊢
    split <;> omega
  · refine ⟨before side i, .inl rfl, ?_⟩
    rw [before_eq_ite hi]
    dsimp only [axisDistance] at h ⊢
    split <;> omega

/-- The same with no step at all where nothing is left to be reached. -/
theorem exists_isStep_closer (hi : i < side) (hk : k < side) :
    ∃ j, IsStep side i j ∧ (0 < axisDistance side i k → IsMove side i j) ∧
      axisDistance side j k = axisDistance side i k - 1 := by
  rcases Nat.eq_zero_or_pos (axisDistance side i k) with hzero | hpos
  · exact ⟨i, .inl rfl, fun h ↦ absurd hzero (Nat.ne_of_gt h), by rw [hzero]⟩
  · obtain ⟨j, hj, hcloser⟩ := exists_isMove_closer hi hk hpos
    exact ⟨j, .inr hj, fun _ ↦ hj, by rw [← hcloser, Nat.add_sub_cancel]⟩

end Axis

/-! ## Moves -/

variable {t : Torus} {a b c l m : Location}

/-- A king moves along one of the axes at least, and along both if it likes. -/
theorem mem_neighbours_iff_isMove :
    m ∈ t.neighbours l ↔ IsStep t.rows l.row m.row ∧ IsStep t.cols l.col m.col ∧
      (IsMove t.rows l.row m.row ∨ IsMove t.cols l.col m.col) := by
  obtain ⟨row, col⟩ := m
  simp only [neighbours, List.mem_cons, List.not_mem_nil, or_false, Location.mk.injEq, IsStep,
    IsMove]
  grind

/-- A move brings nothing closer by more than one. -/
theorem distance_le_of_mem_neighbours (hl : t.Contains l) (hb : t.Contains b)
    (hm : m ∈ t.neighbours l) : t.distance l b ≤ t.distance m b + 1 := by
  obtain ⟨hrow, hcol, -⟩ := mem_neighbours_iff_isMove.1 hm
  have hrows := axisDistance_le_of_isStep hl.1 hb.1 hrow
  have hcols := axisDistance_le_of_isStep hl.2 hb.2 hcol
  unfold distance
  omega

/-- Whatever is not reached yet is brought closer by one move. -/
theorem exists_mem_neighbours_closer (hl : t.Contains l) (hb : t.Contains b)
    (h : 0 < t.distance l b) : ∃ m ∈ t.neighbours l, t.distance m b + 1 = t.distance l b := by
  obtain ⟨row, hrow, hrowMove, hrows⟩ := exists_isStep_closer hl.1 hb.1
  obtain ⟨col, hcol, hcolMove, hcols⟩ := exists_isStep_closer hl.2 hb.2
  unfold distance at h ⊢
  refine ⟨⟨row, col⟩, mem_neighbours_iff_isMove.2 ⟨hrow, hcol, ?_⟩, ?_⟩
  · rcases Nat.eq_zero_or_pos (axisDistance t.rows l.row b.row) with hzero | hpos
    · rw [hzero, Nat.zero_max] at h
      exact .inr (hcolMove h)
    · exact .inl (hrowMove hpos)
  · rw [hrows, hcols]
    omega

/-- So many moves lead from one location to another. -/
inductive Moves (t : Torus) : Nat → Location → Location → Prop
  | none (l : Location) : Moves t 0 l l
  | cons {n : Nat} {l m b : Location} (hm : m ∈ t.neighbours l) (h : Moves t n m b) :
    Moves t (n + 1) l b

namespace Moves

variable {n k : Nat}

theorem trans (h : t.Moves n a b) (h' : t.Moves k b c) : t.Moves (n + k) a c := by
  induction h with
  | none l => rwa [Nat.zero_add]
  | cons hm _ ih =>
    rw [Nat.succ_add]
    exact cons hm (ih h')

/-- No way is shorter than the distance. -/
theorem distance_le (h : t.Moves n a b) (ha : t.Contains a) (hb : t.Contains b) :
    t.distance a b ≤ n := by
  induction h with
  | none l => exact Nat.le_of_eq ((distance_eq_zero_iff ha ha).2 rfl)
  | cons hm _ ih =>
    have hcloser := distance_le_of_mem_neighbours ha hb hm
    exact Nat.le_trans hcloser (Nat.succ_le_succ (ih (contains_of_mem_neighbours ha hm) hb))

end Moves

/-- There is a way as short as the distance. -/
theorem moves_distance (ha : t.Contains a) (hb : t.Contains b) : t.Moves (t.distance a b) a b := by
  induction hn : t.distance a b generalizing a with
  | zero =>
    obtain rfl := (distance_eq_zero_iff ha hb).1 hn
    exact .none a
  | succ n ih =>
    obtain ⟨m, hm, hcloser⟩ := exists_mem_neighbours_closer ha hb (by omega)
    exact .cons hm (ih (contains_of_mem_neighbours ha hm) (by omega))

theorem distance_isLeast (ha : t.Contains a) (hb : t.Contains b) :
    IsLeast {n | t.Moves n a b} (t.distance a b) :=
  ⟨moves_distance ha hb, fun _ h ↦ h.distance_le ha hb⟩

/-- A way by a third location is no shorter. -/
theorem distance_triangle (ha : t.Contains a) (hb : t.Contains b) (hc : t.Contains c) :
    t.distance a c ≤ t.distance a b + t.distance b c :=
  ((moves_distance ha hb).trans (moves_distance hb hc)).distance_le ha hc

/-- On every board, whatever its size, the distance of two locations is the least
number of moves from one to the other, and no difference falls below zero in finding
it or the neighbours to move to.  So it is 0 for equal locations only, is the same in
both directions and no longer than the way by a third location, and it is at most half
the longer side. -/
theorem distance_fewest_moves (t : Torus) :
    (∀ l, t.Contains l → t.neighbours? l = some (t.neighbours l)) ∧
    (∀ a b, t.Contains a → t.Contains b →
      t.distance? a b = some (t.distance a b) ∧
      IsLeast {n | t.Moves n a b} (t.distance a b) ∧
      (t.distance a b = 0 ↔ a = b) ∧
      t.distance a b = t.distance b a ∧
      t.distance a b ≤ max t.rows t.cols / 2) ∧
    ∀ a b c, t.Contains a → t.Contains b → t.Contains c →
      t.distance a c ≤ t.distance a b + t.distance b c := by
  refine ⟨fun l _ ↦ neighbours?_eq t l, fun a b ha hb ↦ ?_, fun a b c ha hb hc ↦ ?_⟩
  · exact ⟨distance?_eq ha hb, distance_isLeast ha hb, distance_eq_zero_iff ha hb,
      distance_comm t a b, distance_le_half t a b⟩
  · exact distance_triangle ha hb hc

/-- Two rows and five columns: across the edge it takes two moves, and not fewer. -/
theorem distance_fewest_moves_edge :
    let t : Torus := ⟨2, 5, by decide, by decide⟩
    t.Contains ⟨0, 0⟩ ∧ t.Contains ⟨1, 3⟩ ∧ t.Moves 2 ⟨0, 0⟩ ⟨1, 3⟩ ∧
      (∀ n, t.Moves n ⟨0, 0⟩ ⟨1, 3⟩ → 2 ≤ n) ∧
      t.neighbours? ⟨0, 0⟩ = some (t.neighbours ⟨0, 0⟩) := by
  intro t
  have hfrom : t.Contains ⟨0, 0⟩ := by decide
  have hgoal : t.Contains ⟨1, 3⟩ := by decide
  obtain ⟨hneighbours, hdistance, -⟩ := distance_fewest_moves t
  obtain ⟨-, ⟨hway, hleast⟩, -⟩ := hdistance _ _ hfrom hgoal
  exact ⟨hfrom, hgoal, hway, fun n hn ↦ hleast hn, hneighbours _ hfrom⟩

end Skirmish.Arena.Torus
