import Skirmish.Proofs.Arena.Counting
import Skirmish.Proofs.Arena.Distance
import Skirmish.Proofs.Arena.Obedience

/-!
# Answers that agree

What a unit is told about the others comes from three places: how many there are
from the lists of the players, how many are beside it from the tiles, and how far
the nearest one is from the list of units.  All three are about `others`, the units
on a side of a unit: they are counted (`Coherent.countTotal_eq`), those at distance
one are counted (`Coherent.length_adjacent`), and the least distance is taken
(`distanceToClosest_eq`).

Main statement: in every scene that can be reached on a board with sides of three
tiles at least, the three answers agree with each other, and with whether there is
anybody to attack or anywhere to go (`answers_agree`).
-/

namespace Skirmish.Arena

open Skirmish.Random

variable {ρ : Type}

namespace Board

variable {b : Board ρ} {u : Fighter} {side : Side}

/-! ## The units beside a unit -/

/-- The tiles around a location hold the units at distance one. -/
theorem Coherent.mem_filterMap_neighbours (h : b.Coherent) (hrows : 3 ≤ b.torus.rows)
    (hcols : 3 ≤ b.torus.cols) {l : Location} (hl : b.torus.Contains l) {id : Serial} :
    id ∈ (b.torus.neighbours l).filterMap b.tiles.at? ↔
      ∃ v ∈ b.units, v.serial = id ∧ b.torus.distance l v.location = 1 := by
  rw [List.mem_filterMap]
  constructor
  · rintro ⟨m, hm, hat⟩
    have hcontains := Torus.contains_of_mem_neighbours hl hm
    obtain ⟨v, hv, rfl, rfl⟩ := (h.at?_iff m hcontains id).1 hat
    exact ⟨v, hv, rfl, Torus.distance_of_mem_neighbours hrows hcols hl hm⟩
  · rintro ⟨v, hv, rfl, hd⟩
    have hcontains := h.contains v hv
    exact ⟨v.location, (Torus.mem_neighbours_iff hrows hcols hl hcontains).2 hd,
      (h.at?_iff _ hcontains _).2 ⟨v, hv, rfl, rfl⟩⟩

/-- No unit stands on two of the tiles around a location. -/
theorem Coherent.nodup_filterMap_neighbours (h : b.Coherent) (hrows : 3 ≤ b.torus.rows)
    (hcols : 3 ≤ b.torus.cols) {l : Location} (hl : b.torus.Contains l) :
    ((b.torus.neighbours l).filterMap b.tiles.at?).Nodup := by
  refine List.pairwise_filterMap.2 ((Torus.nodup_neighbours hrows hcols hl).imp_of_mem ?_)
  rintro m n hm hn hne id hid _ hid' rfl
  obtain ⟨v, hv, hvs, rfl⟩ := (h.at?_iff m (Torus.contains_of_mem_neighbours hl hm) id).1 hid
  obtain ⟨w, hw, hws, rfl⟩ := (h.at?_iff n (Torus.contains_of_mem_neighbours hl hn) id).1 hid'
  exact hne (congrArg Fighter.location (h.eq_of_serial_eq hv hw (hvs.trans hws.symm)))

/-- Nobody stands at distance one from itself. -/
theorem Coherent.serial_ne_of_distance (h : b.Coherent) (hu : u ∈ b.units) {v : Fighter}
    (hv : v ∈ b.units) (hd : b.torus.distance u.location v.location ≠ 0) :
    v.serial ≠ u.serial := by
  intro e
  obtain rfl := h.eq_of_serial_eq hv hu e
  exact hd ((Torus.distance_eq_zero_iff (h.contains v hv) (h.contains v hv)).2 rfl)

/-- Others are never at distance zero. -/
theorem Coherent.distance_pos (h : b.Coherent) (hu : u ∈ b.units) {v : Fighter}
    (hv : v ∈ b.others u side) : 1 ≤ b.torus.distance u.location v.location := by
  obtain ⟨hmem, hne, -⟩ := mem_others.1 hv
  refine Nat.one_le_iff_ne_zero.2 fun hd ↦ hne ?_
  have hl := (Torus.distance_eq_zero_iff (h.contains u hu) (h.contains v hmem)).1 hd
  rw [h.eq_of_location_eq hmem hu hl.symm]

/-- The units that are found beside a unit are the others at distance one. -/
theorem Coherent.adjacent_perm (h : b.Coherent) (hrows : 3 ≤ b.torus.rows)
    (hcols : 3 ≤ b.torus.cols) (hu : u ∈ b.units) (side : Side) :
    (b.adjacent u side).Perm (((b.others u side).filter fun v ↦
      b.torus.distance u.location v.location == 1).map (·.serial)) := by
  have hl := h.contains u hu
  refine (List.perm_ext_iff_of_nodup ?_ ?_).2 fun id ↦ ?_
  · exact (h.nodup_filterMap_neighbours hrows hcols hl).filter _
  · exact h.serials_nodup.sublist ((List.filter_sublist.trans List.filter_sublist).map _)
  · rw [adjacent, List.mem_filter, h.mem_filterMap_neighbours hrows hcols hl]
    simp only [isOnSide, Bool.and_eq_true, bne_iff_ne, Option.any_eq_true, h.unit?_eq_some_iff,
      List.mem_map, List.mem_filter, mem_others, beq_iff_eq]
    constructor
    · rintro ⟨⟨v, hv, rfl, hd⟩, hne, w, ⟨hw, hws⟩, hside⟩
      obtain rfl := h.eq_of_serial_eq hw hv hws
      exact ⟨w, ⟨⟨hw, hne, hside⟩, hd⟩, rfl⟩
    · rintro ⟨v, ⟨⟨hv, hne, hside⟩, hd⟩, rfl⟩
      exact ⟨⟨v, hv, rfl, hd⟩, hne, v, ⟨hv, rfl⟩, hside⟩

theorem Coherent.length_adjacent (h : b.Coherent) (hrows : 3 ≤ b.torus.rows)
    (hcols : 3 ≤ b.torus.cols) (hu : u ∈ b.units) (side : Side) :
    (b.adjacent u side).length =
      (b.others u side).countP fun v ↦ b.torus.distance u.location v.location == 1 := by
  rw [(h.adjacent_perm hrows hcols hu side).length_eq, List.length_map,
    List.countP_eq_length_filter]

/-- Allies and enemies beside a unit are all who are beside it. -/
theorem Coherent.length_adjacent_add (h : b.Coherent) (hrows : 3 ≤ b.torus.rows)
    (hcols : 3 ≤ b.torus.cols) (hu : u ∈ b.units) :
    (b.adjacent u .ally).length + (b.adjacent u .enemy).length =
      ((b.torus.neighbours u.location).filterMap b.tiles.at?).length := by
  rw [adjacent, adjacent, ← List.countP_eq_length_filter, ← List.countP_eq_length_filter,
    ← List.countP_true]
  refine (countP_eq_add (fun id hid ↦ ?_) fun id hid ↦ ?_).symm
  all_goals
    obtain ⟨v, hv, rfl, hd⟩ := (h.mem_filterMap_neighbours hrows hcols (h.contains u hu)).1 hid
    have hne := h.serial_ne_of_distance hu hv (by omega)
    have hfound := h.unit?_eq_some_iff.2 ⟨hv, rfl⟩
    cases ho : v.owner == u.owner <;> simp [isOnSide, hfound, hne, Side.includes, ho]

/-- No room is left beside a unit if and only if eight units are beside it. -/
theorem Coherent.exists_free_iff (h : b.Coherent) (hrows : 3 ≤ b.torus.rows)
    (hcols : 3 ≤ b.torus.cols) (hu : u ∈ b.units) :
    (∃ m ∈ b.torus.neighbours u.location, b.tiles.isFree m = true) ↔
      (b.adjacent u .ally).length + (b.adjacent u .enemy).length < 8 := by
  have hfree : b.tiles.isFree = fun m ↦ decide ¬(b.tiles.at? m).isSome = true := by
    funext m
    cases hm : b.tiles.at? m <;> simp [Tiles.isFree, hm]
  have hlength := List.length_eq_countP_add_countP (fun m ↦ (b.tiles.at? m).isSome)
    (l := b.torus.neighbours u.location)
  rw [Torus.length_neighbours, ← List.length_filterMap_eq_countP,
    ← h.length_adjacent_add hrows hcols hu, ← hfree] at hlength
  rw [← List.countP_pos_iff]
  omega

/-! ## The nearest unit -/

theorem distanceToClosest_eq {id : Serial} (hu : b.unit? id = some u) (side : Side) :
    b.distanceToClosest id side =
      (((b.others u side).map fun v ↦ b.torus.distance u.location v.location).min?).getD
        (b.torus.rows + b.torus.cols) := by
  obtain rfl := serial_of_unit? hu
  simp only [distanceToClosest, hu, others]

/-- The answer stands for nobody, or it is the distance of somebody and at most
those of all others. -/
theorem distanceToClosest_cases {id : Serial} (hu : b.unit? id = some u) (side : Side) :
    (b.others u side = [] ∧ b.distanceToClosest id side = b.torus.rows + b.torus.cols) ∨
    ∃ v ∈ b.others u side, b.distanceToClosest id side = b.torus.distance u.location v.location ∧
      ∀ w ∈ b.others u side,
        b.distanceToClosest id side ≤ b.torus.distance u.location w.location := by
  rw [distanceToClosest_eq hu]
  cases hm : ((b.others u side).map fun v ↦ b.torus.distance u.location v.location).min? with
  | none => exact .inl ⟨List.map_eq_nil_iff.1 (List.min?_eq_none_iff.1 hm), rfl⟩
  | some d =>
    obtain ⟨hmem, hle⟩ := List.min?_eq_some_iff.1 hm
    obtain ⟨v, hv, rfl⟩ := List.mem_map.1 hmem
    exact .inr ⟨v, hv, rfl, fun w hw ↦ hle _ (List.mem_map_of_mem hw)⟩

/-! ## Whom to attack and where to go -/

variable [WordSource ρ]

/-- An attack finds somebody if there is an enemy beside the attacker. -/
theorem isSome_attack {id : Serial} (hu : b.unit? id = some u) (amount : Int64) :
    (b.attack id amount).1.isSome = true ↔ b.adjacent u .enemy ≠ [] := by
  rw [attack, hu]
  cases hc : (choose? (b.adjacent u .enemy) b.rng).1 with
  | none => simp [choose, choose?_eq_none_iff.1 hc]
  | some target =>
    have hmem := mem_of_choose? hc
    obtain ⟨v, hv, -⟩ := exists_of_mem_adjacent_enemy hmem
    have hv' : { b with rng := (choose? (b.adjacent u .enemy) b.rng).2 }.unit? target = some v := hv
    simp only [choose, hc, hv']
    exact iff_of_true rfl (List.ne_nil_of_mem hmem)

/-- A unit moves if there is a free tile beside it. -/
theorem isSome_move {id : Serial} (hu : b.unit? id = some u) :
    (b.move id).1.isSome = true ↔
      ∃ m ∈ b.torus.neighbours u.location, b.tiles.isFree m = true := by
  rw [move, hu]
  obtain ⟨e, hnone⟩ | ⟨goal, g, hm, hf, e⟩ := b.chooseFreeNeighbour_cases u.location
  · simp only [e]
    refine iff_of_false (by simp) ?_
    rintro ⟨m, hm, hf⟩
    cases (hnone m hm).symm.trans hf
  · simp only [e]
    exact iff_of_true rfl ⟨goal, hm, hf⟩

end Board

namespace Scene

variable [WordSource ρ]

/-- In every scene that can be reached on a board with sides of three tiles at least,
for every unit on the board:

* allies, enemies and the unit itself are all the units there are;
* the units of a side beside the unit are those at distance one, eight of them at
  most and no more than there are;
* the distance to the nearest unit of a side is the number of rows and columns
  together if and only if there is none, and else at least one, at most half the
  longer side, and one if and only if a unit of that side is beside;
* an attack finds somebody if and only if an enemy is beside the unit;
* the unit can move if and only if less than eight units are beside it. -/
theorem answers_agree {torus : Torus} {unitLimit : Nat} {unitHp : Int64} {s : Scene ρ}
    (h : s.Reachable torus unitLimit unitHp) (hrows : 3 ≤ s.board.torus.rows)
    (hcols : 3 ≤ s.board.torus.cols) {id : Serial} {u : Fighter}
    (hu : s.board.unit? id = some u) :
    s.board.countTotal id .ally + s.board.countTotal id .enemy + 1 = s.board.units.length ∧
    (∀ side,
      s.board.countAdjacent id side = (s.board.units.filter fun v ↦
        side.includes u.owner v.owner && s.board.torus.distance u.location v.location == 1).length ∧
      s.board.countAdjacent id side ≤ 8 ∧
      s.board.countAdjacent id side ≤ s.board.countTotal id side) ∧
    (∀ side,
      (s.board.distanceToClosest id side = s.board.torus.rows + s.board.torus.cols ↔
        s.board.countTotal id side = 0) ∧
      (s.board.countTotal id side ≠ 0 →
        1 ≤ s.board.distanceToClosest id side ∧
        s.board.distanceToClosest id side ≤ max s.board.torus.rows s.board.torus.cols / 2 ∧
        (s.board.distanceToClosest id side = 1 ↔ 0 < s.board.countAdjacent id side))) ∧
    (∀ amount,
      (s.board.attack id amount).1.isSome = true ↔ 0 < s.board.countAdjacent id .enemy) ∧
    ((s.board.move id).1.isSome = true ↔
      s.board.countAdjacent id .ally + s.board.countAdjacent id .enemy < 8) := by
  have hb := h.coherent
  have hmem := Board.mem_of_unit? hu
  have hadjacent : ∀ side, s.board.countAdjacent id side = (s.board.adjacent u side).length := by
    intro side
    simp only [Board.countAdjacent, hu, Option.map_some, Option.getD_some]
  simp only [hadjacent, hb.countTotal_eq hu]
  refine ⟨hb.length_others hmem, fun side ↦ ⟨?_, ?_, ?_⟩, fun side ↦ ?_, fun amount ↦ ?_, ?_⟩
  · rw [hb.length_adjacent hrows hcols hmem, Board.others, List.countP_filter,
      ← List.countP_eq_length_filter]
    refine List.countP_congr fun v hv ↦ ?_
    simp only [Bool.and_eq_true, bne_iff_ne, beq_iff_eq]
    constructor
    · rintro ⟨hd, -, hside⟩
      exact ⟨hside, hd⟩
    · rintro ⟨hside, hd⟩
      exact ⟨hd, hb.serial_ne_of_distance hmem hv (by omega), hside⟩
  · exact (List.length_filter_le _ _).trans (List.length_filterMap_le _ _)
  · rw [hb.length_adjacent hrows hcols hmem]
    exact List.countP_le_length
  · rw [hb.length_adjacent hrows hcols hmem]
    have hhalf := s.board.torus.distance_le_half u.location
    obtain ⟨hnil, hd⟩ | ⟨v, hv, hd, hle⟩ := Board.distanceToClosest_cases hu side
    · simp [hnil, hd]
    · have hpos := hb.distance_pos hmem hv
      refine ⟨iff_of_false ?_ ?_, fun _ ↦ ⟨?_, ?_, ?_⟩⟩
      · have := hhalf v.location
        omega
      · exact (List.length_pos_of_mem hv).ne'
      · omega
      · exact hd ▸ hhalf v.location
      · rw [List.countP_pos_iff]
        constructor
        · intro hone
          exact ⟨v, hv, by simpa using hd.symm.trans hone⟩
        · rintro ⟨w, hw, hone⟩
          have := hle w hw
          rw [beq_iff_eq.1 hone] at this
          omega
  · rw [Board.isSome_attack hu, List.length_pos_iff]
  · rw [Board.isSome_move hu, hb.exists_free_iff hrows hcols hmem]

/-- Of two units side by side each has one enemy and no ally, the enemy is next to
it, and there is room to move. -/
theorem answers_agree_standoff :
    standoff.board.countTotal 1 .ally + standoff.board.countTotal 1 .enemy + 1 =
        standoff.board.units.length ∧
      standoff.board.countTotal 1 .enemy = 1 ∧ standoff.board.distanceToClosest 1 .enemy = 1 ∧
      0 < standoff.board.countAdjacent 1 .enemy ∧
      standoff.board.distanceToClosest 1 .ally = 6 ∧
      (standoff.board.move 1).1.isSome = true := by
  have hunit : (standoff.board.unit? 1).isSome = true := by decide +kernel
  obtain ⟨u, hu⟩ := Option.isSome_iff_exists.1 hunit
  have htorus : standoff.board.torus = ⟨3, 3, by decide, by decide⟩ := rfl
  obtain ⟨hsum, -, hdistance, -, hmove⟩ :=
    answers_agree reachable_standoff (by rw [htorus]) (by rw [htorus]) hu
  have henemy : standoff.board.countTotal 1 .enemy = 1 := by decide +kernel
  have hone : standoff.board.distanceToClosest 1 .enemy = 1 := by decide +kernel
  refine ⟨hsum, henemy, hone, ?_, ?_, ?_⟩
  · exact ((hdistance .enemy).2 (by rw [henemy]; decide)).2.2.1 hone
  · exact (hdistance .ally).1.2 (by decide +kernel)
  · exact hmove.2 (by decide +kernel)

end Scene

end Skirmish.Arena
