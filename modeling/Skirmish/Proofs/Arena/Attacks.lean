import Skirmish.Proofs.Arena.Agreement
import Skirmish.Proofs.Arena.Readiness

/-!
# What an attack does

An attack picks one of the enemies beside the attacker and lets it be hit, and a unit
that is killed is taken off the board at once.  `Board.SameBut` says that two boards
are the same but for one unit, wherever boards keep units: it holds when a unit is
changed (`sameBut_setUnit`), when it is taken away (`Coherent.sameBut_despawn`), and
so when it is struck (`Coherent.sameBut_strike`).

What becomes of the unit itself goes by its defence and its hit points
(`Fighter.damage_cases`): it is where it was and has changed (`Remains`), or it is
nowhere any more (`IsGone`).

Main statement: in every scene that can be reached on a board with sides of three
tiles at least, an attack that finds somebody hits one enemy at distance one, with the
outcome that it reports, and touches nobody else; one that finds nobody changes
nothing, the generator included (`attack_resolves`).
-/

namespace Skirmish.Arena

open Skirmish.Random

theorem filter_ne_erase {α : Type} [DecidableEq α] (xs : List α) (x : α) :
    (xs.erase x).filter (· != x) = xs.filter (· != x) := by
  rw [← List.erase_filter]
  refine List.erase_of_not_mem fun hx ↦ ?_
  simpa using (List.mem_filter.1 hx).2

/-! ## The unit that is hit -/

/-- A unit that defends blocks the attack and defends no more.  Any other loses as
many hit points as the attack has, and is killed if it does not have more. -/
theorem Fighter.damage_cases (v : Fighter) {amount : Int64} (h : 1 ≤ amount.toInt) :
    (v.defending = true ∧ v.damage amount = (.blocked, { v with defending := false })) ∨
    (v.defending = false ∧ amount.toInt < v.hp.toInt ∧ ∃ hp : Int64,
      hp.toInt = v.hp.toInt - amount.toInt ∧ v.damage amount = (.wounded hp, { v with hp })) ∨
    (v.defending = false ∧ v.hp.toInt ≤ amount.toInt ∧ ∃ hp : Int64,
      v.damage amount = (.killed, { v with hp })) := by
  have hmin := v.hp.minValue_le_toInt
  have hmax := v.hp.toInt_le
  have hzero : Int64.minValue.toInt ≤ 0 := by decide
  have hclamp := toInt_clamp (v.hp.toInt - amount.toInt)
  unfold damage
  cases v.defending with
  | true => exact .inl ⟨rfl, rfl⟩
  | false =>
    rcases Int.lt_or_le amount.toInt v.hp.toInt with hlt | hle
    · have hhp : (clamp (v.hp.toInt - amount.toInt)).toInt = v.hp.toInt - amount.toInt := by
        omega
      refine .inr (.inl ⟨rfl, hlt, _, hhp, ?_⟩)
      have halive : ¬ (clamp (v.hp.toInt - amount.toInt)).toInt ≤ 0 := by omega
      simp [halive]
    · refine .inr (.inr ⟨rfl, hle, clamp (v.hp.toInt - amount.toInt), ?_⟩)
      have hdead : (clamp (v.hp.toInt - amount.toInt)).toInt ≤ 0 := by omega
      simp [hdead]

namespace Board

variable {ρ : Type}

/-! ## Boards that differ in one unit -/

/-- The boards are the same but for the unit of this number and the generator. -/
structure SameBut (id : Serial) (b b' : Board ρ) : Prop where
  /-- The other units are the same, in the same order. -/
  units : b'.units.filter (·.serial != id) = b.units.filter (·.serial != id)
  /-- No other tile is taken or left. -/
  tiles : ∀ l, b.tiles.at? l ≠ some id → b'.tiles.at? l = b.tiles.at? l
  /-- The others wait in the same order. -/
  waiting : b'.queue.waiting.filter (· != id) = b.queue.waiting.filter (· != id)
  turns : b'.queue.turns = b.queue.turns
  acting : b'.queue.acting = b.queue.acting
  /-- The players are the same and list the same other units. -/
  players : b'.players.map (fun p ↦ (p.id, p.units.filter (· != id))) =
    b.players.map fun p ↦ (p.id, p.units.filter (· != id))
  rules : b'.rules = b.rules
  spawned : b'.spawned = b.spawned

/-- A unit has changed and is where it was. -/
structure Remains (v w : Fighter) (b b' : Board ρ) : Prop where
  unit : b'.unit? v.serial = some w
  tiles : b'.tiles = b.tiles
  queue : b'.queue = b.queue
  players : b'.players = b.players

/-- A unit that was on a board is nowhere on another one. -/
structure IsGone (v : Fighter) (b : Board ρ) : Prop where
  unit : b.unit? v.serial = none
  tile : b.tiles.at? v.location = none
  waiting : v.serial ∉ b.queue.waiting
  players : ∀ p ∈ b.players, v.serial ∉ p.units

/-- What an attack of so many hit points does to a unit: it blocks the attack, it is
wounded and left with the difference, or it is killed. -/
inductive Suffers (v : Fighter) (amount : Int64) (b b' : Board ρ) : Hit → Prop
  | blocked (hdefending : v.defending = true)
    (h : Remains v { v with defending := false } b b') : Suffers v amount b b' .blocked
  | wounded {hp : Int64} (hdefending : v.defending = false) (hlt : amount.toInt < v.hp.toInt)
    (hhp : hp.toInt = v.hp.toInt - amount.toInt) (h : Remains v { v with hp } b b') :
    Suffers v amount b b' (.wounded hp)
  | killed (hdefending : v.defending = false) (hle : v.hp.toInt ≤ amount.toInt)
    (h : IsGone v b') : Suffers v amount b b' .killed

variable {b b' b'' : Board ρ} {id : Serial}

theorem SameBut.trans (h : SameBut id b b') (h' : SameBut id b' b'') : SameBut id b b'' where
  units := h'.units.trans h.units
  tiles := by
    intro l hl
    have hsame := h.tiles l hl
    exact (h'.tiles l (hsame ▸ hl)).trans hsame
  waiting := h'.waiting.trans h.waiting
  turns := h'.turns.trans h.turns
  acting := h'.acting.trans h.acting
  players := h'.players.trans h.players
  rules := h'.rules.trans h.rules
  spawned := h'.spawned.trans h.spawned

/-- Where the generator stands does not matter. -/
theorem SameBut.of_rng {g : ρ} (h : SameBut id { b with rng := g } b') : SameBut id b b' :=
  ⟨h.units, h.tiles, h.waiting, h.turns, h.acting, h.players, h.rules, h.spawned⟩

theorem Remains.of_rng {v w : Fighter} {g : ρ} (h : Remains v w { b with rng := g } b') :
    Remains v w b b' :=
  ⟨h.unit, h.tiles, h.queue, h.players⟩

theorem Suffers.of_rng {v : Fighter} {amount : Int64} {hit : Hit} {g : ρ}
    (h : Suffers v amount { b with rng := g } b' hit) : Suffers v amount b b' hit := by
  cases h with
  | blocked hd h => exact .blocked hd h.of_rng
  | wounded hd hlt hhp h => exact .wounded hd hlt hhp h.of_rng
  | killed hd hle h => exact .killed hd hle h

/-- A unit that changes is the only one that does. -/
theorem sameBut_setUnit (b : Board ρ) (v : Fighter) : SameBut v.serial b (b.setUnit v) where
  units := by
    have hkey : ((·.serial != v.serial) ∘ fun w : Fighter ↦ if w.serial = v.serial then v else w) =
        (·.serial != v.serial) := by
      funext w
      by_cases e : w.serial = v.serial <;> simp [e]
    rw [setUnit, List.filter_map, hkey]
    refine (List.map_congr_left fun w hw ↦ ?_).trans (List.map_id _)
    have hne : w.serial ≠ v.serial := by simpa using (List.mem_filter.1 hw).2
    exact if_neg hne
  tiles := fun _ _ ↦ rfl
  waiting := rfl
  turns := rfl
  acting := rfl
  players := rfl
  rules := rfl
  spawned := rfl

theorem strike_of_damage {v w : Fighter} {amount : Int64} {hit : Hit}
    (h : v.damage amount = (hit, w)) : b.strike v amount = (⟨w.serial, hit⟩,
      if hit = .killed then ((b.setUnit w).despawn w.serial).2 else b.setUnit w) := by
  rw [strike, h]

namespace Coherent

/-- A unit that goes is the only one that does. -/
theorem sameBut_despawn (h : b.Coherent) {v : Fighter} (hv : b.unit? v.serial = some v) :
    SameBut v.serial b (b.despawn v.serial).2 := by
  have hrules := b.rules_despawn v.serial
  rw [despawn_of_unit? hv] at hrules ⊢
  constructor
  case units => rw [List.filter_filter]; simp only [Bool.and_self]
  case tiles =>
    intro l hl
    have hmem := mem_of_unit? hv
    have hown : b.tiles.at? v.location = some v.serial :=
      (h.at?_iff _ (h.contains v hmem) _).2 ⟨v, hmem, rfl, rfl⟩
    refine (Tiles.at?_set _ _ _ _).trans (if_neg ?_)
    -- The tile that is cleared is the one on which the unit stands.
    rintro ⟨hindex, -⟩
    exact hl ((congrArg (fun i ↦ (b.tiles.cells[i]?).join) hindex).trans hown)
  case waiting => exact filter_ne_erase _ _
  case turns => rfl
  case acting => rfl
  case players =>
    simp only [updatePlayer, List.map_map]
    refine List.map_congr_left fun p _ ↦ ?_
    by_cases e : p.id = v.owner
    · simp only [Function.comp_apply, e, if_pos, Player.removeUnit, filter_ne_erase]
    · simp only [Function.comp_apply, if_neg e]
  case rules => exact hrules
  case spawned => rfl

theorem isGone_despawn (h : b.Coherent) {v : Fighter} (hv : b.unit? v.serial = some v) :
    IsGone v (b.despawn v.serial).2 := by
  have hafter := h.despawn v.serial
  have hnone := unit?_despawn_self b v.serial
  constructor
  case unit => exact hnone
  case tile =>
    have hcontains := h.contains v (mem_of_unit? hv)
    rw [despawn_of_unit? hv]
    exact (Tiles.at?_set_of_contains hcontains hcontains none).trans (if_pos rfl)
  case waiting =>
    rw [hafter.mem_waiting_iff, hnone]
    exact Bool.false_ne_true
  case players =>
    intro p hp hlisted
    obtain ⟨w, hw, hs, -⟩ := (hafter.mem_units p hp _).1 hlisted
    cases hnone.symm.trans (hafter.unit?_eq_some_iff.2 ⟨hw, hs⟩)

/-! ## Strikes -/

/-- A strike touches nobody but the unit that is struck. -/
theorem sameBut_strike (h : b.Coherent) {v : Fighter} (hv : b.unit? v.serial = some v)
    (amount : Int64) : SameBut v.serial b (b.strike v amount).2 := by
  have hstation := v.station_damage amount
  have hserial : (v.damage amount).2.serial = v.serial := congrArg (·.1) hstation
  have hset := b.sameBut_setUnit (v.damage amount).2
  have hcoherent := h.setUnit (mem_of_unit? hv) hstation
  rw [← hserial] at hv
  have hfound := unit?_setUnit_self hv
  rw [← hserial]
  unfold Board.strike
  dsimp only
  split
  · exact hset.trans (hcoherent.sameBut_despawn hfound)
  · exact hset

/-- The report tells what becomes of the unit that is struck. -/
theorem suffers_strike (h : b.Coherent) {v : Fighter} (hv : b.unit? v.serial = some v)
    {amount : Int64} (hamount : 1 ≤ amount.toInt) :
    (b.strike v amount).1.target = v.serial ∧
      Suffers v amount b (b.strike v amount).2 (b.strike v amount).1.hit := by
  have hremains : ∀ w : Fighter, w.serial = v.serial → Remains v w b (b.setUnit w) := by
    intro w hw
    refine ⟨?_, rfl, rfl, rfl⟩
    rw [← hw] at hv ⊢
    exact unit?_setUnit_self hv
  obtain ⟨hd, e⟩ | ⟨hd, hlt, hp, hhp, e⟩ | ⟨hd, hle, hp, e⟩ := v.damage_cases hamount
  · rw [strike_of_damage e]
    exact ⟨rfl, .blocked hd (hremains _ rfl)⟩
  · rw [strike_of_damage e]
    exact ⟨rfl, .wounded hd hlt hhp (hremains _ rfl)⟩
  · rw [strike_of_damage e]
    have hset := h.setUnit (v := { v with hp }) (mem_of_unit? hv) rfl
    have hfound := (hremains { v with hp } rfl).unit
    obtain ⟨hunit, htile, hwaiting, hplayers⟩ :=
      hset.isGone_despawn (v := { v with hp }) hfound
    exact ⟨rfl, .killed hd hle ⟨hunit, htile, hwaiting, hplayers⟩⟩

end Coherent

end Board

namespace Scene

variable {ρ : Type} [WordSource ρ]

/-- In every scene that can be reached on a board with sides of three tiles at least,
for every unit on the board and every attack of at least one hit point:

* an attack that finds somebody has hit a unit that was on the board, the only one of
  the number that is reported.  It is an enemy at distance one, nothing but this unit
  and the generator has changed, and the unit suffers what is reported;
* an attack that finds nobody leaves the board as it was, the generator included. -/
theorem attack_resolves {torus : Torus} {unitLimit : Nat} {unitHp : Int64} {s : Scene ρ}
    (h : s.Reachable torus unitLimit unitHp) (hrows : 3 ≤ s.board.torus.rows)
    (hcols : 3 ≤ s.board.torus.cols) {id : Serial} {u : Fighter}
    (hu : s.board.unit? id = some u) {amount : Int64} (hamount : 1 ≤ amount.toInt) :
    (∀ report, (s.board.attack id amount).1 = some report →
      ∃ v ∈ s.board.units, v.serial = report.target ∧
        (∀ w ∈ s.board.units, w.serial = report.target → w = v) ∧
        v.owner ≠ u.owner ∧ s.board.torus.distance u.location v.location = 1 ∧
        s.board.SameBut v.serial (s.board.attack id amount).2 ∧
        s.board.Suffers v amount (s.board.attack id amount).2 report.hit) ∧
    ((s.board.attack id amount).1 = none → (s.board.attack id amount).2 = s.board) := by
  have hb := h.coherent
  obtain e | ⟨w, v, g, hw, hv, hadj, ho, e⟩ := s.board.attack_cases id amount
  · rw [e]
    exact ⟨nofun, fun _ ↦ rfl⟩
  · obtain rfl : w = u := Option.some.inj (hw.symm.trans hu)
    have hattacker := Board.mem_of_unit? hw
    have htarget := Board.mem_of_unit? hv
    have hnear := hb.location_mem_neighbours hattacker hv hadj
    have hdistance :=
      Torus.distance_of_mem_neighbours hrows hcols (hb.contains w hattacker) hnear
    obtain ⟨hserial, hsuffers⟩ := (hb.withRng g).suffers_strike hv hamount
    have hsame := (hb.withRng g).sameBut_strike hv amount
    rw [e]
    refine ⟨?_, nofun⟩
    rintro report ⟨⟩
    refine ⟨v, htarget, hserial.symm, fun x hx hs ↦ ?_, ho, hdistance, hsame.of_rng,
      hsuffers.of_rng⟩
    exact hb.eq_of_serial_eq hx htarget (hs.trans hserial)

/-- One of two units side by side attacks and kills the other. -/
theorem attack_resolves_standoff :
    (standoff.board.attack 1 1).1 = some ⟨2, .killed⟩ ∧
      ∃ v ∈ standoff.board.units, v.serial = 2 ∧ (standoff.board.attack 1 1).2.IsGone v ∧
        standoff.board.SameBut 2 (standoff.board.attack 1 1).2 := by
  have hunit : (standoff.board.unit? 1).isSome = true := by decide +kernel
  obtain ⟨u, hu⟩ := Option.isSome_iff_exists.1 hunit
  have htorus : standoff.board.torus = ⟨3, 3, by decide, by decide⟩ := rfl
  have hone : 1 ≤ (1 : Int64).toInt := by decide
  have hreport : (standoff.board.attack 1 1).1 = some ⟨2, .killed⟩ := by decide +kernel
  obtain ⟨hits, -⟩ := attack_resolves reachable_standoff (by rw [htorus]) (by rw [htorus]) hu hone
  obtain ⟨v, hv, hserial, -, -, -, hsame, hsuffers⟩ := hits _ hreport
  have hserial : v.serial = 2 := hserial
  rw [hserial] at hsame
  refine ⟨hreport, v, hv, hserial, ?_, hsame⟩
  cases hsuffers with
  | killed _ _ hgone => exact hgone

end Scene

end Skirmish.Arena
