import Skirmish.Proofs.Arena.Acting
import Skirmish.Proofs.Arena.Rules

/-!
# How far a unit reaches

In a part of its turn a unit changes itself, hits enemies beside it, and gets new
units to its side; it does nothing to anybody else.  `Board.Touches` says so, with
the units that are hit and those that come as lists of numbers, so that one part
of a turn can follow another (`Touches.trans`).

Main statements: what falls due at the start of a turn hits at most one unit and
lets at most one come (`Coherent.touches_beginTurn`), and an order hits at most
one (`Scene.touches_obey`).
-/

namespace Skirmish.Arena

open Script Skirmish.Random

variable {ρ : Type}

/-! ## Changes within a unit -/

namespace Fighter

theorem bindings_tickCharge (u : Fighter) : u.tickCharge.2.bindings = u.bindings := by
  unfold tickCharge
  split
  · rfl
  · dsimp only
    split <;> rfl

theorem bindings_startTurn (u : Fighter) : u.startTurn.2.bindings = u.bindings :=
  bindings_tickCharge _

/-- All that hits can change of a unit are its hit points and its defence. -/
def HarmedTo (v w : Fighter) : Prop := w = { v with hp := w.hp, defending := w.defending }

theorem HarmedTo.trans {v w x : Fighter} (h : v.HarmedTo w) (h' : w.HarmedTo x) : v.HarmedTo x := by
  rw [HarmedTo, h', h]

theorem harmedTo_damage (v : Fighter) (amount : Int64) : v.HarmedTo (v.damage amount).2 := by
  unfold damage
  split <;> rfl

end Fighter

namespace Board

/-! ## Looking units up

Which unit a number finds is said by number here, without regard to the other
places that know of the unit. -/

theorem unit?_setUnit (b : Board ρ) (v : Fighter) (k : Serial) :
    (b.setUnit v).unit? k = (b.unit? k).map fun w ↦ if w.serial = v.serial then v else w := by
  have hkey : ((· == k) ∘ Fighter.serial) ∘ (fun w ↦ if w.serial = v.serial then v else w) =
      (· == k) ∘ Fighter.serial := by
    funext w
    by_cases e : w.serial = v.serial <;> simp [e]
  simp only [unit?, setUnit, List.find?_map]
  exact congrArg (fun p ↦ (b.units.find? p).map _) hkey

theorem unit?_setUnit_self {b : Board ρ} {u v : Fighter} (h : b.unit? v.serial = some u) :
    (b.setUnit v).unit? v.serial = some v := by
  rw [unit?_setUnit, h, Option.map_some, if_pos (serial_of_unit? h)]

theorem unit?_setUnit_of_ne {b : Board ρ} {v : Fighter} {k : Serial} (h : k ≠ v.serial) :
    (b.setUnit v).unit? k = b.unit? k := by
  rw [unit?_setUnit]
  cases hk : b.unit? k with
  | none => rfl
  | some w =>
    have hw : w.serial ≠ v.serial := serial_of_unit? hk ▸ h
    rw [Option.map_some, if_neg hw]

theorem unit?_add (b : Board ρ) (u : Fighter) (k : Serial) :
    (b.add u).unit? k = (b.unit? k).or (if u.serial = k then some u else none) := by
  rw [unit?, units_add, List.find?_append]
  by_cases e : u.serial = k <;> simp [e, unit?]

theorem unit?_despawn_self (b : Board ρ) (id : Serial) : (b.despawn id).2.unit? id = none := by
  cases hid : b.unit? id with
  | none =>
    rw [despawn_of_none hid]
    exact hid
  | some u =>
    rw [despawn_of_unit? hid]
    refine List.find?_eq_none.2 fun v hv ↦ ?_
    simpa using (List.mem_filter.1 hv).2

theorem unit?_despawn_of_ne {b : Board ρ} {id k : Serial} (h : k ≠ id) :
    (b.despawn id).2.unit? k = b.unit? k := by
  cases hid : b.unit? id with
  | none => rw [despawn_of_none hid]
  | some u =>
    rw [despawn_of_unit? hid]
    simp only [unit?, List.find?_filter]
    congr 1
    funext v
    by_cases e : v.serial = k <;> simp [e, h]

theorem waiting_despawn_sublist (b : Board ρ) (id : Serial) :
    (b.despawn id).2.queue.waiting.Sublist b.queue.waiting := by
  cases hid : b.unit? id with
  | none => rw [despawn_of_none hid]
  | some u =>
    rw [despawn_of_unit? hid]
    exact List.erase_sublist

theorem acting_despawn (b : Board ρ) (id : Serial) :
    (b.despawn id).2.queue.acting = b.queue.acting := by
  unfold despawn
  split <;> rfl

namespace Coherent

variable {b : Board ρ}

theorem unit?_fresh (h : b.Coherent) {k : Serial} (hk : b.spawned < k) : b.unit? k = none := by
  cases hu : b.unit? k with
  | none => rfl
  | some u =>
    obtain ⟨hmem, rfl⟩ := h.unit?_eq_some_iff.1 hu
    exact absurd (h.serial_le u hmem) (Nat.not_le.2 hk)

/-- A unit that is found beside another one stands on a tile beside it. -/
theorem location_mem_neighbours (h : b.Coherent) {u v : Fighter} {side : Side} (hu : u ∈ b.units)
    (hv : b.unit? v.serial = some v) (hadj : v.serial ∈ b.adjacent u side) :
    v.location ∈ b.torus.neighbours u.location := by
  obtain ⟨l, hl, hat⟩ := List.mem_filterMap.1 (List.mem_filter.1 hadj).1
  have hcontains : b.torus.Contains l := Torus.contains_of_mem_neighbours (h.contains u hu) hl
  obtain ⟨w, hw, hs, rfl⟩ := (h.at?_iff l hcontains _).1 hat
  rwa [h.eq_of_serial_eq (mem_of_unit? hv) hw hs.symm]

end Coherent

/-! ## Parts of a turn -/

/-- A part of the turn of a unit.  The unit is there before and after, some units
are hit, and some come. -/
structure Touches (u u' : Fighter) (hits born : List Serial) (b b' : Board ρ) : Prop where
  before : b.unit? u.serial = some u
  after : b'.unit? u.serial = some u'
  owner : u'.owner = u.owner
  /-- Units that are hit are enemies beside the acting one, and if they are left
  they are only harmed. -/
  struck : ∀ k ∈ hits, ∃ v, b.unit? k = some v ∧ v.owner ≠ u.owner ∧
    v.location ∈ b.torus.neighbours u.location ∧ ∀ w, b'.unit? k = some w → v.HarmedTo w
  /-- Units that come belong to the owner of the acting one and have no variables. -/
  came : ∀ k ∈ born, b.unit? k = none ∧
    ∃ w, b'.unit? k = some w ∧ w.owner = u.owner ∧ w.bindings = .empty
  /-- Nobody else changes, comes or goes. -/
  other : ∀ k, k ≠ u.serial → k ∉ hits → k ∉ born → b'.unit? k = b.unit? k
  /-- Whoever comes is last in the queue, and the others keep their order. -/
  waiting : b'.queue.waiting.Sublist (b.queue.waiting ++ born)
  acting : b'.queue.acting = b.queue.acting
  torus : b'.torus = b.torus

namespace Touches

variable {u u' u'' : Fighter} {hits hits' born born' : List Serial} {b b' b'' : Board ρ}

theorem serial (h : Touches u u' hits born b b') : u'.serial = u.serial := serial_of_unit? h.after

theorem serial_notMem_hits (h : Touches u u' hits born b b') : u.serial ∉ hits := by
  intro hk
  obtain ⟨v, hv, ho, -⟩ := h.struck _ hk
  rw [h.before] at hv
  exact ho (congrArg Fighter.owner (Option.some.inj hv).symm)

theorem serial_notMem_born (h : Touches u u' hits born b b') : u.serial ∉ born := by
  intro hk
  have hnone := (h.came _ hk).1
  rw [h.before] at hnone
  cases hnone

/-- The units that come are those who are there after and were not before. -/
theorem mem_born_iff (h : Touches u u' hits born b b') {k : Serial} :
    k ∈ born ↔ b.unit? k = none ∧ (b'.unit? k).isSome = true := by
  constructor
  · intro hk
    obtain ⟨hnone, w, hw, -⟩ := h.came k hk
    exact ⟨hnone, by rw [hw]; rfl⟩
  · rintro ⟨hnone, hsome⟩
    by_contra hk
    have hne : k ≠ u.serial := by
      rintro rfl
      cases h.before.symm.trans hnone
    have hhits : k ∉ hits := by
      intro hk
      obtain ⟨v, hv, -⟩ := h.struck k hk
      cases hv.symm.trans hnone
    rw [h.other k hne hhits hk, hnone] at hsome
    cases hsome

/-- Those who are left keep their order in the queue, and whoever comes is behind
them. -/
theorem waiting_eq (ht : Touches u u' hits born b b') (h : b.Coherent) (h' : b'.Coherent)
    (hborn : born.length ≤ 1) :
    b'.queue.waiting = b.queue.waiting.filter (fun k ↦ (b'.unit? k).isSome) ++ born := by
  have hnodup : (b.queue.waiting ++ born).Nodup := by
    refine List.nodup_append.2 ⟨h.waiting_nodup, ?_, ?_⟩
    · match born, hborn with
      | [], _ => exact List.nodup_nil
      | [k], _ => exact List.nodup_singleton k
    · rintro k hk _ hk' rfl
      obtain ⟨v, hv⟩ := Option.isSome_iff_exists.1 (h.mem_waiting_iff.1 hk)
      cases hv.symm.trans (ht.came k hk').1
  have hcame : ∀ k ∈ born, (b'.unit? k).isSome = true := fun k hk ↦ (ht.mem_born_iff.1 hk).2
  calc b'.queue.waiting
    _ = (b.queue.waiting ++ born).filter (· ∈ b'.queue.waiting) :=
      (filter_mem_of_sublist ht.waiting hnodup).symm
    _ = (b.queue.waiting ++ born).filter fun k ↦ (b'.unit? k).isSome :=
      List.filter_congr fun k _ ↦ by simp only [h'.mem_waiting_iff, Bool.decide_eq_true]
    _ = b.queue.waiting.filter (fun k ↦ (b'.unit? k).isSome) ++ born := by
      rw [List.filter_append, List.filter_eq_self.2 hcame]

/-- Parts of a turn add up, as long as the unit has not moved before it hits and no
number comes back. -/
theorem trans (h : Touches u u' hits born b b') (h' : Touches u' u'' hits' born' b' b'')
    (hl : hits' ≠ [] → u'.location = u.location) (hn : ∀ k ∈ hits, k ∉ born') :
    Touches u u'' (hits ++ hits') (born ++ born') b b'' where
  before := h.before
  after := h.serial ▸ h'.after
  owner := h'.owner.trans h.owner
  struck := by
    intro k hk
    by_cases hfirst : k ∈ hits
    · obtain ⟨v, hv, ho, hnear, hharm⟩ := h.struck k hfirst
      refine ⟨v, hv, ho, hnear, fun w hw ↦ ?_⟩
      by_cases hsecond : k ∈ hits'
      · obtain ⟨v', hv', -, -, hharm'⟩ := h'.struck k hsecond
        exact (hharm v' hv').trans (hharm' w hw)
      · have hne : k ≠ u'.serial := by
          rw [h.serial]
          exact fun e ↦ h.serial_notMem_hits (e ▸ hfirst)
        rw [h'.other k hne hsecond (hn k hfirst)] at hw
        exact hharm w hw
    · have hsecond : k ∈ hits' := (List.mem_append.1 hk).resolve_left hfirst
      obtain ⟨v, hv, ho, hnear, hharm⟩ := h'.struck k hsecond
      rw [h.owner] at ho
      have hne : k ≠ u.serial := fun e ↦ h'.serial_notMem_hits (h.serial ▸ e ▸ hsecond)
      -- Whoever has come before is no enemy.
      have hborn : k ∉ born := by
        intro hb
        obtain ⟨-, w, hw, how, -⟩ := h.came k hb
        rw [hv] at hw
        exact ho (Option.some.inj hw ▸ how)
      rw [h.other k hne hfirst hborn] at hv
      exact ⟨v, hv, ho, by rw [← hl (List.ne_nil_of_mem hsecond), ← h.torus]; exact hnear, hharm⟩
  came := by
    intro k hk
    by_cases hsecond : k ∈ born'
    · obtain ⟨hnone, w, hw, ho, hbindings⟩ := h'.came k hsecond
      have hne : k ≠ u.serial := fun e ↦ h'.serial_notMem_born (h.serial ▸ e ▸ hsecond)
      have hborn : k ∉ born := by
        intro hb
        obtain ⟨-, x, hx, -⟩ := h.came k hb
        rw [hnone] at hx
        cases hx
      rw [h.other k hne (fun hk' ↦ hn k hk' hsecond) hborn] at hnone
      exact ⟨hnone, w, hw, ho.trans h.owner, hbindings⟩
    · have hfirst : k ∈ born := (List.mem_append.1 hk).resolve_right hsecond
      obtain ⟨hnone, w, hw, ho, hbindings⟩ := h.came k hfirst
      have hhits : k ∉ hits' := by
        intro hh
        obtain ⟨v, hv, hov, -⟩ := h'.struck k hh
        rw [hw] at hv
        exact hov (by rw [h.owner, ← Option.some.inj hv, ho])
      have hne : k ≠ u'.serial := by
        rw [h.serial]
        exact fun e ↦ h.serial_notMem_born (e ▸ hfirst)
      exact ⟨hnone, w, (h'.other k hne hhits hsecond).trans hw, ho, hbindings⟩
  other := by
    intro k hne hhits hborn
    rw [List.mem_append, not_or] at hhits hborn
    have hne' : k ≠ u'.serial := h.serial ▸ hne
    exact (h'.other k hne' hhits.2 hborn.2).trans (h.other k hne hhits.1 hborn.1)
  waiting := by
    rw [← List.append_assoc]
    exact h'.waiting.trans (h.waiting.append_right born')
  acting := h'.acting.trans h.acting
  torus := h'.torus.trans h.torus

/-- A part of a turn in which the acting unit changes itself, if at all. -/
theorem of_other (hu : b.unit? u.serial = some u) (hu' : b'.unit? u.serial = some u')
    (ho : u'.owner = u.owner) (hother : ∀ k, k ≠ u.serial → b'.unit? k = b.unit? k)
    (hq : b'.queue = b.queue) (ht : b'.torus = b.torus) : Touches u u' [] [] b b' where
  before := hu
  after := hu'
  owner := ho
  struck := nofun
  came := nofun
  other := fun k hne _ _ ↦ hother k hne
  waiting := by rw [hq, List.append_nil]
  acting := by rw [hq]
  torus := ht

theorem refl (hu : b.unit? u.serial = some u) : Touches u u [] [] b b :=
  of_other hu hu rfl (fun _ _ ↦ rfl) rfl rfl

theorem setUnit (hu : b.unit? u.serial = some u) {v : Fighter} (hs : v.serial = u.serial)
    (ho : v.owner = u.owner) : Touches u v [] [] b (b.setUnit v) := by
  refine of_other hu ?_ ho (fun k hne ↦ unit?_setUnit_of_ne (hs ▸ hne)) rfl rfl
  rw [← hs] at hu ⊢
  exact unit?_setUnit_self hu

theorem updateUnit (hu : b.unit? u.serial = some u) {f : Fighter → Fighter}
    (hf : (f u).station = u.station) : Touches u (f u) [] [] b (b.updateUnit u.serial f) := by
  unfold Board.updateUnit
  rw [hu]
  exact setUnit hu (congrArg (·.1) hf) (congrArg (·.2.1) hf)

/-- A part of a turn in which one enemy is hit, and nobody else notices. -/
theorem of_hit {v : Fighter} (hu : b.unit? u.serial = some u) (hv : b.unit? v.serial = some v)
    (ho : v.owner ≠ u.owner) (hn : v.location ∈ b.torus.neighbours u.location)
    (hother : ∀ k, k ≠ v.serial → b'.unit? k = b.unit? k)
    (hharm : ∀ w, b'.unit? v.serial = some w → v.HarmedTo w)
    (hq : b'.queue.waiting.Sublist b.queue.waiting) (ha : b'.queue.acting = b.queue.acting)
    (ht : b'.torus = b.torus) : Touches u u [v.serial] [] b b' where
  before := hu
  after := by
    refine (hother _ fun e ↦ ?_).trans hu
    rw [e, hv] at hu
    exact ho (congrArg Fighter.owner (Option.some.inj hu))
  owner := rfl
  struck := by
    intro k hk
    obtain rfl := List.mem_singleton.1 hk
    exact ⟨v, hv, ho, hn, hharm⟩
  came := nofun
  other := fun k _ hk _ ↦ hother k fun e ↦ hk (List.mem_singleton.2 e)
  waiting := by rwa [List.append_nil]
  acting := ha
  torus := ht

/-- Where the generator stands does not matter. -/
theorem of_rng {g : ρ} (h : Touches u u' hits born { b with rng := g } b') :
    Touches u u' hits born b b' :=
  ⟨h.before, h.after, h.owner, h.struck, h.came, h.other, h.waiting, h.acting, h.torus⟩

end Touches

section Operations

variable {u v : Fighter} {b : Board ρ}

/-- A unit that is struck is harmed or gone. -/
theorem touches_strike (hu : b.unit? u.serial = some u) (hv : b.unit? v.serial = some v)
    (ho : v.owner ≠ u.owner) (hn : v.location ∈ b.torus.neighbours u.location) (amount : Int64) :
    Touches u u [v.serial] [] b (b.strike v amount).2 := by
  have hserial : (v.damage amount).2.serial = v.serial :=
    congrArg Prod.fst (v.station_damage amount)
  have hset : ∀ k, k ≠ v.serial → (b.setUnit (v.damage amount).2).unit? k = b.unit? k :=
    fun k hk ↦ unit?_setUnit_of_ne (hserial ▸ hk)
  have ht := torus_eq_of_rules_eq (rules_strike b v amount)
  unfold strike at ht ⊢
  dsimp only at ht ⊢
  rw [hserial] at ht ⊢
  split
  next hk =>
    rw [if_pos hk] at ht
    refine .of_hit hu hv ho hn (fun k hk ↦ (unit?_despawn_of_ne hk).trans (hset k hk)) ?_
      (waiting_despawn_sublist _ _) (acting_despawn _ _) ht
    intro w hw
    rw [unit?_despawn_self] at hw
    cases hw
  next =>
    refine .of_hit hu hv ho hn hset ?_ (.refl _) rfl rfl
    intro w hw
    rw [← hserial] at hv hw
    obtain rfl := Option.some.inj ((unit?_setUnit_self hv).symm.trans hw)
    exact v.harmedTo_damage amount

/-- Spawning a unit for the owner of the acting one lets at most one come. -/
theorem Coherent.touches_spawn (h : b.Coherent) (hu : b.unit? u.serial = some u) (l : Location) :
    ∃ born : List Serial, born.length ≤ 1 ∧ Touches u u [] born b (b.spawn u.owner l).2 := by
  obtain ⟨-, e⟩ | ⟨-, -, e⟩ | ⟨p, -, -, ⟨-, e⟩ | ⟨-, e⟩⟩ := b.spawn_cases u.owner l
  · exact ⟨[], Nat.zero_le _, e ▸ .refl hu⟩
  · exact ⟨[], Nat.zero_le _, e ▸ .refl hu⟩
  · exact ⟨[], Nat.zero_le _, e ▸ .refl hu⟩
  · rw [e]
    let w : Fighter := .new (b.spawned + 1) u.owner l b.unitHp
    have hfresh : b.spawned < w.serial := Nat.lt_succ_self _
    have hother : ∀ k, k ≠ w.serial → (b.add w).unit? k = b.unit? k := by
      intro k hk
      rw [unit?_add, if_neg hk.symm, Option.or_none]
    have hne : u.serial ≠ w.serial := by
      intro e
      rw [e, h.unit?_fresh hfresh] at hu
      cases hu
    refine ⟨[w.serial], Nat.le_refl _, hu, (hother _ hne).trans hu, rfl, nofun, ?_, ?_, ?_, ?_, rfl⟩
    · intro k hk
      obtain rfl := List.mem_singleton.1 hk
      have hnone := h.unit?_fresh hfresh
      exact ⟨hnone, w, by rw [unit?_add, hnone, if_pos rfl, Option.none_or], rfl, rfl⟩
    · exact fun k _ _ hk ↦ hother k fun e ↦ hk (List.mem_singleton.2 e)
    · exact h.waiting_add hfresh ▸ .refl _
    · change (b.queue.enqueue w.serial).acting = b.queue.acting
      unfold TurnQueue.enqueue
      split <;> rfl

variable [WordSource ρ]

theorem Coherent.touches_spawnAdjacent (h : b.Coherent) (hu : b.unit? u.serial = some u)
    (l : Location) :
    ∃ born : List Serial, born.length ≤ 1 ∧
      Touches u u [] born b (b.spawnAdjacent u.owner l).2 := by
  obtain e | ⟨goal, g, -, -, e⟩ := b.spawnAdjacent_cases u.owner l
  · exact ⟨[], Nat.zero_le _, e ▸ .refl hu⟩
  · rw [e]
    obtain ⟨born, hlen, ht⟩ := (h.withRng g).touches_spawn hu goal
    exact ⟨born, hlen, ht.of_rng⟩

/-- An attack hits at most one unit. -/
theorem Coherent.touches_attack (h : b.Coherent) (hu : b.unit? u.serial = some u)
    (amount : Int64) :
    ∃ hits : List Serial, hits.length ≤ 1 ∧
      Touches u u hits [] b (b.attack u.serial amount).2 := by
  obtain e | ⟨u₀, v, g, hu₀, hv, hadj, ho, e⟩ := b.attack_cases u.serial amount
  · exact ⟨[], Nat.zero_le _, e ▸ .refl hu⟩
  · obtain rfl : u₀ = u := Option.some.inj (hu₀.symm.trans hu)
    have hn := h.location_mem_neighbours (mem_of_unit? hu) hv hadj
    refine ⟨[v.serial], Nat.le_refl _, ?_⟩
    rw [e]
    exact (touches_strike (b := { b with rng := g }) hu hv ho hn amount).of_rng

/-- A unit that moves disturbs nobody. -/
theorem touches_move (hu : b.unit? u.serial = some u) :
    ∃ l, Touches u { u with location := l } [] [] b (b.move u.serial).2 := by
  obtain e | ⟨u₀, goal, g, hu₀, -, -, e⟩ := b.move_cases u.serial
  · exact ⟨u.location, e ▸ .refl hu⟩
  · obtain rfl : u₀ = u := Option.some.inj (hu₀.symm.trans hu)
    rw [e]
    have hset := Touches.setUnit (v := { u₀ with location := goal }) hu rfl rfl
    exact ⟨goal, .of_other hu hset.after rfl (fun k hk ↦ hset.other k hk nofun nofun) rfl rfl⟩

/-- What falls due hits at most one unit and lets at most one come. -/
theorem Coherent.touches_settle (h : b.Coherent) (hu : b.unit? u.serial = some u) (due : Due) :
    ∃ hits born : List Serial, hits.length ≤ 1 ∧ born.length ≤ 1 ∧
      Touches u u hits born b (b.settle u due).2 := by
  have hspawn : ∃ born : List Serial, ∃ r b', born.length ≤ 1 ∧ b'.Coherent ∧
      (if due.spawn then b.spawnAdjacent u.owner u.location else (.ok none, b)) = (r, b') ∧
      Touches u u [] born b b' := by
    split
    · obtain ⟨born, hlen, ht⟩ := h.touches_spawnAdjacent hu u.location
      exact ⟨born, _, _, hlen, h.spawnAdjacent _ (h.contains u (mem_of_unit? hu)), rfl, ht⟩
    · exact ⟨[], _, b, Nat.zero_le _, h, rfl, .refl hu⟩
  obtain ⟨born, r, b', hborn, hb', e, ht⟩ := hspawn
  unfold Board.settle
  rw [e]
  dsimp only
  split
  · exact ⟨[], born, Nat.zero_le _, hborn, ht⟩
  · exact ⟨[], born, Nat.zero_le _, hborn, ht⟩
  next amount _ =>
    obtain ⟨hits, hhits, ht'⟩ := hb'.touches_attack ht.after amount
    refine ⟨hits, born, hhits, hborn, ?_⟩
    simpa using ht.trans ht' (fun _ ↦ rfl) nofun

/-- Starting a turn hits at most one unit and lets at most one come.  The unit
whose turn it is stays where it is and keeps its variables. -/
theorem Coherent.touches_beginTurn (h : b.Coherent) {rest : List Serial}
    (hq : b.queue.waiting = u.serial :: rest) (hu : b.unit? u.serial = some u) :
    ∃ (u' : Fighter) (hits born : List Serial), hits.length ≤ 1 ∧ born.length ≤ 1 ∧
      u'.location = u.location ∧ u'.bindings = u.bindings ∧
      Touches u u' hits born (b.started u.serial) b.beginTurn.2 := by
  have hs : u.startTurn.2.station = u.station := u.station_startTurn
  have hset : Touches u u.startTurn.2 [] [] (b.started u.serial)
      ((b.started u.serial).setUnit u.startTurn.2) :=
    Touches.setUnit (b := b.started u.serial) hu (congrArg (·.1) hs) (congrArg (·.2.1) hs)
  have hstarted : (b.started u.serial).Coherent := h.withQueue (.refl _)
  have hready := hstarted.setUnit (mem_of_unit? hu) hs
  have hunit := hset.after
  rw [← hset.serial] at hunit
  obtain ⟨hits, born, hhits, hborn, ht⟩ := hready.touches_settle hunit u.startTurn.1
  refine ⟨u.startTurn.2, hits, born, hhits, hborn, congrArg (·.2.2) hs, u.bindings_startTurn, ?_⟩
  rw [beginTurn_eq hq hu]
  exact hset.trans ht (fun _ ↦ congrArg (·.2.2) hs) nofun

end Operations

end Board

namespace Scene

variable [WordSource ρ] {s : Scene ρ}

/-- Carrying out an order hits at most one unit, and a unit that hits another
stays where it is.  It keeps its variables, and has acted if it had. -/
theorem touches_carryOut (h : s.board.Coherent) {u : Fighter}
    (hu : s.board.unit? u.serial = some u) (o : Order) :
    ∃ (u' : Fighter) (hits : List Serial), hits.length ≤ 1 ∧
      (hits ≠ [] → u'.location = u.location) ∧ u'.bindings = u.bindings ∧ u'.acted = u.acted ∧
      Board.Touches u u' hits [] s.board (s.carryOut u o).2.board := by
  have hupdate : ∀ f : Fighter → Fighter, (f u).station = u.station →
      (f u).bindings = u.bindings → (f u).acted = u.acted →
      ∃ (u' : Fighter) (hits : List Serial), hits.length ≤ 1 ∧
        (hits ≠ [] → u'.location = u.location) ∧ u'.bindings = u.bindings ∧ u'.acted = u.acted ∧
        Board.Touches u u' hits [] s.board (s.board.updateUnit u.serial f) :=
    fun f hf hb ha ↦ ⟨f u, [], Nat.zero_le _, nofun, hb, ha, .updateUnit hu hf⟩
  cases o with
  | attack =>
    obtain ⟨hits, hlen, ht⟩ := h.touches_attack hu strikeDamage
    exact ⟨u, hits, hlen, fun _ ↦ rfl, rfl, rfl, ht⟩
  | charge turns => exact hupdate (·.beginCharge turns) rfl rfl rfl
  | move =>
    obtain ⟨l, ht⟩ := Board.touches_move hu
    refine ⟨{ u with location := l }, [], Nat.zero_le _, nofun, rfl, rfl, ?_⟩
    simp only [carryOut]
    split <;> simp_all [message]
  | spawn => exact hupdate (·.setSpawn spawnDelay) rfl rfl rfl
  | wait => exact ⟨u, [], Nat.zero_le _, nofun, rfl, rfl, .refl hu⟩
  | defend => exact hupdate Fighter.defend rfl rfl rfl
  | fortify => exact hupdate Fighter.fortify rfl rfl rfl

/-- An order to a unit hits at most one other, and a unit that hits another stays
where it is.  A unit that could act has acted then. -/
theorem touches_obey (h : s.board.Coherent) {u : Fighter}
    (hu : s.board.unit? u.serial = some u) (o : Order) :
    ∃ (u' : Fighter) (hits : List Serial), hits.length ≤ 1 ∧
      (hits ≠ [] → u'.location = u.location) ∧ u'.bindings = u.bindings ∧
      (u.canAct = true → u'.acted = true) ∧
      Board.Touches u u' hits [] s.board (s.obey u.serial o).2.board := by
  obtain ⟨hbusy, e⟩ | ⟨v, hv, -, e⟩ := s.obey_cases u.serial o
  · rw [e]
    exact ⟨u, [], Nat.zero_le _, nofun, rfl, fun ha ↦ absurd ha (by simp [hbusy u hu]), .refl hu⟩
  · obtain rfl : v = u := Option.some.inj (hv.symm.trans hu)
    rw [e]
    let acted : Fighter := { v with acted := true }
    have hset : Board.Touches v acted [] [] s.board (s.board.setUnit acted) := .setUnit hu rfl rfl
    obtain ⟨u', hits, hlen, hstay, hbindings, hacted, ht⟩ :=
      touches_carryOut (s := { s with board := s.board.setUnit acted })
        (u := acted) (h.setUnit (Board.mem_of_unit? hu) rfl) hset.after o
    refine ⟨u', hits, hlen, hstay, hbindings, fun _ ↦ hacted, ?_⟩
    simpa using hset.trans ht (fun _ ↦ rfl) nofun

end Scene

end Skirmish.Arena
