import Mathlib.Data.List.Nodup
import Skirmish.Arena.Orders

/-!
# The four places agree

A unit stands in four places: in the list of units, on the tiles, in the list of
its player, and in the turn queue.  `Board.Coherent` says that the four agree,
and this file shows that it survives everything that can be done to the places:

* units change within themselves, the queue is put into another order, or the
  generator moves on (`Coherent.congr`);
* a unit comes (`Coherent.add`), goes (`Coherent.despawn`) or moves to a free
  tile (`Coherent.relocate`);
* a player comes (`Coherent.addPlayer`) or goes (`Coherent.removeEliminated`).

What the operations of the board do is put together from these.
-/

namespace Skirmish.Arena

/-! ## Tiles that are on the board

On the board two locations are the same tile only if they are the same
location, so a tile can be set without regard to numbers. -/

theorem Torus.index_inj {t : Torus} {l m : Location} (hl : t.Contains l) (hm : t.Contains m)
    (h : t.index l = t.index m) : l = m := by
  rw [← Torus.ofIndex_index hl, h, Torus.ofIndex_index hm]

namespace Tiles

theorem at?_set_of_contains {g : Tiles} {l m : Location} (hl : g.torus.Contains l)
    (hm : g.torus.Contains m) (o : Option Serial) :
    (g.set l o).at? m = if m = l then o else g.at? m := by
  rw [at?_set]
  by_cases h : m = l
  · subst h
    simp [Torus.index_lt hl]
  · have hi : ¬ g.torus.index m = g.torus.index l := fun e ↦ h (Torus.index_inj hm hl e)
    simp [h, hi]

theorem isFree_iff {g : Tiles} {l : Location} : g.isFree l = true ↔ g.at? l = none := by
  simp [isFree]

/-- On a free tile nobody is replaced. -/
theorem at?_place_eq_some_iff {g : Tiles} {l m : Location} (hl : g.torus.Contains l)
    (hm : g.torus.Contains m) (hf : g.at? l = none) (s : Serial) {id : Serial} :
    (g.place l s).at? m = some id ↔ g.at? m = some id ∨ s = id ∧ l = m := by
  rw [place, at?_set_of_contains hl hm]
  by_cases e : m = l
  · subst e
    simp [hf]
  · have e' : ¬ l = m := fun he ↦ e he.symm
    simp [e, e']

end Tiles

/-- A sublist of different members is chosen by membership. -/
theorem filter_mem_of_sublist {α : Type} [DecidableEq α] {xs ys : List α} (h : xs.Sublist ys)
    (hn : ys.Nodup) : ys.filter (· ∈ xs) = xs := by
  have hsub : xs.Sublist (ys.filter (· ∈ xs)) := by
    have := h.filter (· ∈ xs)
    rwa [List.filter_eq_self.2 (by simp)] at this
  have hperm : xs.Perm (ys.filter (· ∈ xs)) := by
    refine (List.perm_ext_iff_of_nodup (h.nodup hn) (hn.filter _)).2 fun x ↦ ?_
    rw [List.mem_filter, decide_eq_true_iff]
    exact ⟨fun hx ↦ ⟨h.subset hx, hx⟩, And.right⟩
  exact (hsub.eq_of_length hperm.length_eq).symm

/-- Where keys are different, what is found under a key is the one member that
has it. -/
theorem find?_eq_some_iff_of_nodup {α κ : Type} [DecidableEq κ] {key : α → κ} {xs : List α}
    (hn : (xs.map key).Nodup) {k : κ} {a : α} :
    xs.find? (key · == k) = some a ↔ a ∈ xs ∧ key a = k := by
  constructor
  · intro h
    exact ⟨List.mem_of_find?_eq_some h, by simpa using List.find?_some h⟩
  · rintro ⟨ha, rfl⟩
    cases hf : xs.find? (key · == key a) with
    | none => exact absurd (beq_self_eq_true (key a)) (List.find?_eq_none.1 hf a ha)
    | some c =>
      have hc : key c = key a := by simpa using List.find?_some hf
      rw [List.inj_on_of_nodup_map hn (List.mem_of_find?_eq_some hf) ha hc]

/-- What is asked of images under a function is the same for lists with the same
images. -/
theorem exists_iff_of_map_eq {α β : Type} {f : α → β} {xs ys : List α} (h : xs.map f = ys.map f)
    (P : β → Prop) : (∃ x ∈ xs, P (f x)) ↔ ∃ y ∈ ys, P (f y) := by
  have := congrArg (fun zs ↦ ∃ z ∈ zs, P z) h
  simpa using this

theorem forall_of_map_eq {α β : Type} {f : α → β} {xs ys : List α} (h : xs.map f = ys.map f)
    {P : β → Prop} (hy : ∀ y ∈ ys, P (f y)) : ∀ x ∈ xs, P (f x) := by
  intro x hx
  have hm : f x ∈ ys.map f := h ▸ List.mem_map_of_mem hx
  obtain ⟨y, hy', e⟩ := List.mem_map.1 hm
  exact e ▸ hy y hy'

variable {ρ : Type}

/-! ## Coherence -/

/-- What the other places know of a unit. -/
def Fighter.station (u : Fighter) : Serial × PlayerId × Location := (u.serial, u.owner, u.location)

/-- The list of units, the tiles, the lists of the players and the turn queue
are about the same units. -/
structure Board.Coherent (b : Board ρ) : Prop where
  /-- Units have different numbers and are listed in their order. -/
  serials : b.units.Pairwise (·.serial < ·.serial)
  serial_pos : ∀ u ∈ b.units, 1 ≤ u.serial
  serial_le : ∀ u ∈ b.units, u.serial ≤ b.spawned
  contains : ∀ u ∈ b.units, b.torus.Contains u.location
  /-- A tile holds the unit that stands there. -/
  at?_iff : ∀ l, b.torus.Contains l → ∀ id,
    b.tiles.at? l = some id ↔ ∃ u ∈ b.units, u.serial = id ∧ u.location = l
  waiting_nodup : b.queue.waiting.Nodup
  /-- The queue holds every unit. -/
  mem_waiting : ∀ id, id ∈ b.queue.waiting ↔ ∃ u ∈ b.units, u.serial = id
  players_nodup : (b.players.map (·.id)).Nodup
  owner_mem : ∀ u ∈ b.units, u.owner ∈ b.players.map (·.id)
  /-- A player lists units in the order of their numbers, none of them twice. -/
  units_sorted : ∀ p ∈ b.players, p.units.Pairwise (· < ·)
  /-- A player lists the units that the player owns. -/
  mem_units : ∀ p ∈ b.players, ∀ id,
    id ∈ p.units ↔ ∃ u ∈ b.units, u.serial = id ∧ u.owner = p.id
  length_units_le : ∀ p ∈ b.players, p.units.length ≤ b.unitLimit

namespace Board

theorem coherent_empty (torus : Torus) (unitLimit : Nat) (unitHp : Int64) (rng : ρ) :
    (empty torus unitLimit unitHp rng).Coherent := by
  constructor <;> simp [empty, TurnQueue.empty]

namespace Coherent

variable {b b' : Board ρ}

theorem serials_nodup (h : b.Coherent) : (b.units.map (·.serial)).Nodup :=
  List.pairwise_map.2 (h.serials.imp fun hlt ↦ Nat.ne_of_lt hlt)

/-- A unit is known by its number. -/
theorem eq_of_serial_eq (h : b.Coherent) {u v : Fighter} (hu : u ∈ b.units) (hv : v ∈ b.units)
    (e : u.serial = v.serial) : u = v :=
  List.inj_on_of_nodup_map h.serials_nodup hu hv e

/-- No two units stand on one tile. -/
theorem eq_of_location_eq (h : b.Coherent) {u v : Fighter} (hu : u ∈ b.units) (hv : v ∈ b.units)
    (e : u.location = v.location) : u = v := by
  have hu' := (h.at?_iff _ (h.contains v hv) u.serial).2 ⟨u, hu, rfl, e⟩
  have hv' := (h.at?_iff _ (h.contains v hv) v.serial).2 ⟨v, hv, rfl, rfl⟩
  exact h.eq_of_serial_eq hu hv (Option.some.inj (hu'.symm.trans hv'))

theorem unit?_eq_some_iff (h : b.Coherent) {id : Serial} {u : Fighter} :
    b.unit? id = some u ↔ u ∈ b.units ∧ u.serial = id :=
  find?_eq_some_iff_of_nodup h.serials_nodup

/-- Those who wait are those who are there. -/
theorem mem_waiting_iff (h : b.Coherent) {id : Serial} :
    id ∈ b.queue.waiting ↔ (b.unit? id).isSome = true := by
  rw [h.mem_waiting, Option.isSome_iff_exists]
  simp only [h.unit?_eq_some_iff]

theorem player?_eq_some_iff (h : b.Coherent) {id : PlayerId} {p : Player} :
    b.player? id = some p ↔ p ∈ b.players ∧ p.id = id :=
  find?_eq_some_iff_of_nodup h.players_nodup

/-- When the tile of a unit is cleared, nobody else is missed. -/
theorem at?_clear_eq_some_iff (h : b.Coherent) {u : Fighter} (hu : u ∈ b.units) {l : Location}
    (hl : b.torus.Contains l) {id : Serial} :
    (b.tiles.clear u.location).at? l = some id ↔ id ≠ u.serial ∧ b.tiles.at? l = some id := by
  rw [Tiles.clear, Tiles.at?_set_of_contains (h.contains u hu) hl]
  have hown : b.tiles.at? u.location = some u.serial :=
    (h.at?_iff _ (h.contains u hu) _).2 ⟨u, hu, rfl, rfl⟩
  by_cases e : l = u.location
  · subst e
    rw [if_pos rfl, hown]
    refine iff_of_false nofun ?_
    rintro ⟨hne, hid⟩
    exact hne (Option.some.inj hid).symm
  · rw [if_neg e, iff_and_self]
    rintro hid rfl
    obtain ⟨v, hv, hs, rfl⟩ := (h.at?_iff l hl _).1 hid
    exact e (congrArg Fighter.location (h.eq_of_serial_eq hv hu hs))

/-- The units with other numbers than one. -/
theorem exists_mem_filter_iff {units : List Fighter} {s id : Serial} {P : Fighter → Prop} :
    (∃ v ∈ units.filter (·.serial != s), v.serial = id ∧ P v) ↔
      id ≠ s ∧ ∃ v ∈ units, v.serial = id ∧ P v := by
  constructor
  · rintro ⟨v, hv, rfl, hP⟩
    obtain ⟨hv, hne⟩ := List.mem_filter.1 hv
    exact ⟨by simpa using hne, v, hv, rfl, hP⟩
  · rintro ⟨hne, v, hv, rfl, hP⟩
    exact ⟨v, List.mem_filter.2 ⟨hv, by simpa using hne⟩, rfl, hP⟩

/-! ### Changes that no other place notices -/

/-- Coherence is about numbers, owners and locations of units, the tiles, the
players and who waits.  Hit points, timers, the order of the queue and the
generator do not matter. -/
theorem congr (h : b.Coherent)
    (hu : b'.units.map Fighter.station = b.units.map Fighter.station)
    (ht : b'.tiles = b.tiles) (hp : b'.players = b.players)
    (hq : b'.queue.waiting.Perm b.queue.waiting) (hl : b'.unitLimit = b.unitLimit)
    (hs : b'.spawned = b.spawned) : b'.Coherent := by
  have htorus : b'.torus = b.torus := congrArg Tiles.torus ht
  constructor
  · have hb : (b.units.map Fighter.station).Pairwise (·.1 < ·.1) := List.pairwise_map.2 h.serials
    rw [← hu] at hb
    exact (List.pairwise_map (f := Fighter.station)).1 hb
  · exact forall_of_map_eq hu (P := (1 ≤ ·.1)) h.serial_pos
  · rw [hs]
    exact forall_of_map_eq hu (P := (·.1 ≤ b.spawned)) h.serial_le
  · rw [htorus]
    exact forall_of_map_eq hu (P := (b.torus.Contains ·.2.2)) h.contains
  · intro l hl id
    rw [ht, h.at?_iff l (htorus ▸ hl) id]
    exact (exists_iff_of_map_eq hu fun s ↦ s.1 = id ∧ s.2.2 = l).symm
  · exact hq.nodup_iff.2 h.waiting_nodup
  · intro id
    rw [hq.mem_iff, h.mem_waiting id]
    exact (exists_iff_of_map_eq hu fun s ↦ s.1 = id).symm
  · rw [hp]
    exact h.players_nodup
  · rw [hp]
    exact forall_of_map_eq hu (P := (·.2.1 ∈ b.players.map (·.id))) h.owner_mem
  · rw [hp]
    exact h.units_sorted
  · rw [hp]
    intro p hp id
    rw [h.mem_units p hp id]
    exact (exists_iff_of_map_eq hu fun s ↦ s.1 = id ∧ s.2.1 = p.id).symm
  · rw [hp, hl]
    exact h.length_units_le

/-- The units when one of them has been replaced. -/
theorem mem_setUnit (h : b.Coherent) {u v : Fighter} (hu : u ∈ b.units) (hs : v.serial = u.serial)
    (w : Fighter) : w ∈ (b.setUnit v).units ↔ w = v ∨ w ∈ b.units ∧ w ≠ u := by
  have hiff : ∀ x ∈ b.units, x.serial = v.serial ↔ x = u := fun x hx ↦
    ⟨fun e ↦ h.eq_of_serial_eq hx hu (e.trans hs), fun e ↦ e ▸ hs.symm⟩
  simp only [Board.setUnit, List.mem_map]
  constructor
  · rintro ⟨x, hx, rfl⟩
    by_cases e : x = u
    · exact .inl (if_pos ((hiff x hx).2 e))
    · rw [if_neg (mt (hiff x hx).1 e)]
      exact .inr ⟨hx, e⟩
  · rintro (rfl | ⟨hw, hne⟩)
    · exact ⟨u, hu, if_pos hs.symm⟩
    · exact ⟨w, hw, if_neg (mt (hiff w hw).1 hne)⟩

/-- Replaced by a unit that other places cannot tell apart, a unit is still where
it was, in the eyes of the others. -/
theorem map_station_setUnit (h : b.Coherent) {u v : Fighter} (hu : u ∈ b.units)
    (hv : v.station = u.station) :
    (b.setUnit v).units.map Fighter.station = b.units.map Fighter.station := by
  have hs : v.serial = u.serial := congrArg Prod.fst hv
  simp only [Board.setUnit, List.map_map]
  refine List.map_congr_left fun w hw ↦ ?_
  by_cases e : w.serial = v.serial
  · obtain rfl : w = u := h.eq_of_serial_eq hw hu (e.trans hs)
    simp [e, hv]
  · simp [e]

/-- Two units that other places cannot tell apart can stand for each other. -/
theorem setUnit (h : b.Coherent) {u v : Fighter} (hu : u ∈ b.units) (hv : v.station = u.station) :
    (b.setUnit v).Coherent :=
  h.congr (h.map_station_setUnit hu hv) rfl rfl (.refl _) rfl rfl

theorem withRng (h : b.Coherent) (g : ρ) : { b with rng := g }.Coherent :=
  h.congr rfl rfl rfl (.refl _) rfl rfl

theorem withQueue (h : b.Coherent) {q : TurnQueue Serial} (hq : q.waiting.Perm b.queue.waiting) :
    { b with queue := q }.Coherent :=
  h.congr rfl rfl rfl hq rfl rfl

end Coherent

/-! ### Coming and going -/

@[simp] theorem units_add (b : Board ρ) (u : Fighter) : (b.add u).units = b.units ++ [u] := rfl

@[simp] theorem tiles_add (b : Board ρ) (u : Fighter) :
    (b.add u).tiles = b.tiles.place u.location u.serial := rfl

@[simp] theorem queue_add (b : Board ρ) (u : Fighter) :
    (b.add u).queue = b.queue.enqueue u.serial := rfl

@[simp] theorem unitLimit_add (b : Board ρ) (u : Fighter) : (b.add u).unitLimit = b.unitLimit := rfl

theorem map_id_updatePlayer (b : Board ρ) (id : PlayerId) {f : Player → Player}
    (hf : ∀ p, (f p).id = p.id) :
    (b.updatePlayer id f).players.map (·.id) = b.players.map (·.id) := by
  simp only [updatePlayer, List.map_map]
  refine List.map_congr_left fun p _ ↦ ?_
  by_cases e : p.id = id <;> simp [e, hf]

@[simp] theorem map_id_add (b : Board ρ) (u : Fighter) :
    (b.add u).players.map (·.id) = b.players.map (·.id) :=
  b.map_id_updatePlayer u.owner fun _ ↦ rfl

theorem mem_players_add {b : Board ρ} {u : Fighter} {p : Player} (hp : p ∈ (b.add u).players) :
    ∃ q ∈ b.players, p.id = q.id ∧
      p.units = if q.id = u.owner then q.units ++ [u.serial] else q.units := by
  obtain ⟨q, hq, rfl⟩ := List.mem_map.1 hp
  refine ⟨q, hq, ?_⟩
  split <;> simp [Player.addUnit]

namespace Coherent

variable {b : Board ρ}

theorem serial_notMem_waiting (h : b.Coherent) {id : Serial} (hid : b.spawned < id) :
    id ∉ b.queue.waiting := by
  intro hm
  obtain ⟨v, hv, rfl⟩ := (h.mem_waiting id).1 hm
  exact absurd (h.serial_le v hv) (Nat.not_le.2 hid)

theorem waiting_add (h : b.Coherent) {u : Fighter} (hu : b.spawned < u.serial) :
    (b.add u).queue.waiting = b.queue.waiting ++ [u.serial] := by
  simp [TurnQueue.enqueue, h.serial_notMem_waiting hu]

/-- A unit with a new number can come to a free tile, for a player with room for
one more. -/
theorem add (h : b.Coherent) {u : Fighter} {p : Player} (hu : b.spawned < u.serial)
    (hl : b.torus.Contains u.location) (hf : b.tiles.at? u.location = none)
    (hp : p ∈ b.players) (ho : p.id = u.owner) (hn : p.units.length < b.unitLimit) :
    (b.add u).Coherent := by
  have hlt : ∀ v ∈ b.units, v.serial < u.serial := fun v hv ↦
    Nat.lt_of_le_of_lt (h.serial_le v hv) hu
  have hexists : ∀ P : Fighter → Prop,
      (∃ v ∈ (b.add u).units, P v) ↔ (∃ v ∈ b.units, P v) ∨ P u := by
    intro P
    simp only [units_add, List.mem_append, List.mem_singleton, or_and_right, exists_or,
      exists_eq_left]
  constructor
  case serials =>
    refine List.pairwise_append.2 ⟨h.serials, List.pairwise_singleton _ _, fun v hv ↦ ?_⟩
    exact List.forall_mem_singleton.2 (hlt v hv)
  case serial_pos =>
    refine List.forall_mem_append.2 ⟨h.serial_pos, List.forall_mem_singleton.2 ?_⟩
    exact Nat.succ_le_of_lt (Nat.lt_of_le_of_lt (Nat.zero_le _) hu)
  case serial_le =>
    refine List.forall_mem_append.2 ⟨?_, List.forall_mem_singleton.2 (Nat.le_refl _)⟩
    exact fun v hv ↦ Nat.le_of_lt (hlt v hv)
  case contains =>
    exact List.forall_mem_append.2 ⟨h.contains, List.forall_mem_singleton.2 hl⟩
  case at?_iff =>
    intro l hl' id
    rw [tiles_add, Tiles.at?_place_eq_some_iff hl hl' hf, h.at?_iff l hl' id, hexists]
  case waiting_nodup =>
    rw [h.waiting_add hu, List.nodup_append]
    refine ⟨h.waiting_nodup, List.nodup_singleton _, ?_⟩
    rintro a ha c hc rfl
    exact h.serial_notMem_waiting hu (List.mem_singleton.1 hc ▸ ha)
  case mem_waiting =>
    intro id
    rw [h.waiting_add hu, List.mem_append, h.mem_waiting id, hexists, List.mem_singleton,
      eq_comm (a := id)]
  case players_nodup =>
    rw [map_id_add]
    exact h.players_nodup
  case owner_mem =>
    rw [map_id_add]
    refine List.forall_mem_append.2 ⟨h.owner_mem, List.forall_mem_singleton.2 ?_⟩
    exact ho ▸ List.mem_map_of_mem hp
  case units_sorted =>
    intro q hq
    obtain ⟨r, hr, -, hunits⟩ := mem_players_add hq
    rw [hunits]
    split
    · refine List.pairwise_append.2 ⟨h.units_sorted r hr, List.pairwise_singleton _ _, ?_⟩
      intro a ha c hc
      obtain ⟨v, hv, rfl, -⟩ := (h.mem_units r hr a).1 ha
      rw [List.mem_singleton.1 hc]
      exact hlt v hv
    · exact h.units_sorted r hr
  case mem_units =>
    intro q hq id
    obtain ⟨r, hr, hid, hunits⟩ := mem_players_add hq
    rw [hexists, hunits, hid, ← h.mem_units r hr id]
    by_cases e : r.id = u.owner
    · simp [e, eq_comm]
    · have e' : ¬ u.owner = r.id := fun he ↦ e he.symm
      simp [e, e']
  case length_units_le =>
    intro q hq
    obtain ⟨r, hr, -, hunits⟩ := mem_players_add hq
    rw [hunits, unitLimit_add]
    split
    next e =>
      have : r = p := List.inj_on_of_nodup_map h.players_nodup hr hp (e.trans ho.symm)
      rw [this, List.length_append, List.length_singleton]
      omega
    next => exact h.length_units_le r hr

end Coherent

/-- What is left of a board when a unit goes. -/
theorem despawn_of_unit? {b : Board ρ} {id : Serial} {u : Fighter} (hu : b.unit? id = some u) :
    b.despawn id = (some u, { b.updatePlayer u.owner (·.removeUnit id) with
      tiles := b.tiles.clear u.location
      units := b.units.filter (·.serial != id)
      queue := b.queue.dequeue id }) := by
  simp [despawn, hu]

theorem despawn_of_none {b : Board ρ} {id : Serial} (hu : b.unit? id = none) :
    b.despawn id = (none, b) := by
  simp [despawn, hu]

theorem mem_players_removeUnit {b : Board ρ} {owner : PlayerId} {id : Serial} {p : Player}
    (hp : p ∈ (b.updatePlayer owner (·.removeUnit id)).players) :
    ∃ q ∈ b.players, p.id = q.id ∧
      p.units = if q.id = owner then q.units.erase id else q.units := by
  obtain ⟨q, hq, rfl⟩ := List.mem_map.1 hp
  refine ⟨q, hq, ?_⟩
  split <;> simp [Player.removeUnit]

namespace Coherent

variable {b : Board ρ}

theorem despawn (h : b.Coherent) (id : Serial) : (b.despawn id).2.Coherent := by
  cases hid : b.unit? id with
  | none =>
    rw [despawn_of_none hid]
    exact h
  | some u =>
    obtain ⟨hu, rfl⟩ := h.unit?_eq_some_iff.1 hid
    rw [despawn_of_unit? hid]
    have hmem : ∀ {v}, v ∈ b.units.filter (·.serial != u.serial) → v ∈ b.units :=
      fun hv ↦ List.mem_of_mem_filter hv
    have hids := b.map_id_updatePlayer u.owner (f := (·.removeUnit u.serial)) fun _ ↦ rfl
    constructor
    case serials => exact h.serials.sublist List.filter_sublist
    case serial_pos => exact fun v hv ↦ h.serial_pos v (hmem hv)
    case serial_le => exact fun v hv ↦ h.serial_le v (hmem hv)
    case contains => exact fun v hv ↦ h.contains v (hmem hv)
    case at?_iff =>
      intro l hl id
      rw [h.at?_clear_eq_some_iff hu hl, h.at?_iff l hl id, exists_mem_filter_iff]
    case waiting_nodup => exact h.waiting_nodup.erase _
    case mem_waiting =>
      intro id
      rw [TurnQueue.dequeue, h.waiting_nodup.mem_erase_iff, h.mem_waiting id]
      simpa only [and_true] using (exists_mem_filter_iff (P := fun _ ↦ True)).symm
    case players_nodup =>
      rw [hids]
      exact h.players_nodup
    case owner_mem =>
      intro v hv
      rw [hids]
      exact h.owner_mem v (hmem hv)
    case units_sorted =>
      intro p hp
      obtain ⟨q, hq, -, hunits⟩ := mem_players_removeUnit hp
      rw [hunits]
      split
      · exact (h.units_sorted q hq).sublist List.erase_sublist
      · exact h.units_sorted q hq
    case mem_units =>
      intro p hp id
      obtain ⟨q, hq, hqid, hunits⟩ := mem_players_removeUnit hp
      have hnodup : q.units.Nodup := (h.units_sorted q hq).imp fun hlt ↦ Nat.ne_of_lt hlt
      rw [exists_mem_filter_iff, hqid, ← h.mem_units q hq id, hunits]
      split
      next => exact hnodup.mem_erase_iff
      next e =>
        -- Nobody but the owner lists the unit that goes.
        rw [iff_and_self]
        rintro hid rfl
        obtain ⟨v, hv, hs, ho⟩ := (h.mem_units q hq _).1 hid
        exact e (ho.symm.trans (congrArg Fighter.owner (h.eq_of_serial_eq hv hu hs)))
    case length_units_le =>
      intro p hp
      obtain ⟨q, hq, -, hunits⟩ := mem_players_removeUnit hp
      rw [hunits]
      split
      · exact Nat.le_trans List.erase_sublist.length_le (h.length_units_le q hq)
      · exact h.length_units_le q hq

/-! ### Moving -/

/-- A unit can be put on a free tile, as long as its old tile is cleared. -/
theorem relocate (h : b.Coherent) {u : Fighter} {goal : Location} (hu : u ∈ b.units)
    (hg : b.torus.Contains goal) (hf : b.tiles.at? goal = none) :
    { b.setUnit { u with location := goal } with
      tiles := (b.tiles.clear u.location).place goal u.serial }.Coherent := by
  have hmem := h.mem_setUnit (v := { u with location := goal }) hu rfl
  have htitles : (b.setUnit { u with location := goal }).units.map (fun v ↦ (v.serial, v.owner)) =
      b.units.map fun v ↦ (v.serial, v.owner) := by
    simp only [Board.setUnit, List.map_map]
    refine List.map_congr_left fun v hv ↦ ?_
    by_cases e : v.serial = u.serial
    · simp [h.eq_of_serial_eq hv hu e]
    · simp [e]
  constructor
  case serials =>
    have hb : (b.units.map fun v ↦ (v.serial, v.owner)).Pairwise (·.1 < ·.1) :=
      List.pairwise_map.2 h.serials
    rw [← htitles] at hb
    exact (List.pairwise_map (f := fun v : Fighter ↦ (v.serial, v.owner))).1 hb
  case serial_pos => exact forall_of_map_eq htitles (P := (1 ≤ ·.1)) h.serial_pos
  case serial_le => exact forall_of_map_eq htitles (P := (·.1 ≤ b.spawned)) h.serial_le
  case contains =>
    intro v hv
    rcases (hmem v).1 hv with rfl | ⟨hv, -⟩
    · exact hg
    · exact h.contains v hv
  case at?_iff =>
    intro l hl id
    have hfree : (b.tiles.clear u.location).at? goal = none := by
      rw [Tiles.clear, Tiles.at?_set_of_contains (h.contains u hu) hg, hf, ite_self]
    rw [Tiles.at?_place_eq_some_iff (g := b.tiles.clear u.location) hg hl hfree,
      h.at?_clear_eq_some_iff hu hl, h.at?_iff l hl id]
    simp only [hmem, or_and_right, exists_or, exists_eq_left]
    rw [or_comm]
    refine or_congr_right ⟨?_, ?_⟩
    · rintro ⟨hne, v, hv, rfl, hvl⟩
      exact ⟨v, ⟨hv, fun e ↦ hne (congrArg _ e)⟩, rfl, hvl⟩
    · rintro ⟨v, ⟨hv, hne⟩, rfl, hvl⟩
      exact ⟨fun e ↦ hne (h.eq_of_serial_eq hv hu e), v, hv, rfl, hvl⟩
  case waiting_nodup => exact h.waiting_nodup
  case mem_waiting =>
    intro id
    exact (h.mem_waiting id).trans (exists_iff_of_map_eq htitles (·.1 = id)).symm
  case players_nodup => exact h.players_nodup
  case owner_mem =>
    exact forall_of_map_eq htitles (P := (·.2 ∈ b.players.map (·.id))) h.owner_mem
  case units_sorted => exact h.units_sorted
  case mem_units =>
    intro p hp id
    exact (h.mem_units p hp id).trans
      (exists_iff_of_map_eq htitles fun s ↦ s.1 = id ∧ s.2 = p.id).symm
  case length_units_le => exact h.length_units_le

/-! ### Players -/

theorem addPlayer (h : b.Coherent) (id : PlayerId) : (b.addPlayer id).Coherent := by
  unfold Board.addPlayer
  split
  · exact h
  next hid =>
    have hnew : id ∉ b.players.map (·.id) := by
      intro hm
      obtain ⟨p, hp, e⟩ := List.mem_map.1 hm
      exact hid (by rw [h.player?_eq_some_iff.2 ⟨hp, e⟩]; rfl)
    constructor
    case serials => exact h.serials
    case serial_pos => exact h.serial_pos
    case serial_le => exact h.serial_le
    case contains => exact h.contains
    case at?_iff => exact h.at?_iff
    case waiting_nodup => exact h.waiting_nodup
    case mem_waiting => exact h.mem_waiting
    case players_nodup =>
      rw [List.map_append, List.nodup_append]
      refine ⟨h.players_nodup, List.nodup_singleton _, ?_⟩
      rintro a ha c hc rfl
      obtain rfl : a = id := by simpa [Player.new] using hc
      exact hnew ha
    case owner_mem =>
      intro u hu
      rw [List.map_append]
      exact List.mem_append_left _ (h.owner_mem u hu)
    case units_sorted =>
      exact List.forall_mem_append.2 ⟨h.units_sorted, List.forall_mem_singleton.2 .nil⟩
    case mem_units =>
      refine List.forall_mem_append.2 ⟨h.mem_units, List.forall_mem_singleton.2 fun k ↦ ?_⟩
      refine iff_of_false List.not_mem_nil ?_
      rintro ⟨u, hu, -, rfl⟩
      exact hnew (h.owner_mem u hu)
    case length_units_le =>
      exact List.forall_mem_append.2
        ⟨h.length_units_le, List.forall_mem_singleton.2 (Nat.zero_le _)⟩

/-- A player who leaves has no units, so nobody is left without an owner. -/
theorem removeEliminated (h : b.Coherent) : b.removeEliminated.2.Coherent := by
  have hmem : ∀ p, p ∈ b.players.filter (!·.units.isEmpty) → p ∈ b.players := fun p hp ↦
    (List.mem_filter.1 hp).1
  constructor
  case serials => exact h.serials
  case serial_pos => exact h.serial_pos
  case serial_le => exact h.serial_le
  case contains => exact h.contains
  case at?_iff => exact h.at?_iff
  case waiting_nodup => exact h.waiting_nodup
  case mem_waiting => exact h.mem_waiting
  case players_nodup => exact h.players_nodup.sublist (List.filter_sublist.map _)
  case owner_mem =>
    intro u hu
    obtain ⟨p, hp, ho⟩ := List.mem_map.1 (h.owner_mem u hu)
    have hown : u.serial ∈ p.units := (h.mem_units p hp _).2 ⟨u, hu, rfl, ho.symm⟩
    refine List.mem_map.2 ⟨p, List.mem_filter.2 ⟨hp, ?_⟩, ho⟩
    cases hunits : p.units with
    | nil => simp [hunits] at hown
    | cons _ _ => rfl
  case units_sorted => exact fun p hp ↦ h.units_sorted p (hmem p hp)
  case mem_units => exact fun p hp ↦ h.mem_units p (hmem p hp)
  case length_units_le => exact fun p hp ↦ h.length_units_le p (hmem p hp)

end Coherent

end Board

end Skirmish.Arena
