import Skirmish.Proofs.Arena.Newcomers
import Skirmish.Proofs.Contest.Opening

/-!
# First units

Before a match every player gets a unit on a tile that is drawn at random, and as long as
a tile is taken another one is drawn.  `Board.placeAt` is one round of this: a location
has been drawn for the first of the players who still wait.  Whatever is drawn, the
players who have been served are lined up with their units (`LinedUp.placeAt`), and as
long as anybody waits a tile is free (`LinedUp.exists_free`), so the rounds never go on in
vain.

The generator is asked for a limited number of locations for each player.  Unless all of
these are taken, the rounds are those of the locations that it brings up
(`LinedUp.spawnEach_cases`); if they are, the first free tile stands in for the next one.

Main statement: on a new board with room for all players, every player gets a unit,
whatever is drawn, and nothing goes wrong (`first_units_placed`).
-/

namespace Skirmish.Arena

open Skirmish.Random

variable {ρ : Type}

/-! ## Drawing locations -/

namespace Torus

theorem index_ofIndex (t : Torus) (i : Nat) : t.index (t.ofIndex i) = i := Nat.div_add_mod' i t.cols

variable [WordSource ρ]

/-- So many random locations, one after the other. -/
def draws (t : Torus) : Nat → ρ → List Location × ρ
  | 0, g => ([], g)
  | n + 1, g =>
    let (l, g) := t.randomLocation g
    let (ls, g) := t.draws n g
    (l :: ls, g)

theorem draws_add (t : Torus) (n k : Nat) (g : ρ) :
    t.draws (n + k) g =
      ((t.draws n g).1 ++ (t.draws k (t.draws n g).2).1, (t.draws k (t.draws n g).2).2) := by
  induction n generalizing g with
  | zero => rw [Nat.zero_add]; rfl
  | succ n ih =>
    rw [Nat.succ_add]
    simp only [draws, ih, List.cons_append]

theorem contains_of_mem_draws {t : Torus} {n : Nat} {g : ρ} {l : Location}
    (hl : l ∈ (t.draws n g).1) : t.Contains l := by
  induction n generalizing g with
  | zero => cases hl
  | succ n ih =>
    obtain rfl | hl := List.mem_cons.1 hl
    · exact t.contains_randomLocation g
    · exact ih hl

end Torus

/-- If there is a free tile, the first one is found. -/
theorem Tiles.exists_firstFree? {g : Tiles} {l : Location} (hl : g.torus.Contains l)
    (hf : g.isFree l = true) :
    ∃ m, g.firstFree? = some m ∧ g.torus.Contains m ∧ g.isFree m = true := by
  unfold firstFree?
  cases h : (List.range g.torus.size).find? fun i ↦ g.isFree (g.torus.ofIndex i) with
  | none =>
    have htaken := List.find?_eq_none.1 h _ (List.mem_range.2 (Torus.index_lt hl))
    rw [Torus.ofIndex_index hl] at htaken
    exact absurd hf htaken
  | some i =>
    have hi := List.mem_range.1 (List.mem_of_find?_eq_some h)
    exact ⟨_, rfl, Torus.contains_ofIndex hi, by simpa using List.find?_some h⟩

namespace Board

variable {b b' : Board ρ}

/-- If there are more tiles than units, some tile is free. -/
theorem Coherent.exists_free (h : b.Coherent) (hlt : b.units.length < b.torus.size) :
    ∃ l, b.torus.Contains l ∧ b.tiles.isFree l = true := by
  by_contra hnone
  have htaken : List.range b.torus.size ⊆ b.units.map fun u ↦ b.torus.index u.location := by
    intro i hi
    have hcontains := Torus.contains_ofIndex (List.mem_range.1 hi)
    cases hat : b.tiles.at? (b.torus.ofIndex i) with
    | none => exact absurd ⟨_, hcontains, Tiles.isFree_iff.2 hat⟩ hnone
    | some id =>
      obtain ⟨u, hu, -, hl⟩ := (h.at?_iff _ hcontains id).1 hat
      exact List.mem_map.2 ⟨u, hu, by rw [hl, Torus.index_ofIndex]⟩
  have hle := (List.subperm_of_subset List.nodup_range htaken).length_le
  rw [List.length_range, List.length_map] at hle
  omega

/-! ## Rounds -/

/-- One round of placing first units, when a location has been drawn for the first of the
players who wait: if it is free the player gets a unit there, and else the player goes on
waiting. -/
def placeAt : List PlayerId × Board ρ → Location → Except SpawnError (List PlayerId × Board ρ)
  | ([], b), _ => .ok ([], b)
  | (p :: ps, b), l =>
    if b.tiles.isFree l then
      match b.spawn p l with
      | (.error e, _) => .error e
      | (.ok _, b) => .ok (ps, b)
    else .ok (p :: ps, b)

/-- The rounds of these locations, until one of them fails. -/
def placeAll (b : Board ρ) (ps : List PlayerId) (ls : List Location) :
    Except SpawnError (List PlayerId × Board ρ) :=
  ls.foldlM placeAt (ps, b)

@[simp] theorem placeAll_nil (b : Board ρ) (ps : List PlayerId) :
    b.placeAll ps [] = .ok (ps, b) := rfl

theorem placeAll_append (b : Board ρ) (ps : List PlayerId) (ls ms : List Location) :
    b.placeAll ps (ls ++ ms) = b.placeAll ps ls >>= fun st ↦ st.2.placeAll st.1 ms :=
  List.foldlM_append

theorem placeAt_of_taken {l : Location} (h : b.tiles.isFree l = false) (ps : List PlayerId) :
    placeAt (ps, b) l = .ok (ps, b) := by
  cases ps with
  | nil => rfl
  | cons p ps => simp [placeAt, h]

theorem placeAt_of_free {l : Location} (h : b.tiles.isFree l = true) {p : PlayerId}
    {r : Option Serial} (e : (b.spawn p l).1 = .ok r) (ps : List PlayerId) :
    placeAt (p :: ps, b) l = .ok (ps, (b.spawn p l).2) := by
  have e' : b.spawn p l = (.ok r, (b.spawn p l).2) := Prod.ext e rfl
  rw [placeAt, if_pos h, e']

/-- Locations that are taken are drawn in vain. -/
theorem placeAll_of_taken {ls : List Location} (h : ∀ l ∈ ls, b.tiles.isFree l = false)
    (ps : List PlayerId) : b.placeAll ps ls = .ok (ps, b) := by
  induction ls with
  | nil => rfl
  | cons l ls ih =>
    obtain ⟨hl, hls⟩ := List.forall_mem_cons.1 h
    rw [placeAll, List.foldlM_cons, placeAt_of_taken hl]
    exact ih hls

/-! ## The line -/

/-- The first of the players have one unit each, and the units are in line. -/
structure LinedUp (served pending : List PlayerId) (b : Board ρ) : Prop where
  coherent : b.Coherent
  owners : b.units.map (·.owner) = served
  serials : b.units.map (·.serial) = List.range' 1 served.length
  waiting : b.queue.waiting = b.units.map (·.serial)
  spawned : b.spawned = served.length
  /-- The first players list their units, and the others have none. -/
  players : b.players = (b.units.map fun u ↦ ⟨u.owner, [u.serial]⟩) ++ pending.map .new

namespace LinedUp

variable {served pending : List PlayerId}

theorem length_units (h : b.LinedUp served pending) : b.units.length = served.length := by
  rw [← List.length_map (f := Fighter.owner), h.owners]

theorem map_id_players (h : b.LinedUp served pending) :
    b.players.map (·.id) = served ++ pending := by
  rw [h.players, ← h.owners]
  simp [Player.new, Function.comp_def]

theorem withRng (h : b.LinedUp served pending) (g : ρ) :
    { b with rng := g }.LinedUp served pending :=
  ⟨h.coherent.withRng g, h.owners, h.serials, h.waiting, h.spawned, h.players⟩

/-- As long as anybody waits, there is a free tile. -/
theorem exists_free (h : b.LinedUp served pending)
    (hfit : served.length + pending.length ≤ b.torus.size) (hpending : pending ≠ []) :
    ∃ l, b.torus.Contains l ∧ b.tiles.isFree l = true := by
  have hpos := List.length_pos_iff.2 hpending
  have hlength := h.length_units
  exact h.coherent.exists_free (by omega)

/-- On a free tile the first player who waits gets a unit. -/
theorem spawn {p : PlayerId} (h : b.LinedUp served (p :: pending)) (hlimit : 1 ≤ b.unitLimit)
    {l : Location} (hl : b.torus.Contains l) (hf : b.tiles.isFree l = true) :
    (b.spawn p l).1 = .ok (some (b.spawned + 1)) ∧
      (b.spawn p l).2.LinedUp (served ++ [p]) pending := by
  have hids := h.coherent.players_nodup
  rw [h.map_id_players, List.nodup_append, List.nodup_cons] at hids
  obtain ⟨-, ⟨hlater, -⟩, hbefore⟩ := hids
  have hp : b.player? p = some (.new p) := by
    refine h.coherent.player?_eq_some_iff.2 ⟨?_, rfl⟩
    rw [h.players]
    exact List.mem_append_right _ List.mem_cons_self
  obtain ⟨hok, hjoins⟩ := h.coherent.spawn_of_room hp hlimit hl hf
  refine ⟨hok, ?_⟩
  constructor
  case coherent => exact h.coherent.spawn p hl
  case owners => rw [hjoins.units, List.map_append, h.owners]; rfl
  case serials =>
    rw [hjoins.units, List.map_append, h.serials, List.length_append, List.length_singleton,
      List.range'_concat, Nat.one_mul, Nat.add_comm 1, ← h.spawned]
    rfl
  case waiting => rw [hjoins.queue, hjoins.units, List.map_append, h.waiting]; rfl
  case spawned => rw [hjoins.spawned, List.length_append, ← h.spawned]; rfl
  case players =>
    -- Only the first player who waits has the number of the unit's owner.
    have hserved : ∀ u ∈ b.units, u.owner ≠ p := fun u hu ho ↦
      hbefore u.owner (h.owners ▸ List.mem_map_of_mem hu) p List.mem_cons_self ho
    have hpending : ∀ q ∈ pending, q ≠ p := fun q hq e ↦ hlater (e ▸ hq)
    rw [hjoins.players, hjoins.units, h.players]
    simp only [List.map_append, List.map_map, List.map_cons, List.map_nil, List.append_assoc,
      List.singleton_append]
    congr 1
    · exact List.map_congr_left fun u hu ↦ if_neg (hserved u hu)
    · congr 1
      · exact if_pos rfl
      · exact List.map_congr_left fun q hq ↦ if_neg (hpending q hq)

/-- Whatever location is drawn, the round does not fail, and the line is in order after it. -/
theorem placeAt (h : b.LinedUp served pending) (hlimit : 1 ≤ b.unitLimit) {l : Location}
    (hl : b.torus.Contains l) :
    ∃ served' pending' b', Board.placeAt (pending, b) l = .ok (pending', b') ∧
      served' ++ pending' = served ++ pending ∧ b'.LinedUp served' pending' ∧
      b'.rules = b.rules := by
  cases hf : b.tiles.isFree l with
  | false => exact ⟨served, pending, b, placeAt_of_taken hf pending, rfl, h, rfl⟩
  | true =>
    cases pending with
    | nil => exact ⟨served, [], b, rfl, rfl, h, rfl⟩
    | cons p ps =>
      obtain ⟨hok, hnext⟩ := h.spawn hlimit hl hf
      exact ⟨served ++ [p], ps, _, placeAt_of_free hf hok ps, List.append_assoc .., hnext,
        b.rules_spawn p l⟩

/-- Whatever locations are drawn, nothing fails, and the line is in order in the end. -/
theorem placeAll (h : b.LinedUp served pending) (hlimit : 1 ≤ b.unitLimit) {ls : List Location}
    (hls : ∀ l ∈ ls, b.torus.Contains l) :
    ∃ served' pending' b', b.placeAll pending ls = .ok (pending', b') ∧
      served' ++ pending' = served ++ pending ∧ b'.LinedUp served' pending' ∧
      b'.rules = b.rules := by
  induction ls generalizing b served pending with
  | nil => exact ⟨served, pending, b, rfl, rfl, h, rfl⟩
  | cons l ls ih =>
    obtain ⟨hl, hls⟩ := List.forall_mem_cons.1 hls
    obtain ⟨served₁, pending₁, b₁, e, hids, hnext, hrules⟩ := h.placeAt hlimit hl
    have htorus : b₁.torus = b.torus := torus_eq_of_rules_eq hrules
    have hlimit₁ : b₁.unitLimit = b.unitLimit := congrArg (·.2.1) hrules
    obtain ⟨served₂, pending₂, b₂, e', hids', hlast, hrules'⟩ :=
      ih hnext (hlimit₁ ▸ hlimit) (htorus ▸ hls)
    refine ⟨served₂, pending₂, b₂, ?_, hids'.trans hids, hlast, hrules'.trans hrules⟩
    rw [Board.placeAll, List.foldlM_cons, e]
    exact e'

end LinedUp

/-- The board of a match on which every player has one unit, on a tile of its own.  Units
are numbered from 1 in the order of the players, and wait in this order. -/
structure Deployed (torus : Torus) (ids : List PlayerId) (b : Board ρ) : Prop where
  coherent : b.Coherent
  torus_eq : b.torus = torus
  owners : b.units.map (·.owner) = ids
  serials : b.units.map (·.serial) = List.range' 1 ids.length
  contains : ∀ u ∈ b.units, torus.Contains u.location
  locations : (b.units.map (·.location)).Nodup
  waiting : b.queue.waiting = b.units.map (·.serial)
  players : b.players = b.units.map fun u ↦ ⟨u.owner, [u.serial]⟩

/-- When nobody waits any more, every player has a unit. -/
theorem LinedUp.deployed {torus : Torus} {ids : List PlayerId} (h : b.LinedUp ids [])
    (htorus : b.torus = torus) : b.Deployed torus ids where
  coherent := h.coherent
  torus_eq := htorus
  owners := h.owners
  serials := h.serials
  contains := htorus ▸ h.coherent.contains
  locations := h.coherent.serials_nodup.of_map.map_on fun _ hu _ hv e ↦
    h.coherent.eq_of_location_eq hu hv e
  waiting := h.waiting
  players := h.players.trans (List.append_nil _)

/-- The board on which different players have been let in, and nothing else has happened. -/
theorem foldl_addPlayer_empty {torus : Torus} {unitLimit : Nat} {unitHp : Int64} {rng : ρ}
    {ids : List PlayerId} (hids : ids.Nodup) :
    ids.foldl addPlayer (.empty torus unitLimit unitHp rng) =
      { Board.empty torus unitLimit unitHp rng with players := ids.map .new } :=
  foldl_addPlayer (b := .empty torus unitLimit unitHp rng) ids hids

/-- On a new board everybody waits. -/
theorem linedUp_start {torus : Torus} {unitLimit : Nat} {unitHp : Int64} {rng : ρ}
    {ids : List PlayerId} (hids : ids.Nodup) :
    (ids.foldl addPlayer (.empty torus unitLimit unitHp rng)).LinedUp [] ids := by
  have hcoherent := (coherent_empty torus unitLimit unitHp rng).foldl_addPlayer ids
  rw [foldl_addPlayer_empty hids] at hcoherent ⊢
  exact ⟨hcoherent, rfl, rfl, rfl, rfl, rfl⟩

/-! ## The draws of the generator -/

/-- Where the generator stands has no say in spawning at a location. -/
theorem spawn_withRng (b : Board ρ) (g : ρ) (p : PlayerId) (l : Location) :
    { b with rng := g }.spawn p l = ((b.spawn p l).1, { (b.spawn p l).2 with rng := g }) := by
  cases hp : b.player? p with
  | none =>
    have hp' : { b with rng := g }.player? p = none := hp
    simp only [Board.spawn, hp, hp']
    split <;> rfl
  | some q =>
    have hp' : { b with rng := g }.player? p = some q := hp
    simp only [Board.spawn, hp, hp']
    split
    · split <;> rfl
    · rfl

variable [WordSource ρ]

theorem drawFreeWithin_of_free {g : ρ}
    (h : b.tiles.isFree (b.torus.randomLocation g).1 = true) (n : Nat) :
    { b with rng := g }.drawFreeWithin n =
      ((b.torus.randomLocation g).1, { b with rng := (b.torus.randomLocation g).2 }) := by
  cases n with
  | zero => exact congrArg (·, _) (if_pos h)
  | succ n => exact if_pos h

theorem drawFreeWithin_of_taken {g : ρ}
    (h : b.tiles.isFree (b.torus.randomLocation g).1 = false) (n : Nat) :
    { b with rng := g }.drawFreeWithin (n + 1) =
      { b with rng := (b.torus.randomLocation g).2 }.drawFreeWithin n :=
  if_neg (Bool.eq_false_iff.1 h)

/-- The location that is drawn for a player is the first free one that the generator
brings up; if all that it is asked for are taken, the first free tile stands in. -/
theorem drawFreeWithin_cases (b : Board ρ) (n : Nat) (g : ρ) :
    (∃ k missed l, (b.torus.draws k g).1 = missed ++ [l] ∧
      (∀ m ∈ missed, b.tiles.isFree m = false) ∧ b.tiles.isFree l = true ∧
      { b with rng := g }.drawFreeWithin n = (l, { b with rng := (b.torus.draws k g).2 })) ∨
    (∀ m ∈ (b.torus.draws (n + 1) g).1, b.tiles.isFree m = false) ∧ ∃ l g',
      { b with rng := g }.drawFreeWithin n =
        (b.tiles.firstFree?.getD l, { b with rng := g' }) := by
  induction n generalizing g with
  | zero =>
    cases hf : b.tiles.isFree (b.torus.randomLocation g).1 with
    | true => exact .inl ⟨1, [], _, rfl, nofun, hf, drawFreeWithin_of_free hf 0⟩
    | false =>
      exact .inr ⟨List.forall_mem_singleton.2 hf, (b.torus.randomLocation g).1,
        (b.torus.randomLocation g).2, congrArg (·, _) (if_neg (Bool.eq_false_iff.1 hf))⟩
  | succ n ih =>
    cases hf : b.tiles.isFree (b.torus.randomLocation g).1 with
    | true => exact .inl ⟨1, [], _, rfl, nofun, hf, drawFreeWithin_of_free hf (n + 1)⟩
    | false =>
      rw [drawFreeWithin_of_taken hf]
      obtain ⟨k, missed, l, hdraws, hmissed, hl, e⟩ | ⟨htaken, l, g', e⟩ :=
        ih (b.torus.randomLocation g).2
      · exact .inl ⟨k + 1, (b.torus.randomLocation g).1 :: missed, l,
          congrArg (_ :: ·) hdraws, List.forall_mem_cons.2 ⟨hf, hmissed⟩, hl, e⟩
      · exact .inr ⟨List.forall_mem_cons.2 ⟨hf, htaken⟩, l, g', e⟩

/-- With the locations that the generator brings up, some round finds every tile taken
that it is asked for. -/
def RunsDry (b : Board ρ) (ps : List PlayerId) (g : ρ) : Prop :=
  ∃ k pending b', b.placeAll ps (b.torus.draws k g).1 = .ok (pending, b') ∧ pending ≠ [] ∧
    ∀ l ∈ (b.torus.draws (64 * b.torus.size + 1) (b.torus.draws k g).2).1, b'.tiles.isFree l = false

/-- The rounds of some locations come before those of the ones that are drawn next. -/
theorem placeAll_draws_add {ps pending : List PlayerId} {k : Nat} {g : ρ}
    (h : b.placeAll ps (b.torus.draws k g).1 = .ok (pending, b')) (n : Nat) :
    b.placeAll ps (b.torus.draws (k + n) g).1 =
      b'.placeAll pending (b.torus.draws n (b.torus.draws k g).2).1 := by
  rw [Torus.draws_add, placeAll_append, h]
  rfl

theorem RunsDry.of_placeAll {ps pending : List PlayerId} {k : Nat} {g : ρ}
    (htorus : b'.torus = b.torus) (h : b.placeAll ps (b.torus.draws k g).1 = .ok (pending, b'))
    (hdry : b'.RunsDry pending (b.torus.draws k g).2) : b.RunsDry ps g := by
  obtain ⟨n, pending', b'', e, hpending, htaken⟩ := hdry
  rw [htorus] at e htaken
  refine ⟨k + n, pending', b'', (placeAll_draws_add h n).trans e, hpending, ?_⟩
  rwa [b.torus.draws_add k n]

theorem spawnEach_cons {p : PlayerId} {l : Location} {g g' : ρ} {r : Option Serial}
    (hdraw : { b with rng := g }.drawFree = (l, { b with rng := g' }))
    (hok : (b.spawn p l).1 = .ok r) (ps : List PlayerId) :
    { b with rng := g }.spawnEach (p :: ps) =
      { (b.spawn p l).2 with rng := g' }.spawnEach ps := by
  rw [spawnEach, hdraw]
  dsimp only
  rw [spawn_withRng, hok]

namespace LinedUp

variable {served pending : List PlayerId}

/-- For the first player who waits a free tile is found.  Unless the round runs dry, the
locations that are drawn until then serve this player and nobody else. -/
theorem drawFree_cases {p : PlayerId} (h : b.LinedUp served (p :: pending))
    (hlimit : 1 ≤ b.unitLimit) (hfit : served.length + (p :: pending).length ≤ b.torus.size)
    (g : ρ) :
    ∃ l g', b.torus.Contains l ∧ b.tiles.isFree l = true ∧
      { b with rng := g }.drawFree = (l, { b with rng := g' }) ∧
      ((∃ k, b.placeAll (p :: pending) (b.torus.draws k g).1 = .ok (pending, (b.spawn p l).2) ∧
        g' = (b.torus.draws k g).2) ∨ b.RunsDry (p :: pending) g) := by
  obtain ⟨k, missed, l, hdraws, hmissed, hf, e⟩ | ⟨htaken, l, g', e⟩ :=
    b.drawFreeWithin_cases (64 * b.torus.size) g
  · have hl : b.torus.Contains l :=
      Torus.contains_of_mem_draws (hdraws ▸ List.mem_append_right _ List.mem_cons_self)
    refine ⟨l, _, hl, hf, e, .inl ⟨k, ?_, rfl⟩⟩
    rw [hdraws, placeAll_append, placeAll_of_taken hmissed]
    exact congrArg (· >>= pure) (placeAt_of_free hf (h.spawn hlimit hl hf).1 pending)
  · obtain ⟨l', hl', hf'⟩ := h.exists_free hfit (List.cons_ne_nil p pending)
    obtain ⟨m, hm, hcontains, hf⟩ := Tiles.exists_firstFree? hl' hf'
    rw [hm, Option.getD_some] at e
    exact ⟨m, g', hcontains, hf, e, .inr ⟨0, _, b, rfl, List.cons_ne_nil p pending, htaken⟩⟩

/-- With one draw after the other, every player who waits gets a unit, and nothing goes
wrong.  Unless some round runs dry, the board is the one that the rounds lead to. -/
theorem spawnEach_cases (h : b.LinedUp served pending) (hlimit : 1 ≤ b.unitLimit)
    (hfit : served.length + pending.length ≤ b.torus.size) (g : ρ) :
    ∃ b' g', { b with rng := g }.spawnEach pending = (.ok (), { b' with rng := g' }) ∧
      b'.LinedUp (served ++ pending) [] ∧ b'.rules = b.rules ∧
      ((∃ k, b.placeAll pending (b.torus.draws k g).1 = .ok ([], b') ∧
        g' = (b.torus.draws k g).2) ∨ b.RunsDry pending g) := by
  induction pending generalizing b served g with
  | nil => exact ⟨b, g, rfl, (List.append_nil served).symm ▸ h, rfl, .inl ⟨0, rfl, rfl⟩⟩
  | cons p ps ih =>
    obtain ⟨l, g₁, hl, hf, hdraw, hround⟩ := h.drawFree_cases hlimit hfit g
    obtain ⟨hok, hnext⟩ := h.spawn hlimit hl hf
    have hrules : (b.spawn p l).2.rules = b.rules := b.rules_spawn p l
    have htorus : (b.spawn p l).2.torus = b.torus := torus_eq_of_rules_eq hrules
    have hlimit' : (b.spawn p l).2.unitLimit = b.unitLimit := congrArg (·.2.1) hrules
    obtain ⟨b', g', e, hlast, hrules', hrounds⟩ := ih hnext (hlimit' ▸ hlimit)
      (by rw [htorus, List.length_append, List.length_singleton]
          rw [List.length_cons] at hfit
          omega) g₁
    refine ⟨b', g', ?_, ?_, hrules'.trans hrules, ?_⟩
    · rw [spawnEach_cons hdraw hok ps, e]
    · rwa [List.append_assoc] at hlast
    · obtain ⟨k, hk, rfl⟩ | hdry := hround
      · rw [htorus] at hrounds
        obtain ⟨n, hn, rfl⟩ | hdry := hrounds
        · refine .inl ⟨k + n, (placeAll_draws_add hk n).trans hn, ?_⟩
          rw [b.torus.draws_add k n]
        · exact .inr (hdry.of_placeAll htorus hk)
      · exact .inr hdry

end LinedUp

/-- Let different players be let in on an empty board with a tile for each of them, where
a player can have a unit.

* Whatever locations on the board are drawn, one after the other, the rounds never fail.
  As long as a player waits there is a free tile, and when nobody waits any more, the
  players are deployed.
* With a generator that draws the locations, the players are deployed in the end, and
  nothing goes wrong.  The board is the one that the rounds of the locations lead to that
  the generator brings up, unless some round runs dry. -/
theorem first_units_placed {torus : Torus} {unitLimit : Nat} {unitHp : Int64} {rng : ρ}
    {ids : List PlayerId} (hlimit : 1 ≤ unitLimit) (hids : ids.Nodup)
    (hfit : ids.length ≤ torus.size) :
    let start : Board ρ := ids.foldl addPlayer (.empty torus unitLimit unitHp rng)
    (∀ ls, (∀ l ∈ ls, torus.Contains l) →
      ∃ pending b, start.placeAll ids ls = .ok (pending, b) ∧
        (pending ≠ [] → ∃ l, torus.Contains l ∧ b.tiles.isFree l = true) ∧
        (pending = [] → b.Deployed torus ids)) ∧
    ∃ b, start.spawnInitial = (.ok (), b) ∧ b.Deployed torus ids ∧
      ((∃ k b₀, start.placeAll ids (torus.draws k rng).1 = .ok ([], b₀) ∧
        b = { b₀ with rng := (torus.draws k rng).2 }) ∨ start.RunsDry ids rng) := by
  intro start
  have hline : start.LinedUp [] ids := linedUp_start hids
  have hstart : start = { Board.empty torus unitLimit unitHp rng with
      players := ids.map .new } := foldl_addPlayer_empty hids
  have htorus : start.torus = torus := by rw [hstart]; rfl
  have hrng : start.rng = rng := by rw [hstart]; rfl
  have hlimit' : 1 ≤ start.unitLimit := by rw [hstart]; exact hlimit
  constructor
  · intro ls hls
    obtain ⟨served, pending, b, e, hall, hlast, hrules⟩ := hline.placeAll hlimit' (htorus ▸ hls)
    have hb : b.torus = torus := (torus_eq_of_rules_eq hrules).trans htorus
    refine ⟨pending, b, e, fun hpending ↦ ?_, ?_⟩
    · have hlength : served.length + pending.length = ids.length := by
        rw [← List.length_append, hall, List.nil_append]
      exact hb ▸ hlast.exists_free (hb ▸ hlength ▸ hfit) hpending
    · rintro rfl
      obtain rfl : served = ids := by simpa using hall
      exact hlast.deployed hb
  · obtain ⟨b, g, e, hlast, hrules, hrounds⟩ := hline.spawnEach_cases hlimit'
      (by rw [htorus, List.length_nil, Nat.zero_add]; exact hfit) rng
    have hb : b.torus = torus := (torus_eq_of_rules_eq hrules).trans htorus
    rw [htorus] at hrounds
    refine ⟨{ b with rng := g }, ?_, (hlast.withRng g).deployed hb, ?_⟩
    · have hplayers : start.players.map (·.id) = ids := hline.map_id_players
      rw [spawnInitial, hplayers, ← e, ← hrng]
    · obtain ⟨k, hk, rfl⟩ | hdry := hrounds
      · exact .inl ⟨k, b, hk, rfl⟩
      · exact .inr hdry

/-- Two players fill a board of two tiles, also if one tile is drawn twice. -/
theorem first_units_placed_crowded :
    let torus : Torus := ⟨1, 2, by decide, by decide⟩
    let ids : List PlayerId := [.ofIndex 0, .ofIndex 1]
    let start : Board Xoshiro := ids.foldl addPlayer (.empty torus 1 3 (.ofSeed 0))
    ids.length = torus.size ∧
    (∃ b, start.placeAll ids [⟨0, 1⟩, ⟨0, 1⟩, ⟨0, 0⟩] = .ok ([], b) ∧ b.Deployed torus ids) ∧
    ∃ b, start.spawnInitial = (.ok (), b) ∧ b.Deployed torus ids := by
  intro torus ids start
  obtain ⟨hrounds, b, hb, hdeployed, -⟩ :=
    @first_units_placed Xoshiro _ torus 1 3 (.ofSeed 0) ids (by decide) (by decide) (by decide)
  refine ⟨rfl, ?_, b, hb, hdeployed⟩
  obtain ⟨pending, b, e, -, hdone⟩ := hrounds [⟨0, 1⟩, ⟨0, 1⟩, ⟨0, 0⟩] (by decide)
  have hserved : (start.placeAll ids [⟨0, 1⟩, ⟨0, 1⟩, ⟨0, 0⟩]).map (·.1) = .ok [] := by
    decide +kernel
  obtain rfl : pending = [] := by
    rw [e] at hserved
    exact Except.ok.inj hserved
  exact ⟨b, e, hdone rfl⟩

end Board

end Skirmish.Arena
