import Skirmish.Proofs.Arena.Rules
import Skirmish.Proofs.Contest.Playing

/-!
# The opening of a match

A match that can be set up begins with a settled board: every player is let in
and has a first unit, as long as players can have units at all
(`underway_of_setUp`).
-/

namespace Skirmish.Arena.Board

open Skirmish.Random

variable {ρ : Type} {b b' : Board ρ}

/-! ## Letting players in -/

theorem addPlayer_of_notMem {id : PlayerId} (h : id ∉ b.players.map (·.id)) :
    b.addPlayer id = { b with players := b.players ++ [.new id] } := by
  have hnone : b.player? id = none := by
    refine List.find?_eq_none.2 fun p hp hid ↦ h ?_
    exact List.mem_map.2 ⟨p, hp, by simpa using hid⟩
  simp [addPlayer, hnone]

/-- Different players are let in, in their order, and nothing else changes. -/
theorem foldl_addPlayer (ids : List PlayerId) (h : (b.players.map (·.id) ++ ids).Nodup) :
    ids.foldl addPlayer b = { b with players := b.players ++ ids.map .new } := by
  induction ids generalizing b with
  | nil => simp
  | cons id ids ih =>
    have hid : id ∉ b.players.map (·.id) := fun hm ↦
      (List.nodup_append.1 h).2.2 id hm id List.mem_cons_self rfl
    rw [List.foldl_cons, addPlayer_of_notMem hid, ih]
    · simp
    · simpa [Player.new] using h

theorem Coherent.foldl_addPlayer (h : b.Coherent) (ids : List PlayerId) :
    (ids.foldl Board.addPlayer b).Coherent := by
  induction ids generalizing b with
  | nil => exact h
  | cons id ids ih => exact ih (h.addPlayer id)

/-! ## First units -/

/-- What spawning keeps, and that it gives the player a unit who has none. -/
structure Extends (b b' : Board ρ) : Prop where
  players : b'.players.map (·.id) = b.players.map (·.id)
  turns : b'.queue.turns = b.queue.turns
  unitLimit : b'.unitLimit = b.unitLimit
  units : ∀ u ∈ b.units, u ∈ b'.units

theorem Extends.refl (b : Board ρ) : b.Extends b := ⟨rfl, rfl, rfl, fun _ hu ↦ hu⟩

theorem Extends.trans {b'' : Board ρ} (h : b.Extends b') (h' : b'.Extends b'') : b.Extends b'' :=
  ⟨h'.players.trans h.players, h'.turns.trans h.turns, h'.unitLimit.trans h.unitLimit,
    fun u hu ↦ h'.units u (h.units u hu)⟩

theorem extends_add (b : Board ρ) (u : Fighter) : b.Extends (b.add u) where
  players := b.map_id_add u
  turns := TurnQueue.turns_enqueue b.queue u.serial
  unitLimit := rfl
  units := fun _ hv ↦ List.mem_append_left _ hv

/-- A player for whom a unit is spawned has one then. -/
theorem Coherent.spawn_ok (h : b.Coherent) (hlimit : 1 ≤ b.unitLimit) {player : PlayerId}
    {l : Location} {r : Option Serial} (e : b.spawn player l = (.ok r, b')) :
    b.Extends b' ∧ ∃ u ∈ b'.units, u.owner = player := by
  obtain ⟨-, e'⟩ | ⟨-, -, e'⟩ | ⟨p, -, hp, ⟨hn, e'⟩ | ⟨-, e'⟩⟩ := b.spawn_cases player l
  · cases e.symm.trans e'
  · cases e.symm.trans e'
  · cases e.symm.trans e'
    refine ⟨.refl b, ?_⟩
    obtain ⟨hmem, rfl⟩ := h.player?_eq_some_iff.1 hp
    obtain ⟨id, hid⟩ := List.exists_mem_of_length_pos (Nat.lt_of_lt_of_le hlimit hn)
    obtain ⟨u, hu, -, ho⟩ := (h.mem_units p hmem id).1 hid
    exact ⟨u, hu, ho⟩
  · cases e.symm.trans e'
    exact ⟨extends_add b _, _, List.mem_append_right _ (List.mem_singleton.2 rfl), rfl⟩

variable [WordSource ρ]

theorem Coherent.spawnEach_ok (h : b.Coherent) (hlimit : 1 ≤ b.unitLimit) {ps : List PlayerId}
    (e : b.spawnEach ps = (.ok (), b')) :
    b.Extends b' ∧ ∀ p ∈ ps, ∃ u ∈ b'.units, u.owner = p := by
  induction ps generalizing b with
  | nil =>
    cases e
    exact ⟨.refl _, fun p hp ↦ nomatch hp⟩
  | cons p ps ih =>
    obtain ⟨l, g, hl, hdraw⟩ := drawFreeWithin_eq (64 * b.torus.size) b
    have hs := (h.withRng g).spawn p hl
    unfold Board.spawnEach drawFree at e
    rw [hdraw] at e
    dsimp only at e
    split at e
    next => cases e
    next r b₁ heq =>
      rw [heq] at hs
      obtain ⟨hext, u, hu, ho⟩ := (h.withRng g).spawn_ok hlimit heq
      obtain ⟨hext', hall⟩ := ih hs (hext.unitLimit ▸ hlimit) e
      have hb : b.Extends b₁ := ⟨hext.players, hext.turns, hext.unitLimit, hext.units⟩
      exact ⟨hb.trans hext', List.forall_mem_cons.2 ⟨⟨u, hext'.units u hu, ho⟩, hall⟩⟩

end Skirmish.Arena.Board

namespace Skirmish.Contest.Match

open Arena Skirmish.Random

variable {ρ : Type} [WordSource ρ]

/-- The players of a match with so many entries, in their order. -/
def entrants (n : Nat) : List PlayerId := (List.range n).map PlayerId.ofIndex

theorem nodup_entrants (n : Nat) : (entrants n).Nodup := by
  refine List.nodup_range.map fun i j h ↦ ?_
  have := congrArg PlayerId.index h
  simpa using this

theorem coherent_openingBoard (settings : Settings) (torus : Torus) (n : Nat) (rng : ρ) :
    (openingBoard settings torus n rng).2.Coherent :=
  ((Board.coherent_empty _ _ _ _).foldl_addPlayer _).spawnEach _

theorem rules_openingBoard (settings : Settings) (torus : Torus) (n : Nat) (rng : ρ) :
    (openingBoard settings torus n rng).2.rules = (torus, settings.unitLimit, settings.unitHp) := by
  have hstart := Board.foldl_addPlayer (b := .empty torus settings.unitLimit settings.unitHp rng)
    (entrants n) (nodup_entrants n)
  refine (Board.rules_spawnEach _ _).trans ?_
  change Board.rules ((entrants n).foldl _ _) = _
  rw [hstart]
  rfl

/-- First units let nobody in. -/
theorem map_id_openingBoard (settings : Settings) (torus : Torus) (n : Nat) (rng : ρ) :
    (openingBoard settings torus n rng).2.players.map (·.id) = entrants n := by
  have hstart := Board.foldl_addPlayer (b := .empty torus settings.unitLimit settings.unitHp rng)
    (entrants n) (nodup_entrants n)
  refine Board.spawnEach_keeps (P := fun b : Board ρ ↦ b.players.map (·.id) = entrants n)
    ?_ ?_ _
  · intro b g player l h _
    obtain ⟨-, e⟩ | ⟨-, -, e⟩ | ⟨p, -, -, ⟨-, e⟩ | ⟨-, e⟩⟩ :=
      { b with rng := g }.spawn_cases player l
    · rw [e]; exact h
    · rw [e]; exact h
    · rw [e]; exact h
    · rw [e]
      exact (Board.map_id_add _ _).trans h
  · change (Board.players ((entrants n).foldl _ _)).map (·.id) = _
    rw [hstart]
    simp [Board.empty, Player.new, Function.comp_def]

theorem openingBoard_settled {settings : Settings} {torus : Torus} {n : Nat} {rng : ρ}
    {b : Board ρ} (hn : n ≠ 0) (hlimit : 1 ≤ settings.unitLimit)
    (h : openingBoard settings torus n rng = (.ok (), b)) :
    b.Settled (entrants n) ∧ b.queue.turns = 0 := by
  let start : Board ρ := (entrants n).foldl Board.addPlayer
    (.empty torus settings.unitLimit settings.unitHp rng)
  have hstart : start.Coherent := (Board.coherent_empty _ _ _ _).foldl_addPlayer _
  have heq : start = { Board.empty torus settings.unitLimit settings.unitHp rng with
      players := (entrants n).map .new } :=
    Board.foldl_addPlayer (entrants n) (nodup_entrants n)
  have hplayers : start.players.map (·.id) = entrants n := by
    rw [heq]
    simp [Player.new, Function.comp_def]
  have hb : b.Coherent := by
    have := coherent_openingBoard settings torus n rng
    rwa [h] at this
  have hids : b.players.map (·.id) = entrants n := by
    have := map_id_openingBoard settings torus n rng
    rwa [h] at this
  change start.spawnEach (start.players.map (·.id)) = (.ok (), b) at h
  obtain ⟨hext, hall⟩ := hstart.spawnEach_ok (by rw [heq]; exact hlimit) h
  rw [hplayers] at hall
  refine ⟨⟨hb, ?_, ?_, ?_⟩, ?_⟩
  · rw [hids]
  · intro p hp
    have hid : p.id ∈ entrants n := hids ▸ List.mem_map_of_mem hp
    obtain ⟨u, hu, ho⟩ := hall p.id hid
    exact List.ne_nil_of_mem ((hb.mem_units p hp u.serial).2 ⟨u, hu, rfl, ho⟩)
  · intro hnil
    rw [hnil, entrants] at hids
    simp [hn] at hids
  · rw [hext.turns, heq]
    rfl

theorem setUp_of_refusal? {settings : Settings} {entries : List Entry} {reason : Refusal}
    (h : settings.refusal? entries.length = some reason) (rng : ρ) :
    setUp settings entries rng = .error (.refused reason) := by
  unfold setUp
  split
  next h' => cases h.symm.trans h'; rfl
  next h' => cases h.symm.trans h'

/-- Settings that are not refused leave it to the scripts and the board whether there
is a match. -/
theorem setUp_of_refusal?_eq_none {settings : Settings} {entries : List Entry}
    (h : settings.refusal? entries.length = none) (rng : ρ) :
    setUp settings entries rng =
      if (Compiled.ofEntries entries .new).hasErrors then
        .error (.scripts (Compiled.ofEntries entries .new).diagnostics)
      else
        match openingBoard settings (settings.torus h) entries.length rng with
        | (.error e, _) => .error (.spawn e)
        | (.ok (), board) => .ok {
            settings := settings
            symbols := (Compiled.ofEntries entries .new).symbols
            scripts := (Compiled.ofEntries entries .new).scripts
            scene := ⟨board, .new settings.messages settings.messages settings.pictures⟩
            warnings := (Compiled.ofEntries entries .new).diagnostics
            faults := 0 } := by
  unfold setUp
  split
  next h' => cases h.symm.trans h'
  next => rfl

/-- A match that can be set up begins with what was compiled for it, all of it without an
error, and with a board on which every player could be given a unit. -/
theorem eq_of_setUp {settings : Settings} {entries : List Entry} {rng : ρ} {m : Match ρ}
    (h : setUp settings entries rng = .ok m) :
    ∃ (hr : settings.refusal? entries.length = none) (board : Board ρ),
      (Compiled.ofEntries entries .new).hasErrors = false ∧
      openingBoard settings (settings.torus hr) entries.length rng = (.ok (), board) ∧
      m = {
        settings := settings
        symbols := (Compiled.ofEntries entries .new).symbols
        scripts := (Compiled.ofEntries entries .new).scripts
        scene := ⟨board, .new settings.messages settings.messages settings.pictures⟩
        warnings := (Compiled.ofEntries entries .new).diagnostics
        faults := 0 } := by
  obtain hr | ⟨reason, hr⟩ := Option.eq_none_or_eq_some (settings.refusal? entries.length)
  · rw [setUp_of_refusal?_eq_none hr] at h
    split at h
    next => cases h
    next hgood =>
      split at h
      next => cases h
      next board hb =>
        cases h
        exact ⟨hr, board, by simpa using hgood, hb, rfl⟩
  · cases (setUp_of_refusal? hr rng).symm.trans h

theorem setUp_eq_ok {settings : Settings} {entries : List Entry} {rng : ρ} {m : Match ρ}
    (h : setUp settings entries rng = .ok m) :
    m.settings = settings ∧ entries.length ≠ 0 ∧
      ∃ hr : settings.refusal? entries.length = none,
        openingBoard settings (settings.torus hr) entries.length rng = (.ok (), m.board) := by
  obtain ⟨hr, board, -, hb, rfl⟩ := eq_of_setUp h
  refine ⟨rfl, ?_, hr, hb⟩
  intro hzero
  rw [hzero] at hr
  cases hr

/-- When a match begins, nothing has been shown of it and no script has failed. -/
theorem fresh_of_setUp {settings : Settings} {entries : List Entry} {rng : ρ} {m : Match ρ}
    (h : setUp settings entries rng = .ok m) :
    m.settings = settings ∧ m.faults = 0 ∧
      m.commentary = .new settings.messages settings.messages settings.pictures := by
  obtain ⟨-, board, -, -, rfl⟩ := eq_of_setUp h
  exact ⟨rfl, rfl, rfl⟩

/-- What is shown, and what is made of faults, has no say in whether a match can be
set up and in how it begins. -/
theorem setUp_map {f : Settings → Settings}
    (hf : ∀ s, ∃ messages pictures strict, f s = { s with messages, pictures, strict })
    (settings : Settings) (entries : List Entry) (rng : ρ) :
    setUp (f settings) entries rng = (setUp settings entries rng).map fun m ↦
      { m with
        settings := f m.settings
        scene := ⟨m.board,
          .new (f m.settings).messages (f m.settings).messages (f m.settings).pictures⟩ } := by
  obtain ⟨messages, pictures, strict, hf⟩ := hf settings
  have hrefusal : (f settings).refusal? entries.length = settings.refusal? entries.length := by
    rw [hf]
    rfl
  cases h : settings.refusal? entries.length with
  | some reason =>
    rw [setUp_of_refusal? h, setUp_of_refusal? (hrefusal.trans h)]
    rfl
  | none =>
    have hopening : openingBoard (f settings) ((f settings).torus (hrefusal.trans h))
        entries.length rng = openingBoard settings (settings.torus h) entries.length rng := by
      simp only [hf]
      rfl
    rw [setUp_of_refusal?_eq_none h, setUp_of_refusal?_eq_none (hrefusal.trans h), hopening]
    split
    · rfl
    · rcases openingBoard settings (settings.torus h) entries.length rng with ⟨_ | _, b⟩ <;> rfl

/-- A match that can be set up is under way. -/
theorem underway_of_setUp {settings : Settings} {entries : List Entry} {rng : ρ} {m : Match ρ}
    (h : setUp settings entries rng = .ok m) (hlimit : 1 ≤ settings.unitLimit) :
    m.Underway (entrants entries.length) := by
  obtain ⟨-, hn, hr, hb⟩ := setUp_eq_ok h
  obtain ⟨hsettled, hturns⟩ := openingBoard_settled hn hlimit hb
  exact ⟨hsettled, Nat.le_trans (Nat.le_of_eq hturns) (Nat.zero_le _)⟩

end Skirmish.Contest.Match
