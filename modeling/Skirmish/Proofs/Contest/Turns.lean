import Skirmish.Proofs.Arena.Distance
import Skirmish.Proofs.Arena.Obedience
import Skirmish.Proofs.Contest.Reached

/-!
# What happens in a turn

A turn begins with what falls due for the unit at the front of the queue, goes
on with the script of its owner, and ends when the unit has got its variables
back.  All of this together is one `Board.Touches` (`touches_turn`).

Main statements: what a turn does to the units (`playTurn_spares`) and to the
queue (`playTurn_rotates`), in every match that can be reached.
-/

namespace Skirmish.Contest.Match

open Arena Script Skirmish.Random

variable {ρ : Type} [WordSource ρ] {m : Match ρ} {u : Fighter}

/-- The run of its owner's script in the turn of a unit, when the turn has been
started and announced. -/
def scriptRun (m : Match ρ) (u : Fighter) : Except Fault (Option Value) × RunState (Scene ρ) :=
  (m.scriptOf u.owner).run (Scene.host u.serial) m.symbols u.bindings
    ((m.withBoard m.board.beginTurn.2).ready u).scene

/-! ## The parts of a turn -/

/-- A script hits at most one unit, and leaves its unit with the variables of its
run.  A unit that hits another by its script stays where it is. -/
theorem touches_runScript (h : m.board.Coherent) (hu : m.board.unit? u.serial = some u) :
    ∃ (u' : Fighter) (hits : List Serial), hits.length ≤ 1 ∧
      (hits ≠ [] → u'.location = u.location) ∧
      u'.bindings = ((m.scriptOf u.owner).run (Scene.host u.serial) m.symbols u.bindings
        m.scene).2.bindings ∧
      Board.Touches u u' hits [] m.board (m.runScript u).2.board := by
  let after := ((m.scriptOf u.owner).run (Scene.host u.serial) m.symbols u.bindings m.scene).2
  have hrun : ∃ (v : Fighter) (hits : List Serial), hits.length ≤ 1 ∧
      (hits ≠ [] → v.location = u.location) ∧
      Board.Touches u v hits [] m.board after.world.board := by
    obtain hsame | ⟨s, o, hs, hobey⟩ :=
      Scene.board_run (s := m.scene) h u.serial m.symbols (m.scriptOf u.owner) u.bindings
    · exact ⟨u, [], Nat.zero_le _, nofun, hsame ▸ .refl hu⟩
    · have hs : s.board = m.board := hs
      rw [← hs] at h hu ⊢
      obtain ⟨v, hits, hlen, hstay, -, -, ht⟩ := Scene.touches_obey h hu o
      exact ⟨v, hits, hlen, hstay, hobey ▸ ht⟩
  obtain ⟨v, hits, hlen, hstay, ht⟩ := hrun
  let bound : Fighter := { v with bindings := after.bindings }
  have hv := ht.after
  rw [← ht.serial] at hv
  have hback : Board.Touches v bound [] [] after.world.board
      (after.world.board.updateUnit v.serial fun w ↦ { w with bindings := after.bindings }) :=
    Board.Touches.updateUnit (f := fun w ↦ { w with bindings := after.bindings }) hv rfl
  have hboard : (m.runScript u).2.board =
      after.world.board.updateUnit v.serial fun w ↦ { w with bindings := after.bindings } := by
    rw [ht.serial]
    rfl
  refine ⟨bound, hits, hlen, hstay, rfl, ?_⟩
  rw [hboard]
  simpa using ht.trans hback nofun nofun

/-- When the unit has done its part, nothing more happens to units, and the turn is
ended. -/
theorem board_act (m : Match ρ) (u : Fighter) :
    (m.act u).2.board.units = ((m.ready u).runScript u).2.board.units ∧
      (m.act u).2.board.queue = ((m.ready u).runScript u).2.board.queue.endTurn := by
  obtain ⟨m', hb, -, e | ⟨-, fault, e⟩⟩ := m.act_cases u
  · rw [e, board_sayFarewell, board_picture, hb]
    exact ⟨rfl, rfl⟩
  · rw [e, hb]
    exact ⟨rfl, rfl⟩

/-- A whole turn, up to the moment when it is ended. -/
theorem touches_turn (h : m.board.Coherent) {rest : List Serial}
    (hq : m.board.queue.waiting = u.serial :: rest) (hu : m.board.unit? u.serial = some u) :
    ∃ (u' : Fighter) (due struck born : List Serial) (b : Board ρ),
      due.length ≤ 1 ∧ struck.length ≤ 1 ∧ born.length ≤ 1 ∧
      (struck ≠ [] → u'.location = u.location) ∧ u'.bindings = (m.scriptRun u).2.bindings ∧
      (∀ k, k ∈ born ↔
        m.board.unit? k = none ∧ (m.board.beginTurn.2.unit? k).isSome = true) ∧
      Board.Touches u u' (due ++ struck) born (m.board.started u.serial) b ∧ b.Coherent ∧
      m.playTurn.2.board.units = b.units ∧ m.playTurn.2.board.queue = b.queue.endTurn ∧
      m.playTurn.2.turns = m.turns + 1 := by
  obtain ⟨u₁, due, born, hdue, hborn, hloc, hbindings, hbegin⟩ := h.touches_beginTurn hq hu
  obtain ⟨hok, hacting⟩ := h.acting_beginTurn hq hu
  have hserial := hbegin.serial
  have howner := hbegin.owner
  have hu₁ := hbegin.after
  rw [← hserial] at hu₁ hok
  rw [← hserial, ← howner] at hacting
  let ready := (m.withBoard m.board.beginTurn.2).ready u₁
  obtain ⟨u₂, struck, hstruck, hstay, hlast, hrun⟩ :=
    touches_runScript (m := ready) h.beginTurn hu₁
  have hready : ready = (m.withBoard m.board.beginTurn.2).ready u := by
    simp only [ready, Match.ready, hserial]
  obtain ⟨hunits, hqueue⟩ := board_act (m.withBoard m.board.beginTurn.2) u₁
  obtain ⟨-, hturns, -⟩ := act_settled (m := m.withBoard m.board.beginTurn.2) hacting
  rw [playTurn_eq_act (Prod.ext hok rfl) hu₁]
  refine ⟨u₂, due, struck, born, (ready.runScript u₁).2.board, hdue, hstruck, hborn,
    fun hne ↦ (hstay hne).trans hloc, ?_, fun k ↦ hbegin.mem_born_iff, ?_,
    (acting_runScript (m := ready) hacting).coherent, hunits, hqueue, hturns⟩
  · rw [hlast, howner, hserial, hbindings, hready]
    rfl
  · have hboth := hbegin.trans hrun (fun _ ↦ hloc) nofun
    rwa [List.append_nil] at hboth

/-! ## Units -/

/-- What the turn of a unit, the first in the queue, does to the units:

* the unit is there before and after, and its variables are those that the run of
  its script left, whether or not that ended with a fault;
* at most one unit is hit by what falls due, and at most one by the script, and
  then the unit has not moved; who is hit is an enemy at distance 1, and loses
  nothing but hit points and its defence, if it is left at all;
* at most one unit comes, for the same player and without variables;
* nobody else changes, comes or goes. -/
theorem playTurn_spares (h : m.Reached) {id : Serial} {rest : List Serial}
    (hq : m.board.queue.waiting = id :: rest) :
    let after := m.playTurn.2.board
    ∃ (u u' : Fighter) (due struck born : List Serial),
      m.board.unit? id = some u ∧ after.unit? id = some u' ∧ u'.owner = u.owner ∧
      u'.bindings = (m.scriptRun u).2.bindings ∧
      due.length ≤ 1 ∧ struck.length ≤ 1 ∧ born.length ≤ 1 ∧ id ∉ due ++ struck ∧
      (struck ≠ [] → u'.location = u.location) ∧
      (∀ k ∈ due ++ struck, ∃ v, m.board.unit? k = some v ∧ v.owner ≠ u.owner ∧
        m.board.torus.distance u.location v.location = 1 ∧
        ∀ w, after.unit? k = some w → w = { v with hp := w.hp, defending := w.defending }) ∧
      (∀ k ∈ born, m.board.unit? k = none ∧
        ∃ w, after.unit? k = some w ∧ w.owner = u.owner ∧ w.bindings = .empty) ∧
      ∀ k, k ≠ id → k ∉ due ++ struck → k ∉ born → after.unit? k = m.board.unit? k := by
  have hcoherent := h.coherent
  obtain ⟨hrows, hcols⟩ := h.three_le_sides
  obtain ⟨u, hmem, rfl⟩ := (hcoherent.mem_waiting id).1 (hq ▸ List.mem_cons_self)
  have hu := hcoherent.unit?_eq_some_iff.2 ⟨hmem, rfl⟩
  obtain ⟨u', due, struck, born, b, hdue, hstruck, hborn, hstay, hbindings, -, ht, -, hunits, -, -⟩ :=
    touches_turn hcoherent hq hu
  have hafter : ∀ k, m.playTurn.2.board.unit? k = b.unit? k :=
    fun k ↦ congrArg (List.find? _) hunits
  refine ⟨u, u', due, struck, born, hu, (hafter _).trans ht.after, ht.owner, hbindings, hdue,
    hstruck, hborn, ht.serial_notMem_hits, hstay, ?_, ?_, ?_⟩
  · intro k hk
    obtain ⟨v, hv, ho, hnear, hharm⟩ := ht.struck k hk
    refine ⟨v, hv, ho, ?_, fun w hw ↦ hharm w (hafter k ▸ hw)⟩
    exact Torus.distance_of_mem_neighbours hrows hcols (hcoherent.contains u hmem) hnear
  · intro k hk
    obtain ⟨hnone, w, hw, ho, hempty⟩ := ht.came k hk
    exact ⟨hnone, w, (hafter k).trans hw, ho, hempty⟩
  · intro k hne hhits hk
    exact (hafter k).trans (ht.other k hne hhits hk)

/-- Two scripts on a board on which everybody is beside everybody, the first of
which defines a variable and attacks. -/
def ambush : Except SetupError (Match Xoshiro) :=
  setUp ⟨3, 3, 2, 0.5, 1, false, false, none, false⟩
    [⟨"first", "define(n, 1) attack()"⟩, ⟨"second", "wait()"⟩] (Xoshiro.ofSeed 0)

theorem ambush_eq_ok : ∃ m, ambush = .ok m ∧ m.board.queue.waiting = [1, 2] ∧
    (m.playTurn.2.board.unit? 1).map (·.bindings.size) = some 1 ∧
      (m.playTurn.2.board.unit? 2).isSome = false ∧ m.playTurn.2.board.queue.waiting = [1] := by
  have hrun : ambush.toOption.map (fun m ↦ (m.board.queue.waiting,
      (m.playTurn.2.board.unit? 1).map (·.bindings.size), (m.playTurn.2.board.unit? 2).isSome,
      m.playTurn.2.board.queue.waiting)) = some ([1, 2], some 1, false, [1]) := by decide +kernel
  cases hm : ambush with
  | error e => simp [hm, Except.toOption] at hrun
  | ok m =>
    simp only [hm, Except.toOption, Option.map_some, Option.some.injEq, Prod.mk.injEq] at hrun
    exact ⟨m, rfl, hrun⟩

/-- The first turn of the ambush kills the enemy, and the unit keeps its variable. -/
theorem playTurn_spares_ambush : ∃ m u u', ambush = .ok m ∧ m.board.queue.waiting = [1, 2] ∧
    m.board.unit? 1 = some u ∧ m.playTurn.2.board.unit? 1 = some u' ∧
      u'.bindings = (m.scriptRun u).2.bindings ∧ u'.bindings.size = 1 ∧
      (m.playTurn.2.board.unit? 2).isSome = false := by
  obtain ⟨m, hm, hq, hsize, hgone, -⟩ := ambush_eq_ok
  obtain ⟨u, u', -, -, -, hu, hu', -, hbindings, -⟩ := playTurn_spares (.setUp hm) hq
  rw [hu'] at hsize
  exact ⟨m, u, u', hm, hq, hu, hu', hbindings, Option.some.inj hsize, hgone⟩

/-! ## The queue -/

/-- What the turn of a unit, the first in the queue, does to the queue: those who
are left of the others move up, a unit that has come when the turn began waits
behind them, and the unit itself goes to the back.  The turn is counted. -/
theorem playTurn_rotates (h : m.Reached) {id : Serial} {rest : List Serial}
    (hq : m.board.queue.waiting = id :: rest) :
    let after := m.playTurn.2.board
    m.playTurn.2.turns = m.turns + 1 ∧
      ∃ born : List Serial, born.length ≤ 1 ∧
        (∀ k, k ∈ born ↔
          m.board.unit? k = none ∧ (m.board.beginTurn.2.unit? k).isSome = true) ∧
        after.queue.waiting =
          rest.filter (fun k ↦ (after.unit? k).isSome) ++ born ++ [id] := by
  have hcoherent := h.coherent
  obtain ⟨u, hmem, rfl⟩ := (hcoherent.mem_waiting id).1 (hq ▸ List.mem_cons_self)
  have hu := hcoherent.unit?_eq_some_iff.2 ⟨hmem, rfl⟩
  obtain ⟨u', due, struck, born, b, -, -, hborn, -, -, hcame, ht, hb, hunits, hqueue, hturns⟩ :=
    touches_turn hcoherent hq hu
  have hafter : ∀ k, m.playTurn.2.board.unit? k = b.unit? k :=
    fun k ↦ congrArg (List.find? _) hunits
  have hwaiting : b.queue.waiting =
      u.serial :: (rest.filter (fun k ↦ (b.unit? k).isSome) ++ born) := by
    have hstarted : (m.board.started u.serial).queue.waiting = u.serial :: rest := hq
    have hself : (b.unit? u.serial).isSome = true := by rw [ht.after, Option.isSome_some]
    rw [ht.waiting_eq (hcoherent.withQueue (.refl _)) hb hborn, hstarted,
      List.filter_cons_of_pos (p := fun k ↦ (b.unit? k).isSome) hself, List.cons_append]
  refine ⟨hturns, born, hborn, hcame, ?_⟩
  simp only [hafter]
  rw [hqueue, TurnQueue.waiting_endTurn ht.acting hwaiting]

/-- After the first turn of the ambush only the unit that has had it waits. -/
theorem playTurn_rotates_ambush : ∃ m, ambush = .ok m ∧ m.board.queue.waiting = [1, 2] ∧
    m.playTurn.2.turns = m.turns + 1 ∧ m.playTurn.2.board.queue.waiting = [1] ∧
      ∃ born, m.playTurn.2.board.queue.waiting =
        [2].filter (fun k ↦ (m.playTurn.2.board.unit? k).isSome) ++ born ++ [1] := by
  obtain ⟨m, hm, hq, -, -, hafter⟩ := ambush_eq_ok
  obtain ⟨hturns, born, -, -, hwaiting⟩ := playTurn_rotates (.setUp hm) hq
  exact ⟨m, hm, hq, hturns, hafter, born, hwaiting⟩

end Skirmish.Contest.Match
