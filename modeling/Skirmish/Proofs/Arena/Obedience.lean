import Skirmish.Proofs.Arena.Reach
import Skirmish.Proofs.Arena.Reachable
import Skirmish.Proofs.Script.Exchanges

/-!
# What a script can make a unit do

A script may ask for as many actions as it likes, in any order.  The unit obeys
only one of the requests (`obeyed`), because it has acted then, and all the
others leave the scene as it is.

Main statements: this is so on every board that can be reached
(`run_obeys_once`), and therefore the board after a run is the one before it, or
the one that a single order has made of it (`board_run`).
-/

namespace Skirmish.Arena

open Script Skirmish.Random

variable {ρ : Type}

theorem Fighter.tryAct_fst (u : Fighter) : u.tryAct.1 = u.canAct := by
  unfold tryAct
  split
  next h => exact h.symm
  next h => simpa using h

namespace Scene

/-- The unit obeyed: what was asked for is an action, nothing was wrong with it,
and the unit could act. -/
def obeyed (id : Serial) (e : Exchange (Scene ρ)) : Bool :=
  e.command.isAction && (Order.ofCall e.command e.args).isOk &&
    (e.before.board.unit? id).any (·.tryAct.1)

theorem obeyed_eq_true_iff {id : Serial} {e : Exchange (Scene ρ)} :
    obeyed id e = true ↔ ∃ o u, e.command.isAction = true ∧
      Order.ofCall e.command e.args = .ok o ∧ e.before.board.unit? id = some u ∧
        u.canAct = true := by
  simp only [obeyed, Bool.and_eq_true, Option.any_eq_true, Fighter.tryAct_fst]
  constructor
  · rintro ⟨⟨hc, ho⟩, u, hu, hact⟩
    cases h : Order.ofCall e.command e.args with
    | error f =>
      rw [h] at ho
      cases ho
    | ok o => exact ⟨o, u, hc, rfl, hu, hact⟩
  · rintro ⟨o, u, hc, ho, hu, hact⟩
    exact ⟨⟨hc, by rw [ho]; rfl⟩, u, hu, hact⟩

variable [WordSource ρ]

/-- An order without effect leaves the scene as it is. -/
theorem carryOut_false {s : Scene ρ} {u : Fighter} {o : Order} (h : (s.carryOut u o).1 = false) :
    (s.carryOut u o).2 = s := by
  cases o with
  | attack =>
    obtain e | ⟨_, v, g, -, -, -, -, e⟩ := s.board.attack_cases u.serial strikeDamage
    · simp only [carryOut, e]
    · simp only [carryOut, e] at h
      cases h
  | move =>
    obtain e | ⟨_, goal, g, -, -, -, e⟩ := s.board.move_cases u.serial
    · simp only [carryOut, e]
    · simp only [carryOut, e] at h
      cases h
  | charge turns => cases h
  | spawn => cases h
  | wait => cases h
  | defend => cases h
  | fortify => cases h

/-! ## One exchange -/

/-- A unit obeys, which is carrying an order out, or nothing changes. -/
theorem exchange_cases {id : Serial} {e : Exchange (Scene ρ)} (h : e.IsWith (host id)) :
    (obeyed id e = false ∧ e.after = e.before ∧ ∀ o, e.command.isAction = true →
      Order.ofCall e.command e.args = .ok o → e.answer = .ok (.bool false)) ∨
    ∃ o u, obeyed id e = true ∧ e.before.board.unit? id = some u ∧ u.canAct = true ∧
      e.answer = .ok (.bool (e.before.obey id o).1) ∧ e.after = (e.before.obey id o).2 := by
  have hanswer : (e.before.perform id e.command e.args).1 = e.answer := congrArg Prod.fst h
  have hafter : (e.before.perform id e.command e.args).2 = e.after := congrArg Prod.snd h
  obtain ⟨hno, hsame⟩ | ⟨o, hc, ho, hp⟩ := e.before.perform_cases id e.command e.args
  · refine .inl ⟨?_, hafter.symm.trans hsame, fun o hc ho ↦ absurd ho (hno o hc)⟩
    rw [← Bool.not_eq_true, obeyed_eq_true_iff]
    rintro ⟨o, u, hc, ho, -, -⟩
    exact hno o hc ho
  · rw [hp] at hanswer hafter
    obtain ⟨hbusy, hobey⟩ | ⟨u, hu, hact, -⟩ := e.before.obey_cases id o
    · rw [hobey] at hanswer hafter
      refine .inl ⟨?_, hafter.symm, fun _ _ _ ↦ hanswer.symm⟩
      rw [← Bool.not_eq_true, obeyed_eq_true_iff]
      rintro ⟨-, u, -, -, hu, hact⟩
      rw [hbusy u hu] at hact
      cases hact
    · exact .inr ⟨o, u, obeyed_eq_true_iff.2 ⟨o, u, hc, ho, hu, hact⟩, hu, hact, hanswer.symm,
        hafter.symm⟩

/-! ## One run -/

/-- What passes in a run that starts with a board: the unit has not obeyed and the
board is the same, or it has obeyed once, on this board, and cannot act any more. -/
def ObeysOnce (id : Serial) (start : Board ρ) (w : Scene ρ × List (Exchange (Scene ρ))) : Prop :=
  (w.2.filter (obeyed id) = [] ∧ w.1.board = start) ∨
    ∃ e u, w.2.filter (obeyed id) = [e] ∧ e.before.board = start ∧ w.1.board = e.after.board ∧
      w.1.board.unit? id = some u ∧ u.canAct = false

/-- One more request leaves it so. -/
theorem ObeysOnce.perform {id : Serial} {start : Board ρ} (h : start.Coherent)
    {w : Scene ρ × List (Exchange (Scene ρ))} (hw : ObeysOnce id start w) (c : Command)
    (args : List Value) : ObeysOnce id start ((host id).tracing.perform c args w).2 := by
  let e : Exchange (Scene ρ) :=
    ⟨⟨c, args, (w.1.perform id c args).1⟩, w.1, (w.1.perform id c args).2⟩
  have he : e.IsWith (host id) := rfl
  change ObeysOnce id start (e.after, w.2 ++ [e])
  unfold ObeysOnce
  rw [List.filter_append]
  obtain ⟨hno, hsame, -⟩ | ⟨o, u, hyes, hu, hact, -, hafter⟩ := exchange_cases he
  · rw [List.filter_cons_of_neg (by simp [hno]), List.filter_nil, List.append_nil, hsame]
    exact hw
  · rw [List.filter_cons_of_pos hyes, List.filter_nil]
    obtain ⟨hnone, hboard⟩ | ⟨-, v, -, -, -, hv, hbusy⟩ := hw
    · refine .inr ⟨e, ?_⟩
      obtain rfl := Board.serial_of_unit? hu
      obtain ⟨u', _, -, -, -, hacted, ht⟩ := touches_obey (s := w.1) (hboard ▸ h) hu o
      refine ⟨u', by rw [hnone, List.nil_append], hboard, rfl, ?_, ?_⟩
      · rw [hafter]
        exact ht.after
      · simp [Fighter.canAct, hacted hact]
    -- A unit that has obeyed before is busy.
    · rw [hv] at hu
      cases hu
      rw [hbusy] at hact
      cases hact

theorem run_obeysOnce {s : Scene ρ} (h : s.board.Coherent) (id : Serial) (symbols : SymbolTable)
    (block : Block) (bindings : Bindings) :
    ObeysOnce id s.board
      (block.run (host id).tracing symbols bindings (s, [])).2.world :=
  Block.run_keeps (ObeysOnce id s.board) (host id).tracing
    (fun c args _ _ _ hw ↦ hw.perform h c args) (fun _ _ hw ↦ hw) symbols block bindings
    (.inl ⟨rfl, rfl⟩)

/-- A script leaves the board as it is, or gives one order to the unit there. -/
theorem board_run {s : Scene ρ} (h : s.board.Coherent) (id : Serial) (symbols : SymbolTable)
    (block : Block) (bindings : Bindings) :
    let after := (block.run (host id) symbols bindings s).2.world
    after.board = s.board ∨
      ∃ (s' : Scene ρ) (o : Order), s'.board = s.board ∧ after.board = (s'.obey id o).2.board := by
  obtain ⟨hrun, hwith⟩ := block.run_tracing (host id) symbols bindings s
  have hafter := congrArg (·.2.world.board) hrun
  obtain ⟨-, hsame⟩ | ⟨e, u, hfilter, hbefore, hboard, -, -⟩ :=
    run_obeysOnce h id symbols block bindings
  · exact .inl (hafter.trans hsame)
  · obtain ⟨he, hobeyed⟩ := List.mem_filter.1 (hfilter ▸ List.mem_singleton.2 rfl)
    obtain ⟨hno, -, -⟩ | ⟨o, -, -, -, -, -, he'⟩ := exchange_cases (hwith e he)
    · cases hobeyed.symm.trans hno
    · exact .inr ⟨e.before, o, hbefore, hafter.trans (hboard.trans (congrArg _ he'))⟩

/-- In a run on behalf of a unit, on a board that can be reached:

* the unit obeys at most one request, and none if it is spawning or charging or
  has acted already when the run begins;
* a request that it does not obey changes nothing, and where it asked for an
  action in a right way, the answer is `false`;
* a request that it obeys and that is answered with `false` uses up its action
  and changes nothing else;
* the board is the same after the run, or it is the one that the unit has made
  of it when it obeyed.

All this is about requests as they are written down, which does not change the
run. -/
theorem run_obeys_once {torus : Torus} {unitLimit : Nat} {unitHp : Int64} {s : Scene ρ}
    (h : s.Reachable torus unitLimit unitHp) {id : Serial} {u : Fighter}
    (hu : s.board.unit? id = some u) (symbols : SymbolTable) (block : Block)
    (bindings : Bindings) :
    let run := block.run (host id).tracing symbols bindings (s, [])
    let after := run.2.world.1
    let exchanges := run.2.world.2
    block.run (host id) symbols bindings s = (run.1, ⟨run.2.bindings, after⟩) ∧
    (∀ e ∈ exchanges, e.IsWith (host id)) ∧
    (exchanges.filter (obeyed id)).length ≤ 1 ∧
    (0 < u.spawnTimer ∨ 0 < u.chargeTimer ∨ u.acted = true → exchanges.filter (obeyed id) = []) ∧
    (∀ e ∈ exchanges, obeyed id e = false → e.after = e.before ∧
      ∀ o, e.command.isAction = true → Order.ofCall e.command e.args = .ok o →
        e.answer = .ok (.bool false)) ∧
    (∀ e ∈ exchanges, obeyed id e = true → e.answer = .ok (.bool false) →
      ∃ v, e.before.board.unit? id = some v ∧
        e.after = { e.before with board := e.before.board.setUnit { v with acted := true } }) ∧
    ((exchanges.filter (obeyed id) = [] ∧ after.board = s.board) ∨
      ∃ e ∈ exchanges, obeyed id e = true ∧ e.before.board = s.board ∧
        after.board = e.after.board) := by
  obtain ⟨hrun, hwith⟩ := block.run_tracing (host id) symbols bindings s
  have honce := run_obeysOnce h.coherent id symbols block bindings
  refine ⟨hrun, hwith, ?_, ?_, ?_, ?_, ?_⟩
  · obtain ⟨hnone, -⟩ | ⟨e, -, hone, -⟩ := honce
    · simp [hnone]
    · simp [hone]
  · intro hbusy
    obtain ⟨hnone, -⟩ | ⟨e, -, hone, hbefore, -⟩ := honce
    · exact hnone
    · have hobeyed := (List.mem_filter.1 (hone ▸ List.mem_singleton.2 rfl)).2
      obtain ⟨o, v, -, -, hv, hact⟩ := obeyed_eq_true_iff.1 hobeyed
      rw [hbefore, hu] at hv
      cases hv
      simp only [Fighter.canAct, Bool.and_eq_true, beq_iff_eq, Bool.not_eq_true'] at hact
      obtain ⟨⟨hspawn, hcharge⟩, hacted⟩ := hact
      rw [hspawn, hcharge, hacted] at hbusy
      simp at hbusy
  · intro e he hno
    obtain ⟨-, hsame, hanswer⟩ | ⟨-, -, hyes, -⟩ := exchange_cases (hwith e he)
    · exact ⟨hsame, hanswer⟩
    · cases hyes.symm.trans hno
  · intro e he hyes hfalse
    obtain ⟨hno, -⟩ | ⟨o, v, -, hv, hact, hanswer, hafter⟩ := exchange_cases (hwith e he)
    · cases hyes.symm.trans hno
    · obtain ⟨hbusy, -⟩ | ⟨w, hw, -, hobey⟩ := e.before.obey_cases id o
      · rw [hbusy v hv] at hact
        cases hact
      · rw [hobey] at hanswer hafter
        have heffect := Value.bool.inj (Except.ok.inj (hanswer.symm.trans hfalse))
        exact ⟨w, hw, hafter.trans (carryOut_false heffect)⟩
  · obtain hnone | ⟨e, -, hone, hbefore, hboard, -⟩ := honce
    · exact .inl hnone
    · obtain ⟨he, hobeyed⟩ := List.mem_filter.1 (hone ▸ List.mem_singleton.2 rfl)
      exact .inr ⟨e, he, hobeyed, hbefore, hboard⟩

/-- Two units of different players side by side, in the turn of the first. -/
def standoff : Scene Xoshiro :=
  [.addPlayer (.ofIndex 0), .addPlayer (.ofIndex 1), .spawn (.ofIndex 0) ⟨0, 0⟩,
    .spawn (.ofIndex 1) ⟨0, 1⟩, .beginTurn].foldl Operation.apply
      ⟨.empty ⟨3, 3, by decide, by decide⟩ 2 1 (.ofSeed 0), .new false false false⟩

theorem reachable_standoff : standoff.Reachable ⟨3, 3, by decide, by decide⟩ 2 1 :=
  .step (.step (.step (.step (.step (.empty _ _) (.addPlayer _) trivial) (.addPlayer _) trivial)
    (.spawn _ _) (by decide)) (.spawn _ _) (by decide)) .beginTurn trivial

/-- A unit that is told to attack, to move and to say its number attacks, and only
answers after that. -/
theorem run_obeys_once_standoff :
    let run := Block.run (host 1).tracing .new
      [.call .attack [], .call .move [], .call .unitId []] .empty (standoff, [])
    run.2.world.2.map (obeyed 1) = [true, false, false] ∧
      (run.2.world.2.filter (obeyed 1)).length ≤ 1 ∧
      ∀ e ∈ run.2.world.2, obeyed 1 e = false → e.after = e.before := by
  have hunit : (standoff.board.unit? 1).isSome = true := by decide +kernel
  obtain ⟨u, hu⟩ := Option.isSome_iff_exists.1 hunit
  obtain ⟨-, -, hlength, -, hsame, -⟩ := run_obeys_once reachable_standoff hu .new
    [.call .attack [], .call .move [], .call .unitId []] .empty
  exact ⟨by decide +kernel, hlength, fun e he hno ↦ (hsame e he hno).1⟩

end Scene

end Skirmish.Arena
