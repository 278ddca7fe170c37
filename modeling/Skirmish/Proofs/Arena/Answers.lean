import Skirmish.Proofs.Arena.Obedience
import Skirmish.Proofs.Script.Resolution

/-!
# What the board answers

The answers to a unit are numbers and truth values, never names.  As long as the
unit is there, the only fault that is found with a request is that a unit cannot
charge for so many turns (`ChargeFault`).

Main statement: the faults that a script can end with on behalf of a unit
(`run_resolves`).
-/

namespace Skirmish.Arena

open Script Skirmish.Random

variable {ρ : Type}

/-! ## Faults of requests -/

/-- What is said against an order to charge: the argument is no integer, or no timer
can be set to it. -/
inductive ChargeFault : Fault → Prop
  | kind {kind : Value.Kind} (h : kind = .float ∨ kind = .bool) :
    ChargeFault (.typeMismatch .chargeAttack .nonNegativeInteger kind)
  | turns {n : Int64} (h : ¬(0 ≤ n.toInt ∧ n.toInt.toNat ≤ maxTimer)) :
    ChargeFault (.invalidArgument .chargeAttack (.chargeTurns n))

theorem chargeFault_of_chargeTurns {v : Value} (hv : v.isSymbol = false) {f : Fault}
    (h : chargeTurns v = .error f) : ChargeFault f := by
  cases v with
  | symbol s => cases hv
  | int n =>
    dsimp only [chargeTurns] at h
    split at h
    next => cases h
    next hn =>
      cases h
      exact .turns hn
  | float x =>
    cases h
    exact .kind (.inl rfl)
  | bool b =>
    cases h
    exact .kind (.inr rfl)

/-- Nothing can be wrong with an order but the turns of a charge. -/
theorem chargeFault_of_ofCall {c : Command} (hc : c.isAction = true) {args : List Value}
    (hargs : ∀ v ∈ args, v.isSymbol = false) {f : Fault} (h : Order.ofCall c args = .error f) :
    ChargeFault f := by
  cases c
  case chargeAttack =>
    match args, hargs, h with
    | [], _, h => cases h
    | _ :: _ :: _, _, h => cases h
    | [v], hargs, h =>
      refine chargeFault_of_chargeTurns (hargs v (by simp)) ?_
      dsimp only [Order.ofCall] at h
      cases hturns : chargeTurns v with
      | ok n =>
        rw [hturns] at h
        cases h
      | error e =>
        rw [hturns] at h
        cases h
        rfl
  case attack | move | spawn | wait | defend | fortify => cases h
  all_goals cases hc

/-- Every question that a script can ask has an answer, as long as the unit is
there. -/
theorem Board.query_eq_ok {b : Board ρ} {id : Serial} {u : Fighter} (hu : b.unit? id = some u)
    {c : Command} (hc : c.kind = .query) : ∃ n, b.query id c = .ok (.ofCount n) := by
  have hquestion : ∃ q, Question.ofCommand? c = some q := by
    cases c
    case unitId | turnNumber | adjacentAllies | adjacentEnemies | totalAllies | totalEnemies
        | closestAlly | closestEnemy | unitLimit => exact ⟨_, rfl⟩
    all_goals cases hc
  obtain ⟨q, hq⟩ := hquestion
  exact ⟨b.answer u q, by rw [query, hu, hq]⟩

theorem Board.isSymbol_of_query {b : Board ρ} {id : Serial} {c : Command} {v : Value}
    (h : b.query id c = .ok v) : v.isSymbol = false := by
  unfold query at h
  split at h
  · cases h
  · split at h
    · cases h
    · cases h
      rfl

namespace Scene

variable [WordSource ρ]

/-- Answers are never names. -/
theorem host_neverNames (id : Serial) : (host id : Host (Scene ρ)).NeverNames := by
  intro c args s v h
  have h : (s.perform id c args).1 = .ok v := h
  unfold perform at h
  split at h
  · split at h
    · cases h
    · cases h
      rfl
  · exact Board.isSymbol_of_query h

/-- In the turn of a unit, the board finds fault with nothing but its charging. -/
theorem host_resolving (players : List PlayerId) (turns : Nat) (id : Serial) (owner : PlayerId) :
    (host id : Host (Scene ρ)).Resolving (fun s ↦ s.board.Acting players turns id owner)
      ChargeFault where
  perform := by
    intro c args s hc _ hargs hs
    refine ⟨acting_perform hs c args, ?_⟩
    change Resolves _ (s.perform id c args).1
    unfold perform
    split
    next hact =>
      split
      next f hf => exact chargeFault_of_ofCall hact hargs hf
      next => exact rfl
    next hact =>
      have hquery : c.kind = .query := by
        simp only [Command.isAction, Bool.not_eq_true] at hact
        simpa [Command.isForBoard, hact] using hc
      obtain ⟨u, hu, hserial, -⟩ := hs.actor
      obtain ⟨n, hn⟩ := Board.query_eq_ok (hs.coherent.unit?_eq_some_iff.2 ⟨hu, hserial⟩) hquery
      rw [hn]
      exact rfl
  print _ _ h := h

/-! ## Faults of runs -/

/-- For a script that compiles:

* run with a host that never answers with a name, on variables none of which has a
  name for its value, it leaves such variables, and hands no name over to an
  operator, to printing or to the host; noting this changes nothing else;
* the board is such a host;
* run on behalf of a unit, on a board that can be reached, it ends with no fault
  other than these: a name that is written in its text is not defined, a division
  by zero, a result of `add`, `sub`, `mul` or `div` out of range, a definition of
  what is no name, and an order to charge that is refused. -/
theorem run_resolves {symbols symbols' : SymbolTable} {text : String} {block : Block}
    (h : compile symbols text = (.ok block, symbols')) :
    (∀ {σ : Type} (host : Host σ), host.NeverNames → ∀ (table : SymbolTable) (bindings : Bindings),
      bindings.Resolved → ∀ w : σ,
        let run := (evalBlockNoting host table block).run ⟨bindings, (w, [])⟩
        block.run host table bindings w = (run.1, ⟨run.2.bindings, run.2.world.1⟩) ∧
          run.2.bindings.Resolved ∧
          ∀ call ∈ run.2.world.2, ∀ v ∈ call.args, v.isSymbol = false) ∧
    (∀ id, (host id : Host (Scene ρ)).NeverNames) ∧
    ∀ {torus : Torus} {unitLimit : Nat} {unitHp : Int64} {s : Scene ρ},
      s.Reachable torus unitLimit unitHp → ∀ {id : Serial} {u : Fighter},
      s.board.unit? id = some u → ∀ {table : SymbolTable}, symbols'.GrowsTo table →
      ∀ {bindings : Bindings}, bindings.Resolved →
      ∀ f, (block.run (host id) table bindings s).1 = .error f →
        RunFault (IsNameIn text.toList) ChargeFault f := by
  have hcomplete := compile_complete h
  refine ⟨?_, host_neverNames, ?_⟩
  · intro σ host hhost table bindings hbindings w
    have hnames : BlockNamedBy (fun _ ↦ True) block := compile_namedBy h (.refl _) fun _ _ ↦ trivial
    obtain ⟨hrun, hclean, -⟩ :=
      run_noting (fun _ ↦ True) hcomplete hnames hhost.resolving hbindings (w := w) trivial
    exact ⟨hrun, hclean.bindings, hclean.noted⟩
  · intro torus unitLimit unitHp s hs id u hu table hgrows bindings hbindings f hf
    have hacting : s.board.Acting (s.board.players.map (·.id)) s.board.queue.turns id u.owner :=
      ⟨hs.coherent, rfl, rfl, u, Board.mem_of_unit? hu, Board.serial_of_unit? hu, rfl⟩
    obtain ⟨hrun, -, hfault⟩ := run_noting (IsNameIn text.toList) hcomplete
      (compile_namedBy h hgrows fun _ hn ↦ hn) (host_resolving _ _ id u.owner) hbindings hacting
    exact hfault f ((congrArg Prod.fst hrun).symm.trans hf)

/-- A script that prints the number of its unit, and divides it by what it has not
defined. -/
theorem run_resolves_standoff : ∃ block symbols,
    compile .new "define(me, get_unit_id()) prnt(me) div(me, you)" = (.ok block, symbols) ∧
    (block.run (host 1) symbols .empty standoff).1 = .error (.undefinedSymbol "you") ∧
    IsNameIn "define(me, get_unit_id()) prnt(me) div(me, you)".toList "you" ∧
    (block.run (host 1) symbols .empty standoff).2.bindings.Resolved := by
  have hrun : (match compile .new "define(me, get_unit_id()) prnt(me) div(me, you)" with
      | (.ok block, symbols) =>
        match (block.run (host 1) symbols .empty standoff).1 with
        | .error f => some f
        | .ok _ => none
      | (.error _, _) => none) = some (.undefinedSymbol "you") := by
    decide +kernel
  have hunit : (standoff.board.unit? 1).isSome = true := by decide +kernel
  obtain ⟨u, hu⟩ := Option.isSome_iff_exists.1 hunit
  rcases hc : compile .new "define(me, get_unit_id()) prnt(me) div(me, you)" with
    ⟨_ | block, symbols⟩
  · rw [hc] at hrun
    cases hrun
  · rw [hc] at hrun
    dsimp only at hrun
    split at hrun
    next f hf =>
      cases hrun
      obtain ⟨hclean, hnever, hfaults⟩ := @run_resolves Xoshiro _ _ _ _ _ hc
      obtain ⟨hsame, hresolved, -⟩ :=
        hclean (host 1) (hnever 1) symbols .empty Bindings.resolved_empty standoff
      have hfault := hfaults reachable_standoff hu (.refl symbols) Bindings.resolved_empty _ hf
      refine ⟨block, symbols, rfl, hf, ?_, by rw [hsame]; exact hresolved⟩
      cases hfault with
      | undefinedSymbol h => exact h
      | host h => cases h
    next => cases hrun

end Scene

end Skirmish.Arena
