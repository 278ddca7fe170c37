import Skirmish.Proofs.Script.Exchanges

/-!
# Short circuits spelled out

`and` and `or` look at their second argument only where the first one leaves the
answer open, and what they answer is a truth value.  A conditional can say the
same: the branch that is decided is a constant, and the other one is the second
argument, negated twice, which makes a truth value of any value.

`spellOutBlock` writes every `and` and `or` of a block in this way, at any depth.
A conditional hands a branch on as it is, without looking up a name that it may
yield; that does no harm here, because both branches are negations.

Main statement: where no argument is missing or empty, nothing that a run does
tells a block from the one that is spelled out (`run_spellOut`).
-/

namespace Skirmish.Script

variable {σ : Type}

/-! ## Spelling out -/

/-- The negation of the value of a block. -/
def negation (b : Block) : Block := [.call .not [b]]

/-- A call, said by a conditional if it is a short circuit of two arguments. -/
def spelledCall : Command → List Block → Term
  | .and, [a, b] => .call .ifElse [a, negation (negation b), negation [.literal (.int 1)]]
  | .or, [a, b] => .call .ifElse [a, negation [.literal (.int 0)], negation (negation b)]
  | c, args => .call c args

mutual

/-- A term with all its short circuits spelled out. -/
def Term.spellOut : Term → Term
  | .literal v => .literal v
  | .symbol s => .symbol s
  | .call c args => spelledCall c (spellOutArguments args)

/-- A block with all its short circuits spelled out. -/
def spellOutBlock : List Term → Block
  | [] => []
  | t :: ts => t.spellOut :: spellOutBlock ts

/-- The arguments of a call with all their short circuits spelled out. -/
def spellOutArguments : List (List Term) → List (List Term)
  | [] => []
  | b :: bs => spellOutBlock b :: spellOutArguments bs

end

theorem length_spellOutArguments (args : List Block) :
    (spellOutArguments args).length = args.length := by
  induction args with
  | nil => rfl
  | cons b bs ih => rw [spellOutArguments, List.length_cons, ih, List.length_cons]

/-! ### Nothing is left to spell out -/

mutual

/-- No call in a term is a short circuit. -/
def Term.Spelled : Term → Prop
  | .literal _ | .symbol _ => True
  | .call c args => c ≠ .and ∧ c ≠ .or ∧ SpelledArguments args

/-- No call in a block is a short circuit. -/
def SpelledBlock : List Term → Prop
  | [] => True
  | t :: ts => t.Spelled ∧ SpelledBlock ts

/-- No call in the arguments of a call is a short circuit. -/
def SpelledArguments : List (List Term) → Prop
  | [] => True
  | b :: bs => SpelledBlock b ∧ SpelledArguments bs

end

theorem SpelledBlock.negation {b : Block} (h : SpelledBlock b) : SpelledBlock (negation b) :=
  ⟨⟨nofun, nofun, h, trivial⟩, trivial⟩

theorem spelledBlock_int (n : Int64) : SpelledBlock [.literal (.int n)] := ⟨trivial, trivial⟩

/-- With the right number of arguments, every short circuit can be spelled out. -/
theorem spelled_spelledCall {c : Command} {args : List Block} (hn : args.length = c.arity)
    (h : SpelledArguments args) : (spelledCall c args).Spelled := by
  unfold spelledCall
  split
  next a b =>
    exact ⟨nofun, nofun, h.1, h.2.1.negation.negation, (spelledBlock_int 1).negation, trivial⟩
  next a b =>
    exact ⟨nofun, nofun, h.1, (spelledBlock_int 0).negation, h.2.1.negation.negation, trivial⟩
  next hand hor =>
    refine ⟨?_, ?_, h⟩
    · rintro rfl
      obtain ⟨a, b, rfl⟩ := List.length_eq_two.1 hn
      exact hand a b rfl rfl
    · rintro rfl
      obtain ⟨a, b, rfl⟩ := List.length_eq_two.1 hn
      exact hor a b rfl rfl

mutual

theorem spelled_spellOut : (t : Term) → t.Complete → t.spellOut.Spelled
  | .literal _, _ => trivial
  | .symbol _, _ => trivial
  | .call _ args, h =>
    spelled_spelledCall ((length_spellOutArguments args).trans h.1)
      (spelled_spellOutArguments args h.2)

theorem spelled_spellOutBlock : (block : Block) → CompleteBlock block →
    SpelledBlock (spellOutBlock block)
  | [], _ => trivial
  | t :: ts, h => ⟨spelled_spellOut t h.1, spelled_spellOutBlock ts h.2⟩

theorem spelled_spellOutArguments : (args : List Block) → CompleteArguments args →
    SpelledArguments (spellOutArguments args)
  | [], _ => trivial
  | b :: bs, h => ⟨spelled_spellOutBlock b h.1.2, spelled_spellOutArguments bs h.2⟩

end

/-! ## Arguments that have values -/

theorem Run.ext {α : Type} {x y : Run σ α} (h : ∀ s, x.run s = y.run s) : x = y :=
  ExceptT.ext (funext h)

/-- An argument that yields a value or ends in a fault. -/
def Deferred.HasValue (arg : Deferred σ) : Prop :=
  Run.Ensures (·.isSome = true) (fun _ _ ↦ True) arg

theorem Host.accounts_true (host : Host σ) : host.Accounts fun _ _ ↦ True :=
  ⟨fun _ _ _ ↦ trivial, fun _ _ _ _ _ _ _ _ ↦ trivial⟩

/-- The command that asks for an argument matters only if there is no value. -/
theorem Deferred.HasValue.raw_eq {arg : Deferred σ} (h : arg.HasValue) (c d : Command) :
    arg.raw c = arg.raw d := by
  refine Run.ext fun s ↦ ?_
  unfold Deferred.raw
  rw [run_bind, run_bind]
  rcases hr : arg.run s with ⟨f | v, s'⟩
  · rfl
  · obtain ⟨v, rfl⟩ := Option.isSome_iff_exists.1 ((h s).1 v s' hr)
    rfl

theorem Deferred.HasValue.value_eq {arg : Deferred σ} (h : arg.HasValue) (symbols : SymbolTable)
    (c d : Command) : arg.value symbols c = arg.value symbols d := by
  rw [Deferred.value, h.raw_eq c d, Deferred.value]

/-! ## Running what is spelled out -/

section

variable (host : Host σ) (symbols : SymbolTable)

/-- A block of one term yields the value of that term. -/
theorem raw_singleton (t : Term) (c : Command) :
    Deferred.raw (evalBlock host symbols [t]) c = evalTerm host symbols t := by
  simp [Deferred.raw, evalBlock, requireValue]

theorem value_int (n : Int64) (c : Command) :
    Deferred.value (evalBlock host symbols [.literal (.int n)]) symbols c = pure (.int n) := by
  rw [Deferred.value, raw_singleton]
  rfl

theorem call_not (arg : Deferred σ) :
    call host symbols .not [arg] = do
      let v ← arg.value symbols .not
      return .bool !v.isTrue := by
  rw [call_plain host symbols (by decide)]
  simp only [List.mapM_cons, List.mapM_nil, pure_bind, bind_assoc]
  rfl

/-- What is yielded by a negation is a truth value. -/
theorem raw_negation (b : Block) (c : Command) :
    Deferred.raw (evalBlock host symbols (negation b)) c = do
      let v ← Deferred.value (evalBlock host symbols b) symbols .not
      return .bool !v.isTrue := by
  rw [negation, raw_singleton]
  exact call_not host symbols _

theorem value_negation (b : Block) (c : Command) :
    Deferred.value (evalBlock host symbols (negation b)) symbols c = do
      let v ← Deferred.value (evalBlock host symbols b) symbols .not
      return .bool !v.isTrue := by
  rw [Deferred.value, raw_negation]
  simp [resolveValue]

/-- Negated twice, a value becomes the truth value that it counts for. -/
theorem raw_negation_negation (b : Block) (c : Command) :
    Deferred.raw (evalBlock host symbols (negation (negation b))) c = do
      let v ← Deferred.value (evalBlock host symbols b) symbols .not
      return .bool v.isTrue := by
  rw [raw_negation, value_negation]
  simp [Value.isTrue]

/-! ### The two short circuits -/

variable {a b : Block}

theorem evalTerm_spelledCall_and (ha : Deferred.HasValue (evalBlock host symbols a))
    (hb : Deferred.HasValue (evalBlock host symbols b)) :
    evalTerm host symbols (spelledCall .and [a, b]) =
      call host symbols .and [evalBlock host symbols a, evalBlock host symbols b] := by
  change call host symbols .ifElse [evalBlock host symbols a,
    evalBlock host symbols (negation (negation b)),
    evalBlock host symbols (negation [.literal (.int 1)])] = _
  unfold call
  dsimp only
  rw [raw_negation_negation, raw_negation, value_int, ha.value_eq symbols .ifElse .and,
    hb.value_eq symbols .not .and]
  rfl

theorem evalTerm_spelledCall_or (ha : Deferred.HasValue (evalBlock host symbols a))
    (hb : Deferred.HasValue (evalBlock host symbols b)) :
    evalTerm host symbols (spelledCall .or [a, b]) =
      call host symbols .or [evalBlock host symbols a, evalBlock host symbols b] := by
  change call host symbols .ifElse [evalBlock host symbols a,
    evalBlock host symbols (negation [.literal (.int 0)]),
    evalBlock host symbols (negation (negation b))] = _
  unfold call
  dsimp only
  rw [raw_negation_negation, raw_negation, value_int, ha.value_eq symbols .ifElse .or,
    hb.value_eq symbols .not .or]
  rfl

/-- A call whose arguments have values does the same when it is spelled out. -/
theorem evalTerm_spelledCall (c : Command) (args : List Block)
    (h : ∀ arg ∈ deferred host symbols args, arg.HasValue) :
    evalTerm host symbols (spelledCall c args) =
      call host symbols c (deferred host symbols args) := by
  unfold spelledCall
  split
  next a b =>
    obtain ⟨ha, hb, -⟩ := List.forall_mem_cons.1 h |>.imp_right List.forall_mem_cons.1
    exact evalTerm_spelledCall_and host symbols ha hb
  next a b =>
    obtain ⟨ha, hb, -⟩ := List.forall_mem_cons.1 h |>.imp_right List.forall_mem_cons.1
    exact evalTerm_spelledCall_or host symbols ha hb
  next => rfl

mutual

theorem evalTerm_spellOut : (t : Term) → t.Complete →
    evalTerm host symbols t.spellOut = evalTerm host symbols t
  | .literal _, _ => rfl
  | .symbol _, _ => rfl
  | .call c args, h => by
    have hargs := deferred_spellOutArguments args h.2
    have hvalue := deferred_ensures symbols host.accounts_true args h.2
    rw [Term.spellOut, evalTerm_spelledCall host symbols c _ (hargs ▸ hvalue), hargs]
    rfl

theorem evalBlock_spellOutBlock : (block : Block) → CompleteBlock block →
    evalBlock host symbols (spellOutBlock block) = evalBlock host symbols block
  | [], _ => rfl
  | t :: ts, h => by
    rw [spellOutBlock, evalBlock, evalBlock, evalTerm_spellOut t h.1,
      evalBlock_spellOutBlock ts h.2]

theorem deferred_spellOutArguments : (args : List Block) → CompleteArguments args →
    deferred host symbols (spellOutArguments args) = deferred host symbols args
  | [], _ => rfl
  | b :: bs, h => by
    rw [spellOutArguments, deferred, deferred, evalBlock_spellOutBlock b h.1.2,
      deferred_spellOutArguments bs h.2]

end

end

/-- Every block that was compiled has its arguments in all calls, and none of them is
empty.  In a block for which this is so, all short circuits can be spelled out.  For
any host, any variables and any world, the two blocks then come to the same value or
the same fault and leave the same variables and the same world, and the host is asked
the same and prints the same, in the same order. -/
theorem run_spellOut :
    (∀ {symbols symbols' : SymbolTable} {text : String} {block : Block},
      compile symbols text = (.ok block, symbols') → CompleteBlock block) ∧
    ∀ {σ : Type} {block : Block}, CompleteBlock block →
      ∀ (host : Host σ) (symbols : SymbolTable) (bindings : Bindings) (world : σ),
      let run := block.run host.narrating symbols bindings (world, [])
      let spelled := (spellOutBlock block).run host.narrating symbols bindings (world, [])
      SpelledBlock (spellOutBlock block) ∧
      block.run host symbols bindings world = (run.1, ⟨run.2.bindings, run.2.world.1⟩) ∧
      (spellOutBlock block).run host symbols bindings world =
        (spelled.1, ⟨spelled.2.bindings, spelled.2.world.1⟩) ∧
      spelled.1 = run.1 ∧ spelled.2.bindings = run.2.bindings ∧
      spelled.2.world.1 = run.2.world.1 ∧ spelled.2.world.2 = run.2.world.2 := by
  refine ⟨compile_complete, ?_⟩
  intro σ block h host symbols bindings world run spelled
  have hrun : spelled = run :=
    congrArg (·.run ⟨bindings, (world, [])⟩)
      (evalBlock_spellOutBlock host.narrating symbols block h)
  refine ⟨spelled_spellOutBlock block h, ?_, ?_, ?_⟩
  · exact block.run_of_books host.narrating_related symbols bindings world []
  · exact Block.run_of_books host.narrating_related symbols _ bindings world []
  · rw [hrun]
    exact ⟨rfl, rfl, rfl, rfl⟩

/-- The first `and` is decided by its first argument, and the second one asks the
host, which refuses. -/
theorem run_spellOut_refused : ∃ block symbols,
    compile .new "or(and(0, wait()), and(prnt(2), wait()))" = (.ok block, symbols) ∧
    let spelled := (spellOutBlock block).run Host.refusing.narrating symbols .empty ((), [])
    spelled.1 = .error (.invalidArgument .wait .unitGone) ∧ spelled.2.world.2.length = 2 := by
  have hrun : (match compile .new "or(and(0, wait()), and(prnt(2), wait()))" with
      | (.ok block, symbols) =>
        let run := block.run Host.refusing.narrating symbols .empty ((), [])
        match run.1 with
        | .error f => some (f, run.2.world.2.length)
        | .ok _ => none
      | (.error _, _) => none) = some (.invalidArgument .wait .unitGone, 2) := by
    decide +kernel
  rcases hc : compile .new "or(and(0, wait()), and(prnt(2), wait()))" with ⟨_ | block, symbols⟩
  · rw [hc] at hrun
    cases hrun
  · rw [hc] at hrun
    dsimp only at hrun
    split at hrun
    next f hf =>
      obtain ⟨hfault, hevents⟩ := Prod.mk.inj (Option.some.inj hrun)
      obtain ⟨-, -, -, hvalue, -, -, hsame⟩ :=
        run_spellOut.2 (run_spellOut.1 hc) Host.refusing symbols .empty ()
      refine ⟨block, symbols, rfl, ?_, ?_⟩
      · rw [hvalue, hf, hfault]
      · rw [hsame, hevents]
    next => cases hrun

end Skirmish.Script
