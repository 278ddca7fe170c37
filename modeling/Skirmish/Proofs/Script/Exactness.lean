import Skirmish.Proofs.Script.ShortCircuit
import Skirmish.Proofs.Script.WholeFloats

/-!
# Integers are computed exactly

A `Calculation` is made of calls of `add`, `sub` and `mul`, nested to any depth,
with integers and names at the bottom.  Its calls are carried out from the inside
to the outside and from left to right, and each of them has an exact value: the
one that it would have if integers had no bounds.

No call wraps round.  A call whose exact value is no integer of 64 bits ends the
run, so the fault comes from the first such call, even where the exact value of
the whole would fit again.

Main statement: a calculation comes to its exact value or to the fault of its
first call that does not fit, without any effect, and a quotient of integers is
exact where it comes out even (`run_calculation`).
-/

namespace Skirmish.Script

/-- Whether an integer is one of 64 bits. -/
def FitsInt64 (n : Int) : Prop := Int64.minValue.toInt ≤ n ∧ n ≤ Int64.maxValue.toInt

instance (n : Int) : Decidable (FitsInt64 n) := inferInstanceAs (Decidable (_ ∧ _))

theorem fitsInt64_toInt (n : Int64) : FitsInt64 n.toInt := ⟨Int64.le_toInt n, Int64.toInt_le n⟩

theorem exactly_of_fits (c : Command) {n : Int} (h : FitsInt64 n) :
    ∃ m : Int64, exactly c n = .ok (.int m) ∧ m.toInt = n := by
  obtain ⟨m, hm, hv⟩ := exactly_eq_ok_iff.1 (if_pos h : exactly c n = .ok (.int (Int64.ofInt n)))
  exact ⟨m, (if_pos h).trans (congrArg _ hv), hm⟩

theorem exactly_of_not_fits (c : Command) {n : Int} (h : ¬ FitsInt64 n) :
    exactly c n = .error (.integerOverflow c) :=
  if_neg h

/-- The integer that a value counts for, if it is an integer or a truth value. -/
def Value.integer? : Value → Option Int
  | int n => some n.toInt
  | bool b => some (if b then 1 else 0)
  | _ => none

theorem Value.counted_eq {v : Value} {n : Int} (h : v.integer? = some n) :
    ∃ m : Int64, v.counted = .int m ∧ m.toInt = n := by
  cases v with
  | int m => exact ⟨m, rfl, Option.some.inj h⟩
  | bool b =>
    refine ⟨_, rfl, Option.some.inj h ▸ ?_⟩
    cases b <;> rfl
  | float | symbol => cases h

/-! ## Calculations -/

/-- The operators that are exact on integers. -/
inductive Operator where
  | add
  | sub
  | mul

namespace Operator

/-- The command for an operator. -/
def command : Operator → Command
  | add => .add
  | sub => .sub
  | mul => .mul

/-- The operation on integers without bounds. -/
def onInts : Operator → Int → Int → Int
  | add => (· + ·)
  | sub => (· - ·)
  | mul => (· * ·)

theorem kind_command (o : Operator) : o.command.kind ≠ .special := by
  cases o <;> decide

theorem execute_command {σ : Type} (host : Host σ) (symbols : SymbolTable) (o : Operator)
    {a b : Value} {m n : Int} (ha : a.integer? = some m) (hb : b.integer? = some n) (w : σ) :
    execute host symbols o.command [a, b] w = (exactly o.command (o.onInts m n), w) := by
  obtain ⟨k, hk, rfl⟩ := Value.counted_eq ha
  obtain ⟨l, hl, rfl⟩ := Value.counted_eq hb
  cases o
  all_goals
    change (Value.arithmetic _ _ _ a b, w) = _
    rw [Value.arithmetic, hk, hl]
    rfl

end Operator

/-- Nested calls of the operators, down to integers and names. -/
inductive Calculation where
  | literal (n : Int64)
  | name (s : Symbol)
  | operation (o : Operator) (a b : Calculation)

namespace Calculation

/-- The calculation as it stands in a compiled script. -/
def term : Calculation → Term
  | literal n => .literal (.int n)
  | name s => .symbol s
  | operation o a b => .call o.command [[a.term], [b.term]]

/-- The names stand for integers and truth values, which count for what is given. -/
def Reads (bindings : Bindings) (given : Symbol → Int) : Calculation → Prop
  | literal _ => True
  | name s => (bindings.lookup? s).bind Value.integer? = some (given s)
  | operation _ a b => a.Reads bindings given ∧ b.Reads bindings given

/-- The value in integers without bounds. -/
def exact (given : Symbol → Int) : Calculation → Int
  | literal n => n.toInt
  | name s => given s
  | operation o a b => o.onInts (a.exact given) (b.exact given)

/-- The calls with their exact values, in the order in which they are carried
out: those of the left argument, those of the right one, and then the call. -/
def steps (given : Symbol → Int) : Calculation → List (Command × Int)
  | literal _ | name _ => []
  | operation o a b =>
    a.steps given ++ b.steps given ++ [(o.command, o.onInts (a.exact given) (b.exact given))]

end Calculation

/-- The first of some steps whose value does not fit. -/
def firstUnfit? (steps : List (Command × Int)) : Option (Command × Int) :=
  steps.find? fun step ↦ !decide (FitsInt64 step.2)

theorem firstUnfit?_append (before after : List (Command × Int)) :
    firstUnfit? (before ++ after) = (firstUnfit? before).or (firstUnfit? after) :=
  List.find?_append

/-- What becomes of steps that are carried out one after the other: a value if all
of them fit, and the fault of the first one that does not. -/
def Settles (steps : List (Command × Int)) (P : Value → Prop) (r : Except Fault Value) : Prop :=
  match firstUnfit? steps with
  | none => ∃ v, r = .ok v ∧ P v
  | some step => r = .error (.integerOverflow step.1)

namespace Settles

variable {steps : List (Command × Int)} {P Q : Value → Prop} {r : Except Fault Value}

theorem none_iff (h : firstUnfit? steps = none) : Settles steps P r ↔ ∃ v, r = .ok v ∧ P v := by
  rw [Settles, h]

theorem some_iff {step : Command × Int} (h : firstUnfit? steps = some step) :
    Settles steps P r ↔ r = .error (.integerOverflow step.1) := by
  rw [Settles, h]

theorem imp (h : Settles steps P r) (hPQ : ∀ v, P v → Q v) : Settles steps Q r := by
  cases hf : firstUnfit? steps with
  | none =>
    obtain ⟨v, hr, hv⟩ := (none_iff hf).1 h
    exact (none_iff hf).2 ⟨v, hr, hPQ v hv⟩
  | some step => exact (some_iff hf).2 ((some_iff hf).1 h)

/-- Only the first step that does not fit matters. -/
theorem congr {steps' : List (Command × Int)} (h : firstUnfit? steps = firstUnfit? steps') :
    Settles steps P r ↔ Settles steps' P r := by
  rw [Settles, h, Settles]

/-- A single step is carried out exactly or not at all. -/
theorem exactly (c : Command) (n : Int) :
    Settles [(c, n)] (fun v ↦ ∃ m : Int64, v = .int m ∧ m.toInt = n) (exactly c n) := by
  by_cases hfits : FitsInt64 n
  · obtain ⟨m, hm, hvalue⟩ := exactly_of_fits c hfits
    exact (none_iff (by simp [firstUnfit?, hfits])).2 ⟨_, hm, m, rfl, hvalue⟩
  · have hfirst : firstUnfit? [(c, n)] = some (c, n) := by simp [firstUnfit?, hfits]
    exact (some_iff hfirst).2 (exactly_of_not_fits c hfits)

/-- A value that settles steps has what was promised of it. -/
theorem of_ok {v : Value} (h : Settles steps P (.ok v)) : P v := by
  cases hf : firstUnfit? steps with
  | none =>
    obtain ⟨u, hu, hP⟩ := (none_iff hf).1 h
    cases hu
    exact hP
  | some step => cases (some_iff hf).1 h

end Settles

/-! ## Running calculations -/

variable {σ : Type} (host : Host σ) (symbols : SymbolTable) {given : Symbol → Int}

/-- The arguments of an operator are run from left to right, names are looked up,
and the operator works on the values. -/
theorem evalTerm_operation (o : Operator) (a b : Calculation) :
    evalTerm host symbols (Calculation.operation o a b).term = (do
      let v ← Deferred.value (evalBlock host symbols [a.term]) symbols o.command
      let u ← Deferred.value (evalBlock host symbols [b.term]) symbols o.command
      Run.onWorld (execute host symbols o.command [v, u])) := by
  rw [Calculation.term, evalTerm, call_plain host symbols o.kind_command, deferred_eq_map]
  simp only [List.map_cons, List.map_nil, List.mapM_cons, List.mapM_nil, pure_bind, bind_assoc]

/-- One call more: where the arguments settle, so does the call. -/
theorem run_operation (o : Operator) {a b : Calculation} {w : RunState σ}
    {ra rb : Except Fault Value}
    (ha : (Deferred.value (evalBlock host symbols [a.term]) symbols o.command).run w = (ra, w))
    (hb : (Deferred.value (evalBlock host symbols [b.term]) symbols o.command).run w = (rb, w))
    (sa : Settles (a.steps given) (·.integer? = some (a.exact given)) ra)
    (sb : Settles (b.steps given) (·.integer? = some (b.exact given)) rb) :
    ∃ r, (evalTerm host symbols (Calculation.operation o a b).term).run w = (r, w) ∧
      Settles ((Calculation.operation o a b).steps given)
        (fun v ↦ ∃ m : Int64, v = .int m ∧
          m.toInt = (Calculation.operation o a b).exact given) r := by
  rw [evalTerm_operation, run_bind, ha]
  have hfirst : firstUnfit? ((Calculation.operation o a b).steps given) =
      ((firstUnfit? (a.steps given)).or (firstUnfit? (b.steps given))).or
        (firstUnfit? [(o.command, (Calculation.operation o a b).exact given)]) := by
    rw [Calculation.steps, firstUnfit?_append, firstUnfit?_append]
    rfl
  cases hfa : firstUnfit? (a.steps given) with
  | some step =>
    obtain rfl := (Settles.some_iff hfa).1 sa
    exact ⟨_, rfl, (Settles.some_iff (by rw [hfirst, hfa]; rfl)).2 rfl⟩
  | none =>
    obtain ⟨v, rfl, hv⟩ := (Settles.none_iff hfa).1 sa
    dsimp only
    rw [run_bind, hb]
    cases hfb : firstUnfit? (b.steps given) with
    | some step =>
      obtain rfl := (Settles.some_iff hfb).1 sb
      exact ⟨_, rfl, (Settles.some_iff (by rw [hfirst, hfa, hfb]; rfl)).2 rfl⟩
    | none =>
      obtain ⟨u, rfl, hu⟩ := (Settles.none_iff hfb).1 sb
      rw [hfa, hfb, Option.none_or, Option.none_or] at hfirst
      refine ⟨exactly o.command ((Calculation.operation o a b).exact given), ?_, ?_⟩
      · change ((execute host symbols o.command [v, u] w.world).1,
          { w with world := (execute host symbols o.command [v, u] w.world).2 }) = _
        rw [o.execute_command host symbols hv hu]
        rfl
      · exact (Settles.congr hfirst).2 (.exactly _ _)

/-- The value that a calculation has as an argument of a call. -/
theorem run_value (w : RunState σ) : (e : Calculation) → e.Reads w.bindings given → ∀ c : Command,
    ∃ r, (Deferred.value (evalBlock host symbols [e.term]) symbols c).run w = (r, w) ∧
      Settles (e.steps given) (·.integer? = some (e.exact given)) r
  | .literal n, _, c => by
    refine ⟨.ok (.int n), ?_, _, rfl, rfl⟩
    rw [Calculation.term, value_int]
    rfl
  | .name s, h, c => by
    obtain ⟨v, hv, hn⟩ := Option.bind_eq_some_iff.1 h
    refine ⟨.ok v, ?_, v, rfl, hn⟩
    rw [Deferred.value, raw_singleton]
    change (resolveValue symbols (.symbol s) : Run σ Value).run w = _
    rw [run_resolveValue_symbol, hv]
    rfl
  | .operation o a b, h, c => by
    obtain ⟨ra, ha, sa⟩ := run_value w a h.1 o.command
    obtain ⟨rb, hb, sb⟩ := run_value w b h.2 o.command
    obtain ⟨r, hr, hs⟩ := run_operation host symbols o ha hb sa sb
    refine ⟨r, ?_, hs.imp ?_⟩
    · rw [Deferred.value, raw_singleton, run_bind, hr]
      cases r with
      | error f => rfl
      | ok v =>
        obtain ⟨m, rfl, -⟩ := hs.of_ok
        rfl
    · rintro v ⟨m, rfl, hm⟩
      exact congrArg some hm

/-- A term is run for its value. -/
theorem run_singleton (t : Term) (bindings : Bindings) (world : σ) {r : Except Fault Value}
    {w : RunState σ} (h : (evalTerm host symbols t).run ⟨bindings, world⟩ = (r, w)) :
    Block.run host symbols [t] bindings world = (r.map some, w) := by
  rw [Block.run, evalBlock, run_bind, h]
  cases r <;> rfl

/-! ## Division -/

namespace Value

variable {a b : Value} {m n : Int}

/-- A quotient of integers is refused, exact, or a float. -/
theorem div_cases (ha : a.integer? = some m) (hb : b.integer? = some n) :
    (n = 0 ∧ a.div b = .error .divisionByZero) ∨
    (n ≠ 0 ∧ ∃ q, q * n = m ∧ a.div b = exactly .div q) ∨
    (n ≠ 0 ∧ ¬ n ∣ m ∧ ∃ x, a.div b = .ok (number x)) := by
  obtain ⟨k, hk, rfl⟩ := counted_eq ha
  obtain ⟨l, hl, rfl⟩ := counted_eq hb
  rw [div, hk, hl]
  dsimp only
  by_cases hzero : l = 0
  · subst hzero
    exact .inl ⟨rfl, if_pos rfl⟩
  · have hne : l.toInt ≠ 0 := fun e ↦ hzero (Int64.toInt_inj.1 e)
    rw [if_neg hzero]
    by_cases hrest : k.toInt.tmod l.toInt = 0
    · rw [if_pos hrest]
      exact .inr (.inl ⟨hne, _, Int.tdiv_mul_cancel (Int.dvd_of_tmod_eq_zero hrest), rfl⟩)
    · rw [if_neg hrest]
      refine .inr (.inr ⟨hne, fun hdvd ↦ hrest (Int.tmod_eq_zero_of_dvd hdvd), ?_⟩)
      have hfloat : (nearestFloat l == 0) = false := by
        rw [nearestFloat_beq_zero]
        exact beq_eq_false_iff_ne.2 hzero
      refine ⟨nearestFloat k / nearestFloat l, ?_⟩
      simp only [divFloats, asFloats, toFloat?, hfloat]
      rfl

theorem div_eq_divisionByZero_iff (ha : a.integer? = some m) (hb : b.integer? = some n) :
    a.div b = .error .divisionByZero ↔ n = 0 := by
  obtain ⟨rfl, hdiv⟩ | ⟨hne, q, -, hdiv⟩ | ⟨hne, -, x, hdiv⟩ := div_cases ha hb
  · exact iff_of_true hdiv rfl
  · refine iff_of_false ?_ hne
    rw [hdiv, exactly]
    split <;> nofun
  · refine iff_of_false ?_ hne
    rw [hdiv]
    nofun

theorem div_of_mul_eq (ha : a.integer? = some m) (hb : b.integer? = some n) {q : Int}
    (hn : n ≠ 0) (hq : q * n = m) : a.div b = exactly .div q := by
  obtain ⟨rfl, -⟩ | ⟨-, p, hp, hdiv⟩ | ⟨-, hrest, -⟩ := div_cases ha hb
  · exact absurd rfl hn
  · rw [hdiv, Int.eq_of_mul_eq_mul_right hn (hp.trans hq.symm)]
  · exact absurd ⟨q, by rw [← hq, Int.mul_comm]⟩ hrest

/-- Of all quotients of integers of 64 bits that come out even, one does not fit. -/
theorem not_fitsInt64_quotient_iff {q : Int} (hm : FitsInt64 m) (hn : n ≠ 0) (hq : q * n = m) :
    ¬ FitsInt64 q ↔ m = Int64.minValue.toInt ∧ n = -1 := by
  have hle : q.natAbs ≤ m.natAbs := by
    rw [← Int.mul_tdiv_cancel q hn, hq]
    exact Int.natAbs_tdiv_le_natAbs m n
  simp only [FitsInt64, Int64.toInt_minValue, Int64.toInt_maxValue] at hm ⊢
  constructor
  · intro hfits
    obtain rfl : q = 2 ^ 63 := by omega
    omega
  · rintro ⟨rfl, rfl⟩
    omega

theorem div_eq_integerOverflow_iff (ha : a.integer? = some m) (hb : b.integer? = some n)
    {c : Command} : a.div b = .error (.integerOverflow c) ↔
      c = .div ∧ m = Int64.minValue.toInt ∧ n = -1 := by
  have hm : FitsInt64 m := by
    obtain ⟨k, -, rfl⟩ := counted_eq ha
    exact fitsInt64_toInt k
  obtain ⟨rfl, hdiv⟩ | ⟨hne, q, hq, hdiv⟩ | ⟨hne, hrest, x, hdiv⟩ := div_cases ha hb
  · rw [hdiv]
    simp
  · rw [hdiv, ← not_fitsInt64_quotient_iff hm hne hq]
    by_cases hfits : FitsInt64 q
    · obtain ⟨k, hk, -⟩ := exactly_of_fits .div hfits
      simp [hk, hfits]
    · simp [exactly_of_not_fits .div hfits, hfits, eq_comm]
  · rw [hdiv]
    refine iff_of_false nofun ?_
    rintro ⟨-, -, rfl⟩
    exact hrest (Int.neg_dvd.2 (Int.one_dvd m))

end Value

theorem run_div {a b : Value} {m n : Int} (ha : a.integer? = some m) (hb : b.integer? = some n)
    (bindings : Bindings) (world : σ) :
    Block.run host symbols [.call .div [[.literal a], [.literal b]]] bindings world =
      ((a.div b).map some, ⟨bindings, world⟩) := by
  have hvalue : ∀ {v : Value} {k : Int}, v.integer? = some k →
      Deferred.value (evalBlock host symbols [.literal v]) symbols .div = pure v := by
    intro v k hv
    rw [Deferred.value, raw_singleton]
    cases v with
    | int | bool => rfl
    | float | symbol => cases hv
  refine run_singleton host symbols _ bindings world ?_
  rw [evalTerm, call_plain host symbols (by decide), deferred_eq_map]
  simp only [List.map_cons, List.map_nil, List.mapM_cons, List.mapM_nil, hvalue ha, hvalue hb,
    pure_bind]
  rfl

/-- A calculation is a call of `add`, `sub` or `mul` whose arguments are such
calls, integers, or names that stand for integers or truth values.  With any host,
the run of a calculation asks nothing, prints nothing and leaves the variables as
they are.  If the exact values of all its calls fit into 64 bits, its value is the
exact value of the whole; otherwise it ends with the overflow of the first call
whose exact value does not fit.

The run of a quotient of two integers or truth values has no effect either.  It is
a division by zero exactly if the divisor is 0, has the exact quotient where there
is one that fits, and overflows exactly for the least integer divided by -1. -/
theorem run_calculation :
    (∀ {σ : Type} (o : Operator) (a b : Calculation) {given : Symbol → Int}
      {bindings : Bindings}, (Calculation.operation o a b).Reads bindings given →
      ∀ (host : Host σ) (symbols : SymbolTable) (world : σ),
      let e := Calculation.operation o a b
      let run := Block.run host.narrating symbols [e.term] bindings (world, [])
      Block.run host symbols [e.term] bindings world = (run.1, ⟨bindings, world⟩) ∧
      run.2 = ⟨bindings, (world, [])⟩ ∧
      ((∀ step ∈ e.steps given, FitsInt64 step.2) →
        ∃ m : Int64, run.1 = .ok (some (.int m)) ∧ m.toInt = e.exact given) ∧
      ∀ step, firstUnfit? (e.steps given) = some step →
        run.1 = .error (.integerOverflow step.1)) ∧
    ∀ {σ : Type} {a b : Value} {m n : Int}, a.integer? = some m → b.integer? = some n →
      ∀ (host : Host σ) (symbols : SymbolTable) (bindings : Bindings) (world : σ),
      let quotient : Block := [.call .div [[.literal a], [.literal b]]]
      let run := quotient.run host.narrating symbols bindings (world, [])
      quotient.run host symbols bindings world = (run.1, ⟨bindings, world⟩) ∧
      run.2 = ⟨bindings, (world, [])⟩ ∧
      (run.1 = .error .divisionByZero ↔ n = 0) ∧
      (∀ q, n ≠ 0 → q * n = m → FitsInt64 q →
        ∃ k : Int64, run.1 = .ok (some (.int k)) ∧ k.toInt = q) ∧
      ∀ c, run.1 = .error (.integerOverflow c) ↔
        c = .div ∧ m = Int64.minValue.toInt ∧ n = -1 := by
  constructor
  · intro σ o a b given bindings h host symbols world e run
    obtain ⟨ra, ha, sa⟩ :=
      run_value host.narrating symbols ⟨bindings, (world, [])⟩ a h.1 o.command
    obtain ⟨rb, hb, sb⟩ :=
      run_value host.narrating symbols ⟨bindings, (world, [])⟩ b h.2 o.command
    obtain ⟨r, hr, hs⟩ := run_operation host.narrating symbols o ha hb sa sb
    have hrun : run = (r.map some, ⟨bindings, (world, [])⟩) :=
      run_singleton host.narrating symbols _ _ _ hr
    rw [hrun]
    refine ⟨?_, rfl, ?_, ?_⟩
    · have hbooks := Block.run_of_books host.narrating_related symbols [e.term] bindings world []
      rw [hbooks]
      exact congrArg (fun w ↦ (w.1, RunState.mk w.2.bindings w.2.world.1)) hrun
    · intro hfits
      have hnone : firstUnfit? (e.steps given) = none := by
        simpa [firstUnfit?] using hfits
      obtain ⟨v, rfl, m, rfl, hm⟩ := (Settles.none_iff hnone).1 hs
      exact ⟨m, rfl, hm⟩
    · intro step hstep
      rw [(Settles.some_iff hstep).1 hs]
      rfl
  · intro σ a b m n ha hb host symbols bindings world quotient run
    have hrun : run = ((a.div b).map some, ⟨bindings, (world, [])⟩) :=
      run_div host.narrating symbols ha hb bindings (world, [])
    have hmap : ∀ {r : Except Fault Value} {f : Fault}, r.map some = .error f ↔ r = .error f := by
      intro r f
      cases r <;> simp [Except.map]
    rw [hrun]
    refine ⟨run_div host symbols ha hb bindings world, rfl,
      hmap.trans (Value.div_eq_divisionByZero_iff ha hb), ?_,
      fun c ↦ hmap.trans (Value.div_eq_integerOverflow_iff ha hb)⟩
    intro q hn hq hfits
    obtain ⟨k, hk, hvalue⟩ := exactly_of_fits .div hfits
    exact ⟨k, by rw [Value.div_of_mul_eq ha hb hn hq, hk]; rfl, hvalue⟩

/-- With `true` added to the greatest integer, the sum does not fit, whatever is
taken away from it afterwards; and `false` is no divisor. -/
theorem run_calculation_true :
    let e : Calculation := .operation .sub (.operation .add (.name ⟨1⟩)
      (.literal 9223372036854775807)) (.literal 2)
    let bindings := Bindings.empty.define ⟨1⟩ (.bool true)
    (Block.run Host.refusing.narrating .new [e.term] bindings ((), [])).1 =
        .error (.integerOverflow .add) ∧
      e.exact (fun _ ↦ 1) = 9223372036854775806 ∧
      (Block.run Host.refusing.narrating .new
        [.call .div [[.literal (.int 3)], [.literal (.bool false)]]] bindings ((), [])).1 =
          .error .divisionByZero := by
  intro e bindings
  have hreads : e.Reads bindings fun _ ↦ 1 := ⟨⟨rfl, trivial⟩, trivial⟩
  obtain ⟨hcalculation, hquotient⟩ := run_calculation
  obtain ⟨-, -, -, hfault⟩ := hcalculation .sub _ _ hreads Host.refusing .new ()
  obtain ⟨-, -, hzero, -⟩ :=
    hquotient (a := .int 3) (b := .bool false) rfl rfl Host.refusing .new bindings ()
  exact ⟨hfault (.add, 9223372036854775808) (by decide), by decide, hzero.2 rfl⟩

end Skirmish.Script
