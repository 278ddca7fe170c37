import Skirmish.Proofs.Script.Checks
import Skirmish.Proofs.Script.Names

/-!
# Names are looked up in time

A name stands for itself until its value is needed.  It is looked up once, so
what is found must be no name again: this is what a run keeps of the variables
(`Bindings.Resolved`).  What is handed to operators, to printing and to the host
has been looked up then, and operators find nothing wrong with its type.

To say so of what is handed over, `evalBlockNoting` runs a script and notes it;
it is the same run otherwise (`evalBlockNoting_related`).

Main statement: so it is with every complete block, and only a few faults remain
(`run_noting`).
-/

namespace Skirmish.Script

variable {σ α β : Type}

/-! ## Operators on values that have been looked up -/

/-- Either a result with `P`, or a fault with `Q`. -/
def EndsWith (P : α → Prop) (Q : Fault → Prop) : Except Fault α → Prop
  | .ok a => P a
  | .error f => Q f

theorem EndsWith.imp {P P' : α → Prop} {Q : Fault → Prop} {r : Except Fault α}
    (h : EndsWith P Q r) (hP : ∀ a, P a → P' a) : EndsWith P' Q r := by
  cases r with
  | ok a => exact hP a h
  | error f => exact h

theorem EndsWith.mono {P : α → Prop} {Q Q' : Fault → Prop} {r : Except Fault α}
    (h : EndsWith P Q r) (hQ : ∀ f, Q f → Q' f) : EndsWith P Q' r := by
  cases r with
  | ok a => exact h
  | error f => exact hQ f h

/-- Either a value that is no name, or a fault with `Q`. -/
abbrev Resolves (Q : Fault → Prop) : Except Fault Value → Prop := EndsWith (·.isSymbol = false) Q

namespace Value

variable {a b : Value} {c : Command}

theorem exists_toFloat?_counted (ha : a.isSymbol = false) : ∃ x, a.counted.toFloat? = some x := by
  cases a with
  | int n => exact ⟨_, rfl⟩
  | float x => exact ⟨_, rfl⟩
  | bool b => exact ⟨_, rfl⟩
  | symbol s => cases ha

theorem exists_asFloats_counted (c : Command) (ha : a.isSymbol = false) (hb : b.isSymbol = false) :
    ∃ xy, asFloats c a.counted b.counted = .ok xy := by
  obtain ⟨x, hx⟩ := exists_toFloat?_counted ha
  obtain ⟨y, hy⟩ := exists_toFloat?_counted hb
  exact ⟨(x, y), by rw [asFloats, hx, hy]⟩

theorem exactly_resolves (c : Command) (n : Int) :
    Resolves (· = .integerOverflow c) (exactly c n) := by
  unfold exactly
  split <;> exact rfl

theorem arithmetic_resolves (c : Command) (onInts : Int → Int → Int)
    (onFloats : Float → Float → Float) (ha : a.isSymbol = false) (hb : b.isSymbol = false) :
    Resolves (· = .integerOverflow c) (arithmetic c onInts onFloats a b) := by
  unfold arithmetic
  split
  · exact exactly_resolves c _
  · obtain ⟨xy, h⟩ := exists_asFloats_counted c ha hb
    rw [h]
    exact isSymbol_number _

theorem comparison_resolves (c : Command) (onInts : Int64 → Int64 → Bool)
    (onFloats : Float → Float → Bool) (ha : a.isSymbol = false) (hb : b.isSymbol = false) :
    Resolves (fun _ ↦ False) (comparison c onInts onFloats a b) := by
  unfold comparison
  split
  · exact rfl
  · obtain ⟨xy, h⟩ := exists_asFloats_counted c ha hb
    rw [h]
    exact rfl

/-- In a division of floats only the divisor can be wrong. -/
theorem divFloats_resolves {xy : Float × Float} (h : asFloats .div a b = .ok xy) :
    Resolves (· = .divisionByZero) (divFloats a b) := by
  unfold divFloats
  rw [h]
  dsimp only
  split
  · exact rfl
  · exact isSymbol_number _

end Value

/-- The faults that are left to a run: names that have no value, results that no
number can be given for, definitions of what is no name, and whatever the host
finds fault with. -/
inductive RunFault (written : String → Prop) (fromHost : Fault → Prop) : Fault → Prop
  | undefinedSymbol {name : String} (h : written name) :
    RunFault written fromHost (.undefinedSymbol name)
  | divisionByZero : RunFault written fromHost .divisionByZero
  | integerOverflow {c : Command} (h : c ∈ [Command.add, .sub, .mul, .div]) :
    RunFault written fromHost (.integerOverflow c)
  | symbolName {kind : Value.Kind} (h : kind ≠ .symbol) :
    RunFault written fromHost (.typeMismatch .define .symbolName kind)
  | host {f : Fault} (h : fromHost f) : RunFault written fromHost f

variable {written : String → Prop} {fromHost : Fault → Prop}

theorem Value.div_resolves {a b : Value} (ha : a.isSymbol = false) (hb : b.isSymbol = false) :
    Resolves (RunFault written fromHost) (div a b) := by
  have hzero : ∀ f, f = Fault.divisionByZero → RunFault written fromHost f := by
    rintro _ rfl
    exact .divisionByZero
  unfold div
  split
  · split
    · exact .divisionByZero
    · split
      · exact (exactly_resolves .div _).mono fun f hf ↦ hf ▸ .integerOverflow (by simp)
      · exact (divFloats_resolves rfl).mono hzero
  · obtain ⟨xy, h⟩ := exists_asFloats_counted .div ha hb
    exact (divFloats_resolves h).mono hzero

/-- A host that keeps something of the world, answers with values that are no names,
and finds fault in certain ways only, as long as it is given no names. -/
structure Host.Resolving (host : Host σ) (Inv : σ → Prop) (fromHost : Fault → Prop) : Prop where
  perform : ∀ (c : Command) (args : List Value) (w : σ), c.isForBoard = true →
    args.length = c.arity → (∀ v ∈ args, v.isSymbol = false) → Inv w →
    Inv (host.perform c args w).2 ∧ Resolves fromHost (host.perform c args w).1
  print : ∀ (line : String) (w : σ), Inv w → Inv (host.print line w)

/-- What has been looked up is carried out, and nothing is wrong with its type. -/
theorem execute_resolves (written : String → Prop) {host : Host σ} {Inv : σ → Prop}
    (hhost : host.Resolving Inv fromHost) (symbols : SymbolTable) {c : Command}
    (hc : c.kind ≠ .special) {args : List Value} (hn : args.length = c.arity)
    (hargs : ∀ v ∈ args, v.isSymbol = false) {w : σ} (hw : Inv w) :
    Inv (execute host symbols c args w).2 ∧
      Resolves (RunFault written fromHost) (execute host symbols c args w).1 := by
  cases hb : c.isForBoard with
  | true =>
    rw [execute_of_isForBoard host symbols hb hn]
    obtain ⟨hinv, hanswer⟩ := hhost.perform c args w hb hn hargs hw
    exact ⟨hinv, hanswer.mono fun _ ↦ .host⟩
  | false =>
    cases c
    case define | ifElse | and | or => exact absurd rfl hc
    case attack | chargeAttack | move | spawn | wait | defend | fortify | unitId | turnNumber
        | adjacentAllies | adjacentEnemies | totalAllies | totalEnemies | closestAlly
        | closestEnemy | unitLimit => cases hb
    case print =>
      obtain ⟨v, rfl⟩ := List.length_eq_one_iff.1 hn
      exact ⟨hhost.print _ w hw, rfl⟩
    case not =>
      obtain ⟨v, rfl⟩ := List.length_eq_one_iff.1 hn
      exact ⟨hw, rfl⟩
    all_goals
      obtain ⟨a, b, rfl⟩ := List.length_eq_two.1 hn
      have ha : a.isSymbol = false := hargs a (by simp)
      have hb : b.isSymbol = false := hargs b (by simp)
      refine ⟨hw, ?_⟩
      dsimp only [execute]
    case add | sub | mul =>
      exact (Value.arithmetic_resolves _ _ _ ha hb).mono fun f hf ↦
        hf ▸ .integerOverflow (by simp)
    case div => exact Value.div_resolves ha hb
    case equal => exact rfl
    case greater | greaterEqual | less | lessEqual =>
      exact (Value.comparison_resolves _ _ _ ha hb).mono fun _ ↦ False.elim

/-! ## Noting what is handed over -/

/-- A world, and the calls that have been carried out for a script, the last one
last. -/
abbrev Noted (σ : Type) := σ × List HostCall

section Noting

variable (host : Host σ) (symbols : SymbolTable)

/-- Carry out an operator or a command for the board, and note it. -/
def executeNoting (c : Command) (args : List Value) (w : Noted σ) :
    Except Fault Value × Noted σ :=
  let (answer, s) := execute host symbols c args w.1
  (answer, (s, w.2 ++ [⟨c, args, answer⟩]))

/-- Carry out a call, and note what is handed over.  The special forms hand nothing
over. -/
def callNoting (c : Command) (args : List (Deferred (Noted σ))) : Run (Noted σ) Value :=
  if c.kind = .special then call host.recording symbols c args
  else do
    let values ← args.mapM fun arg ↦ arg.value symbols c
    Run.onWorld (executeNoting host symbols c values)

mutual

/-- The value of a term. -/
def evalTermNoting : Term → Run (Noted σ) Value
  | .literal v => return v
  | .symbol s => return .symbol s
  | .call c args => callNoting host symbols c (deferredNoting args)

/-- The value of a block. -/
def evalBlockNoting : List Term → Run (Noted σ) (Option Value)
  | [] => return none
  | t :: ts => do
    let first ← evalTermNoting t
    let last ← evalBlockNoting ts
    return some (last.getD first)

/-- The arguments of a call, not yet run. -/
def deferredNoting : List (List Term) → List (Deferred (Noted σ))
  | [] => []
  | b :: bs => evalBlockNoting b :: deferredNoting bs

end

theorem length_deferredNoting (args : List Block) :
    (deferredNoting host symbols args).length = args.length := by
  induction args with
  | nil => rfl
  | cons b bs ih => rw [deferredNoting, List.length_cons, List.length_cons, ih]

theorem callNoting_related (c : Command) {args : List (Deferred σ)}
    {args' : List (Deferred (Noted σ))}
    (hargs : List.Forall₂ (Run.Related fun s w ↦ s = w.1) args args') :
    Run.Related (fun s w ↦ s = w.1) (call host symbols c args)
      (callNoting host symbols c args') := by
  unfold callNoting
  split
  next => exact call_related host.recording_related symbols c hargs
  next hc =>
    rw [call_plain host symbols hc]
    refine .bind (.mapM (hargs.imp fun x y hxy ↦ hxy.value symbols c)) fun values ↦ ?_
    refine .onWorld ?_
    rintro _ w rfl
    exact ⟨rfl, rfl⟩

mutual

theorem evalTermNoting_related :
    (t : Term) → Run.Related (fun s (w : Noted σ) ↦ s = w.1) (evalTerm host symbols t)
      (evalTermNoting host symbols t)
  | .literal v => .pure v
  | .symbol s => .pure (Value.symbol s)
  | .call c args => callNoting_related host symbols c (deferredNoting_related args)

/-- Noting what is handed over changes nothing else. -/
theorem evalBlockNoting_related :
    (block : Block) → Run.Related (fun s (w : Noted σ) ↦ s = w.1) (evalBlock host symbols block)
      (evalBlockNoting host symbols block)
  | [] => .pure none
  | t :: ts => (evalTermNoting_related t).bind fun first ↦
      (evalBlockNoting_related ts).bind fun last ↦ .pure (some (last.getD first))

theorem deferredNoting_related :
    (args : List Block) → List.Forall₂ (Run.Related fun s (w : Noted σ) ↦ s = w.1)
      (deferred host symbols args) (deferredNoting host symbols args)
  | [] => .nil
  | b :: bs => .cons (evalBlockNoting_related b) (deferredNoting_related bs)

end

end Noting

/-! ## What a run keeps -/

namespace Run

/-- Work that keeps a state in order, and has a result with `P` or a fault with `Q`. -/
def Keeps (I : RunState σ → Prop) (P : α → Prop) (Q : Fault → Prop) (x : Run σ α) : Prop :=
  ∀ s, I s → I (x.run s).2 ∧ EndsWith P Q (x.run s).1

namespace Keeps

variable {I : RunState σ → Prop} {P : α → Prop} {Q : Fault → Prop}

theorem pure {a : α} (h : P a) : Keeps I P Q (Pure.pure a : Run σ α) := fun _ hs ↦ ⟨hs, h⟩

theorem throw {f : Fault} (h : Q f) : Keeps I P Q (MonadExcept.throw f : Run σ α) :=
  fun _ hs ↦ ⟨hs, h⟩

theorem bind {P' : β → Prop} {x : Run σ α} {f : α → Run σ β} (hx : Keeps I P Q x)
    (hf : ∀ a, P a → Keeps I P' Q (f a)) : Keeps I P' Q (x >>= f) := by
  intro s hs
  obtain ⟨hI, hr⟩ := hx s hs
  rw [run_bind]
  rcases hx' : x.run s with ⟨e | a, s'⟩
  · rw [hx'] at hI hr
    exact ⟨hI, hr⟩
  · rw [hx'] at hI hr
    exact hf a hr s' hI

theorem imp {P' : α → Prop} {x : Run σ α} (hx : Keeps I P Q x) (hP : ∀ a, P a → P' a) :
    Keeps I P' Q x := fun s hs ↦ ⟨(hx s hs).1, (hx s hs).2.imp hP⟩

theorem mapM {ι : Type} {xs : List ι} {f : ι → Run σ α} (h : ∀ x ∈ xs, Keeps I P Q (f x)) :
    Keeps I (fun as : List α ↦ as.length = xs.length ∧ ∀ a ∈ as, P a) Q (xs.mapM f) := by
  induction xs with
  | nil =>
    rw [List.mapM_nil]
    exact .pure ⟨rfl, nofun⟩
  | cons x xs ih =>
    obtain ⟨hx, hxs⟩ := List.forall_mem_cons.1 h
    rw [List.mapM_cons]
    refine hx.bind fun a ha ↦ (ih hxs).bind fun as has ↦ .pure ⟨?_, ?_⟩
    · rw [List.length_cons, List.length_cons, has.1]
    · exact List.forall_mem_cons.2 ⟨ha, has.2⟩

end Keeps

end Run

/-- No variable has a name for its value. -/
def Bindings.Resolved (b : Bindings) : Prop := ∀ n v, b.lookup? n = some v → v.isSymbol = false

theorem Bindings.resolved_empty : Bindings.empty.Resolved := by
  intro n v h
  cases h

theorem Bindings.Resolved.define {b : Bindings} (h : b.Resolved) (name : Symbol) {v : Value}
    (hv : v.isSymbol = false) : (b.define name v).Resolved := by
  intro n w hw
  rw [lookup?_define] at hw
  split at hw
  · cases hw
    exact hv
  · exact h n w hw

/-- No name has been handed over or is the value of a variable. -/
structure Clean (Inv : σ → Prop) (s : RunState (Noted σ)) : Prop where
  bindings : s.bindings.Resolved
  noted : ∀ call ∈ s.world.2, ∀ v ∈ call.args, v.isSymbol = false
  world : Inv s.world.1

/-- If the value is a name, then it is one of those that are written. -/
def Value.IsWritten (written : String → Prop) (symbols : SymbolTable) (v : Value) : Prop :=
  ∀ s, v = .symbol s → written (symbols.lookup s)

theorem Value.isWritten_of_isSymbol {symbols : SymbolTable} {v : Value} (h : v.isSymbol = false) :
    v.IsWritten written symbols := by
  rintro s rfl
  cases h

section Keeping

variable {symbols : SymbolTable} {Inv : σ → Prop}

theorem resolveValue_keeps {v : Value} (hv : v.IsWritten written symbols) :
    Run.Keeps (Clean Inv) (·.isSymbol = false) (RunFault written fromHost)
      (resolveValue symbols v) := by
  cases v with
  | symbol n =>
    intro s hs
    rw [run_resolveValue_symbol]
    refine ⟨hs, ?_⟩
    cases hn : s.bindings.lookup? n with
    | none => exact .undefinedSymbol (hv n rfl)
    | some w => exact hs.bindings n w hn
  | int n => exact .pure rfl
  | float x => exact .pure rfl
  | bool b => exact .pure rfl

theorem requireName_keeps (v : Value) :
    Run.Keeps (Clean Inv) (fun _ ↦ True) (RunFault written fromHost)
      (requireName v : Run (Noted σ) Symbol) := by
  cases v with
  | symbol s => exact .pure trivial
  | int n => exact .throw (.symbolName nofun)
  | float x => exact .throw (.symbolName nofun)
  | bool b => exact .throw (.symbolName nofun)

theorem define_keeps {Q : Fault → Prop} (name : Symbol) {v : Value} (hv : v.isSymbol = false) :
    Run.Keeps (Clean Inv) (fun _ ↦ True) Q (Run.define name v : Run (Noted σ) Unit) :=
  fun _ hs ↦ ⟨⟨hs.bindings.define name hv, hs.noted, hs.world⟩, trivial⟩

/-- What an argument is required to do: it has a value, which may be a name that is
written. -/
def Deferred.Yields (written : String → Prop) (fromHost : Fault → Prop) (symbols : SymbolTable)
    (Inv : σ → Prop) (arg : Deferred (Noted σ)) : Prop :=
  Run.Keeps (Clean Inv) (fun v ↦ ∃ a, v = some a ∧ a.IsWritten written symbols)
    (RunFault written fromHost) arg

theorem Deferred.Yields.raw {arg : Deferred (Noted σ)}
    (h : arg.Yields written fromHost symbols Inv) (c : Command) :
    Run.Keeps (Clean Inv) (·.IsWritten written symbols) (RunFault written fromHost)
      (arg.raw c) := by
  refine h.bind ?_
  rintro _ ⟨a, rfl, ha⟩
  exact .pure ha

theorem Deferred.Yields.value {arg : Deferred (Noted σ)}
    (h : arg.Yields written fromHost symbols Inv) (c : Command) :
    Run.Keeps (Clean Inv) (·.isSymbol = false) (RunFault written fromHost) (arg.value symbols c) :=
  (h.raw c).bind fun _ ha ↦ resolveValue_keeps ha

variable {host : Host σ}

theorem executeNoting_keeps (hhost : host.Resolving Inv fromHost) {c : Command}
    (hc : c.kind ≠ .special) {args : List Value} (hn : args.length = c.arity)
    (hargs : ∀ v ∈ args, v.isSymbol = false) :
    Run.Keeps (Clean Inv) (·.isSymbol = false) (RunFault written fromHost)
      (Run.onWorld (executeNoting host symbols c args)) := by
  intro s hs
  obtain ⟨hinv, hr⟩ := execute_resolves written hhost symbols hc hn hargs hs.world
  refine ⟨⟨hs.bindings, ?_, hinv⟩, ?_⟩
  · intro call hcall
    rcases List.mem_append.1 hcall with hcall | hcall
    · exact hs.noted call hcall
    · rw [List.mem_singleton.1 hcall]
      exact hargs
  · exact hr

/-- A call with the right number of arguments, all of which do what they are
required to do. -/
theorem callNoting_keeps (hhost : host.Resolving Inv fromHost) {c : Command}
    {args : List (Deferred (Noted σ))} (hn : args.length = c.arity)
    (hargs : ∀ arg ∈ args, arg.Yields written fromHost symbols Inv) :
    Run.Keeps (Clean Inv) (·.IsWritten written symbols) (RunFault written fromHost)
      (callNoting host symbols c args) := by
  have hbool : ∀ b, (Value.bool b).IsWritten written symbols :=
    fun b ↦ Value.isWritten_of_isSymbol rfl
  unfold callNoting
  split
  next hc =>
    cases c
    case define =>
      obtain ⟨x, y, rfl⟩ := List.length_eq_two.1 hn
      have hx := hargs x (by simp)
      have hy := hargs y (by simp)
      refine (hx.raw .define).bind fun v _ ↦ (requireName_keeps v).bind fun s _ ↦ ?_
      exact (hy.value .define).bind fun w hw ↦ (define_keeps s hw).bind fun _ _ ↦ .pure (hbool true)
    case ifElse =>
      obtain ⟨x, y, z, rfl⟩ := List.length_eq_three.1 hn
      have hx := hargs x (by simp)
      have hy := hargs y (by simp)
      have hz := hargs z (by simp)
      refine (hx.value .ifElse).bind fun v _ ↦ ?_
      cases v.isTrue
      · exact hz.raw .ifElse
      · exact hy.raw .ifElse
    case and =>
      obtain ⟨x, y, rfl⟩ := List.length_eq_two.1 hn
      have hx := hargs x (by simp)
      have hy := hargs y (by simp)
      refine (hx.value .and).bind fun v _ ↦ ?_
      cases v.isTrue
      · exact .pure (hbool false)
      · exact (hy.value .and).bind fun w _ ↦ .pure (hbool w.isTrue)
    case or =>
      obtain ⟨x, y, rfl⟩ := List.length_eq_two.1 hn
      have hx := hargs x (by simp)
      have hy := hargs y (by simp)
      refine (hx.value .or).bind fun v _ ↦ ?_
      cases v.isTrue
      · exact (hy.value .or).bind fun w _ ↦ .pure (hbool w.isTrue)
      · exact .pure (hbool true)
    all_goals cases hc
  next hc =>
    refine (Run.Keeps.mapM fun arg harg ↦ (hargs arg harg).value c).bind fun values hvalues ↦ ?_
    exact (executeNoting_keeps hhost hc (hvalues.1.trans hn) hvalues.2).imp fun v hv ↦
      Value.isWritten_of_isSymbol hv

mutual

theorem evalTermNoting_keeps (hhost : host.Resolving Inv fromHost) :
    (t : Term) → t.Complete → t.NamedBy (fun s ↦ written (symbols.lookup s)) →
      Run.Keeps (Clean Inv) (·.IsWritten written symbols) (RunFault written fromHost)
        (evalTermNoting host symbols t)
  | .literal _, _, h => .pure (Value.isWritten_of_isSymbol h)
  | .symbol _, _, h => .pure fun _ hs ↦ Value.symbol.inj hs ▸ h
  | .call _ args, hc, h =>
    callNoting_keeps hhost ((length_deferredNoting host symbols args).trans hc.1)
      (deferredNoting_keeps hhost args hc.2 h)

/-- A complete block in which only written names stand has a value unless it is
empty, and keeps everything clean. -/
theorem evalBlockNoting_keeps (hhost : host.Resolving Inv fromHost) :
    (block : Block) → CompleteBlock block →
      BlockNamedBy (fun s ↦ written (symbols.lookup s)) block →
      Run.Keeps (Clean Inv)
        (fun v ↦ (v = none → block = []) ∧ ∀ a, v = some a → a.IsWritten written symbols)
        (RunFault written fromHost) (evalBlockNoting host symbols block)
  | [], _, _ => .pure ⟨fun _ ↦ rfl, nofun⟩
  | t :: ts, hc, h =>
    (evalTermNoting_keeps hhost t hc.1 h.1).bind fun first hfirst ↦
      (evalBlockNoting_keeps hhost ts hc.2 h.2).bind fun last hlast ↦ .pure ⟨nofun, by
        rintro _ ⟨⟩
        cases last with
        | none => exact hfirst
        | some a => exact hlast.2 a rfl⟩

theorem deferredNoting_keeps (hhost : host.Resolving Inv fromHost) :
    (args : List Block) → CompleteArguments args →
      ArgumentsNamedBy (fun s ↦ written (symbols.lookup s)) args →
      ∀ arg ∈ deferredNoting host symbols args, arg.Yields written fromHost symbols Inv
  | [], _, _ => nofun
  | b :: bs, hc, h => by
    have hb : Deferred.Yields written fromHost symbols Inv (evalBlockNoting host symbols b) := by
      refine (evalBlockNoting_keeps hhost b hc.1.2 h.1).imp ?_
      rintro (_ | a) hv
      · exact absurd (hv.1 rfl) hc.1.1
      · exact ⟨a, rfl, hv.2 a rfl⟩
    exact List.forall_mem_cons.2 ⟨hb, deferredNoting_keeps hhost bs hc.2 h.2⟩

end

end Keeping

/-- A complete block looks every name up before it hands it over, and leaves the
variables without names for values. -/
theorem run_noting (written : String → Prop) {table : SymbolTable} {block : Block}
    (hcomplete : CompleteBlock block)
    (hnames : BlockNamedBy (fun s ↦ written (table.lookup s)) block) {host : Host σ}
    {Inv : σ → Prop} (hhost : host.Resolving Inv fromHost) {bindings : Bindings}
    (hbindings : bindings.Resolved) {w : σ} (hw : Inv w) :
    let run := (evalBlockNoting host table block).run ⟨bindings, (w, [])⟩
    block.run host table bindings w = (run.1, ⟨run.2.bindings, run.2.world.1⟩) ∧
      Clean Inv run.2 ∧ ∀ f, run.1 = .error f → RunFault written fromHost f := by
  have hclean : Clean Inv ⟨bindings, (w, [])⟩ := ⟨hbindings, List.forall_mem_nil _, hw⟩
  obtain ⟨hkept, hends⟩ := evalBlockNoting_keeps hhost block hcomplete hnames _ hclean
  refine ⟨?_, hkept, ?_⟩
  · obtain ⟨r, b, s, w', hs, hn, rfl⟩ := evalBlockNoting_related host table block bindings w
      (w, []) rfl
    rw [Block.run, hs, hn]
  · intro f hf
    rw [hf] at hends
    exact hends

/-- The host never answers with a name. -/
def Host.NeverNames (host : Host σ) : Prop :=
  ∀ c args w v, (host.perform c args w).1 = .ok v → v.isSymbol = false

theorem Host.NeverNames.resolves {host : Host σ} (h : host.NeverNames) (c : Command)
    (args : List Value) (w : σ) : Resolves (fun _ ↦ True) (host.perform c args w).1 := by
  cases hr : (host.perform c args w).1 with
  | ok v => exact h c args w v hr
  | error f => exact trivial

theorem Host.NeverNames.resolving {host : Host σ} (h : host.NeverNames) :
    host.Resolving (fun _ ↦ True) fun _ ↦ True where
  perform c args w _ _ _ _ := ⟨trivial, h.resolves c args w⟩
  print _ _ _ := trivial

end Skirmish.Script
