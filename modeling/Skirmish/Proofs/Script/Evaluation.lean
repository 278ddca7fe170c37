import Skirmish.Proofs.Script.SideBySide
import Skirmish.Script.Run

/-!
# Running scripts against related worlds

What a call does is compared once for any two settings in which this can be done
(`Run.Parallel`): calls on arguments that do alike do alike (`Run.Parallel.call`).

`Run.Related R` relates work on one world to work on another: started in worlds
that are related by `R`, and with the same variables, both end with the same
result and the same variables, in related worlds.

Main statement: a script cannot tell related hosts apart, whatever it does
(`evalBlock_related`).  With one host on both sides this says what a script
keeps (`Block.run_keeps`).
-/

namespace Skirmish.Script

variable {σ τ α β : Type}

/-! ## The shape of calls

A call is one of the four special forms with the right number of arguments, or a
special form with another number of them, or it runs all its arguments. -/

section Shape

variable (host : Host σ) (symbols : SymbolTable)

theorem call_special {c : Command} {args : List (Deferred σ)} (hc : c.kind = .special)
    (hn : args.length ≠ c.arity) :
    call host symbols c args = throw (.invalidArgument c (.count args.length)) := by
  unfold call
  split
  · exact absurd rfl hn
  · exact absurd rfl hn
  · exact absurd rfl hn
  · exact absurd rfl hn
  · exact if_pos hc

theorem call_plain {c : Command} {args : List (Deferred σ)} (hc : c.kind ≠ .special) :
    call host symbols c args = (do
      let values ← args.mapM fun arg ↦ arg.value symbols c
      Run.onWorld (execute host symbols c values)) := by
  unfold call
  split
  · exact absurd rfl hc
  · exact absurd rfl hc
  · exact absurd rfl hc
  · exact absurd rfl hc
  · exact if_neg hc

end Shape

/-! ## Faults of operators

Operators find fault with the values that they are given, never with their
number. -/

namespace Value

theorem code_of_asFloats {c : Command} {a b : Value} {f : Fault} (h : asFloats c a b = .error f) :
    f.code ≠ .invalidArgument := by
  unfold asFloats at h
  split at h <;> cases h <;> nofun

theorem code_of_map_asFloats {c : Command} {a b : Value} {g : Float × Float → Value} {f : Fault}
    (h : (asFloats c a b).map g = .error f) : f.code ≠ .invalidArgument := by
  cases hab : asFloats c a b with
  | error e =>
    rw [hab] at h
    cases h
    exact code_of_asFloats hab
  | ok x =>
    rw [hab] at h
    cases h

theorem code_of_exactly {c : Command} {n : Int} {f : Fault} (h : exactly c n = .error f) :
    f.code ≠ .invalidArgument := by
  unfold exactly at h
  split at h <;> cases h
  nofun

theorem code_of_arithmetic {c : Command} {onInts : Int → Int → Int}
    {onFloats : Float → Float → Float} {a b : Value} {f : Fault}
    (h : arithmetic c onInts onFloats a b = .error f) : f.code ≠ .invalidArgument := by
  unfold arithmetic at h
  split at h
  · exact code_of_exactly h
  · exact code_of_map_asFloats h

theorem code_of_comparison {c : Command} {onInts : Int64 → Int64 → Bool}
    {onFloats : Float → Float → Bool} {a b : Value} {f : Fault}
    (h : comparison c onInts onFloats a b = .error f) : f.code ≠ .invalidArgument := by
  unfold comparison at h
  split at h
  · cases h
  · exact code_of_map_asFloats h

theorem code_of_divFloats {a b : Value} {f : Fault} (h : divFloats a b = .error f) :
    f.code ≠ .invalidArgument := by
  unfold divFloats at h
  split at h
  next hab =>
    cases h
    exact code_of_asFloats hab
  next =>
    split at h <;> cases h
    nofun

theorem code_of_div {a b : Value} {f : Fault} (h : div a b = .error f) :
    f.code ≠ .invalidArgument := by
  unfold div at h
  split at h
  · split at h
    · cases h
      nofun
    · split at h
      · exact code_of_exactly h
      · exact code_of_divFloats h
  · exact code_of_divFloats h

end Value

theorem execute_of_length_ne (host : Host σ) (symbols : SymbolTable) {c : Command}
    {args : List Value} (hn : args.length ≠ c.arity) (w : σ) :
    execute host symbols c args w = (.error (.invalidArgument c (.count args.length)), w) := by
  unfold execute
  split
  iterate 11 exact absurd rfl hn
  exact if_neg (by simp [hn])

theorem execute_of_isForBoard (host : Host σ) (symbols : SymbolTable) {c : Command}
    {args : List Value} (hc : c.isForBoard = true) (hn : args.length = c.arity) (w : σ) :
    execute host symbols c args w = host.perform c args w := by
  unfold execute
  split
  iterate 11 cases hc
  exact if_pos (by simp [hc, hn])

/-- A command that runs all its arguments prints, asks the board, or works on
values alone.  With the right number of values it has nothing against them. -/
theorem execute_cases (symbols : SymbolTable) {c : Command} (args : List Value)
    (hc : c.kind ≠ .special) :
    (∃ v, c = .print ∧ args = [v]) ∨
    (c.isForBoard = true ∧ args.length = c.arity ∧
      ∀ {σ : Type} (host : Host σ) (w : σ),
        execute host symbols c args w = host.perform c args w) ∨
    ∃ r : Except Fault Value,
      (∀ {σ : Type} (host : Host σ) (w : σ), execute host symbols c args w = (r, w)) ∧
      (args.length = c.arity → ∀ f, r = .error f → f.code ≠ .invalidArgument) := by
  by_cases hn : args.length = c.arity
  · cases hb : c.isForBoard with
    | true => exact .inr (.inl ⟨rfl, hn, fun host w ↦ execute_of_isForBoard host symbols hb hn w⟩)
    | false =>
      cases c
      case define | ifElse | and | or => exact absurd rfl hc
      case attack | chargeAttack | move | spawn | wait | defend | fortify | unitId | turnNumber
          | adjacentAllies | adjacentEnemies | totalAllies | totalEnemies | closestAlly
          | closestEnemy | unitLimit => cases hb
      case print =>
        obtain ⟨v, rfl⟩ := List.length_eq_one_iff.1 hn
        exact .inl ⟨v, rfl, rfl⟩
      case not =>
        obtain ⟨v, rfl⟩ := List.length_eq_one_iff.1 hn
        exact .inr (.inr ⟨_, fun _ _ ↦ rfl, fun _ f hf ↦ nomatch hf⟩)
      all_goals
        obtain ⟨a, b, rfl⟩ := List.length_eq_two.1 hn
        refine .inr (.inr ⟨_, fun _ _ ↦ rfl, fun _ f hf ↦ ?_⟩)
      case add | sub | mul => exact Value.code_of_arithmetic hf
      case div => exact Value.code_of_div hf
      case equal => cases hf
      case greater | greaterEqual | less | lessEqual => exact Value.code_of_comparison hf
  · exact .inr (.inr ⟨_, fun host w ↦ execute_of_length_ne host symbols hn w,
      fun h ↦ absurd h hn⟩)

/-- Looking a name up changes nothing. -/
theorem run_resolveValue_symbol (symbols : SymbolTable) (n : Symbol) (w : RunState σ) :
    (resolveValue symbols (.symbol n) : Run σ Value).run w =
      ((w.bindings.lookup? n).elim (.error (Fault.undefinedSymbol (symbols.lookup n))) .ok, w) := by
  have hget : (get : Run σ (RunState σ)).run w = (.ok w, w) := rfl
  unfold resolveValue
  rw [run_bind, hget]
  dsimp only
  cases w.bindings.lookup? n with
  | none => rfl
  | some v => rfl

/-! ## Calls side by side -/

theorem exists_single {ι κ : Type} {P : ι → κ → Prop} {xs : List ι} {ys : List κ}
    (h : List.Forall₂ P xs ys) (hn : xs.length = 1) : ∃ x y, P x y ∧ xs = [x] ∧ ys = [y] :=
  match xs, ys, h, hn with
  | [x], [y], .cons hxy .nil, _ => ⟨x, y, hxy, rfl, rfl⟩

theorem exists_pair {ι κ : Type} {P : ι → κ → Prop} {xs : List ι} {ys : List κ}
    (h : List.Forall₂ P xs ys) (hn : xs.length = 2) :
    ∃ x x' y y', P x x' ∧ P y y' ∧ xs = [x, y] ∧ ys = [x', y'] :=
  match xs, ys, h, hn with
  | [x, y], [x', y'], .cons hx (.cons hy .nil), _ => ⟨x, x', y, y', hx, hy, rfl, rfl⟩

theorem exists_triple {ι κ : Type} {P : ι → κ → Prop} {xs : List ι} {ys : List κ}
    (h : List.Forall₂ P xs ys) (hn : xs.length = 3) :
    ∃ x x' y y' z z', P x x' ∧ P y y' ∧ P z z' ∧ xs = [x, y, z] ∧ ys = [x', y', z'] :=
  match xs, ys, h, hn with
  | [x, y, z], [x', y', z'], .cons hx (.cons hy (.cons hz .nil)), _ =>
    ⟨x, x', y, y', z, z', hx, hy, hz, rfl, rfl⟩

section Arguments

variable {S : RunState σ → RunState τ → Prop} {A : Value → Value → Prop}

theorem requireValue_alongside {v v' : Option Value} (hv : Option.Rel A v v') (c : Command) :
    Alongside S A (requireValue c v) (requireValue c v') := by
  cases hv with
  | some hv => exact .pure hv
  | none => exact .throw _

theorem Deferred.raw_alongside {x : Deferred σ} {y : Deferred τ}
    (hxy : Alongside S (Option.Rel A) x y) (c : Command) : Alongside S A (x.raw c) (y.raw c) :=
  hxy.bind fun _ _ hv ↦ requireValue_alongside hv c

end Arguments

/-- Two settings in which calls can be compared: states are related by `S`, the
values that arguments yield by `A`, and what they are looked up to by `V`. -/
structure Run.Parallel (host : Host σ) (host' : Host τ) (symbols symbols' : SymbolTable)
    (S : RunState σ → RunState τ → Prop) (A V : Value → Value → Prop) : Prop where
  raw : ∀ v v', V v v' → A v v'
  bool : ∀ b, V (.bool b) (.bool b)
  kind_eq : ∀ v v', A v v' → v.kind = v'.kind
  isTrue_eq : ∀ v v', A v v' → v.isTrue = v'.isTrue
  resolveValue : ∀ v v', A v v' →
    Alongside S V (resolveValue symbols v) (resolveValue symbols' v')
  define : ∀ n n' v v', A (.symbol n) (.symbol n') → V v v' →
    Alongside S (fun _ _ ↦ True) (Run.define n v) (Run.define n' v')
  execute : ∀ c args args', c.kind ≠ .special → List.Forall₂ V args args' →
    Alongside S V (Run.onWorld (execute host symbols c args))
      (Run.onWorld (execute host' symbols' c args'))

namespace Run.Parallel

variable {host : Host σ} {host' : Host τ} {symbols symbols' : SymbolTable}
  {S : RunState σ → RunState τ → Prop} {A V : Value → Value → Prop}

theorem requireName (h : Parallel host host' symbols symbols' S A V) {v v' : Value}
    (hv : A v v') : Alongside S (fun n n' ↦ A (.symbol n) (.symbol n'))
      (Script.requireName v : Run σ Symbol) (Script.requireName v') := by
  have hkind := h.kind_eq v v' hv
  cases v <;> cases v' <;> cases hkind
  case symbol.symbol => exact .pure hv
  all_goals exact .throw _

theorem value (h : Parallel host host' symbols symbols' S A V) {x : Deferred σ}
    {y : Deferred τ} (hxy : Alongside S (Option.Rel A) x y) (c : Command) :
    Alongside S V (x.value symbols c) (y.value symbols' c) :=
  (Deferred.raw_alongside hxy c).bind fun v v' hv ↦ h.resolveValue v v' hv

/-- Calls on arguments that do alike do alike. -/
theorem call (h : Parallel host host' symbols symbols' S A V) (c : Command)
    {args : List (Deferred σ)} {args' : List (Deferred τ)}
    (hargs : List.Forall₂ (Alongside S (Option.Rel A)) args args') :
    Alongside S A (Script.call host symbols c args) (Script.call host' symbols' c args') := by
  have hbool : ∀ b, A (.bool b) (.bool b) := fun b ↦ h.raw _ _ (h.bool b)
  have htrue : ∀ {v v'}, V v v' → v.isTrue = v'.isTrue :=
    fun hv ↦ h.isTrue_eq _ _ (h.raw _ _ hv)
  by_cases hc : c.kind = .special
  · by_cases hn : args.length = c.arity
    · cases c
      case define =>
        obtain ⟨x, x', y, y', hx, hy, rfl, rfl⟩ := exists_pair hargs hn
        refine (Deferred.raw_alongside hx .define).bind fun v v' hv ↦ ?_
        refine (h.requireName hv).bind fun n n' hname ↦ ?_
        refine (h.value hy .define).bind fun w w' hw ↦ ?_
        exact (h.define n n' w w' hname hw).bind fun _ _ _ ↦ .pure (hbool true)
      case ifElse =>
        obtain ⟨x, x', y, y', z, z', hx, hy, hz, rfl, rfl⟩ := exists_triple hargs hn
        refine (h.value hx .ifElse).bind fun v v' hv ↦ ?_
        rw [htrue hv]
        cases v'.isTrue
        · exact Deferred.raw_alongside hz .ifElse
        · exact Deferred.raw_alongside hy .ifElse
      case and =>
        obtain ⟨x, x', y, y', hx, hy, rfl, rfl⟩ := exists_pair hargs hn
        refine (h.value hx .and).bind fun v v' hv ↦ ?_
        rw [htrue hv]
        cases v'.isTrue
        · exact .pure (hbool false)
        · refine (h.value hy .and).bind fun w w' hw ↦ ?_
          rw [htrue hw]
          exact .pure (hbool w'.isTrue)
      case or =>
        obtain ⟨x, x', y, y', hx, hy, rfl, rfl⟩ := exists_pair hargs hn
        refine (h.value hx .or).bind fun v v' hv ↦ ?_
        rw [htrue hv]
        cases v'.isTrue
        · refine (h.value hy .or).bind fun w w' hw ↦ ?_
          rw [htrue hw]
          exact .pure (hbool w'.isTrue)
        · exact .pure (hbool true)
      all_goals cases hc
    · rw [call_special host symbols hc hn, call_special host' symbols' hc (hargs.length_eq ▸ hn),
        hargs.length_eq]
      exact .throw _
  · rw [call_plain host symbols hc, call_plain host' symbols' hc]
    refine .bind (.mapM (hargs.imp fun x y hxy ↦ h.value hxy c)) fun values values' hvalues ↦ ?_
    exact (h.execute c values values' hc hvalues).imp h.raw

end Run.Parallel

namespace Run

/-- Started in related worlds, two computations end alike, in related worlds. -/
def Related (R : σ → τ → Prop) (x : Run σ α) (y : Run τ α) : Prop :=
  ∀ b s t, R s t → ∃ r b' s' t',
    x.run ⟨b, s⟩ = (r, ⟨b', s'⟩) ∧ y.run ⟨b, t⟩ = (r, ⟨b', t'⟩) ∧ R s' t'

/-- Two computations are related if side by side they keep the same variables and
related worlds, and have the same results. -/
theorem related_iff {R : σ → τ → Prop} {x : Run σ α} {y : Run τ α} : Related R x y ↔
    Alongside (fun s t ↦ s.bindings = t.bindings ∧ R s.world t.world) Eq x y := by
  constructor
  · rintro h ⟨b, s⟩ ⟨_, t⟩ ⟨rfl, hst⟩
    obtain ⟨r, b', s', t', hx, hy, h'⟩ := h b s t hst
    rw [hx, hy]
    cases r with
    | ok a => exact ⟨.ok rfl, rfl, h'⟩
    | error f => exact ⟨.error f, rfl, h'⟩
  · intro h b s t hst
    obtain ⟨hends, hb, hst'⟩ := h ⟨b, s⟩ ⟨b, t⟩ ⟨rfl, hst⟩
    refine ⟨(x.run ⟨b, s⟩).1, (x.run ⟨b, s⟩).2.bindings, _, _, rfl, ?_, hst'⟩
    rw [hb]
    exact Prod.ext (endsAlike_eq_iff.1 hends).symm rfl

namespace Related

variable {R : σ → τ → Prop}

theorem pure (a : α) : Related R (Pure.pure a) (Pure.pure a) := related_iff.2 (.pure rfl)

theorem bind {x : Run σ α} {y : Run τ α} {f : α → Run σ β} {g : α → Run τ β}
    (hxy : Related R x y) (hfg : ∀ a, Related R (f a) (g a)) : Related R (x >>= f) (y >>= g) := by
  refine related_iff.2 ((related_iff.1 hxy).bind ?_)
  rintro a _ rfl
  exact related_iff.1 (hfg a)

theorem define (name : Symbol) (value : Value) :
    Related R (Run.define name value) (Run.define name value) := fun b s t h ↦
  ⟨.ok (), b.define name value, s, t, rfl, rfl, h⟩

theorem onWorld {work : σ → Except Fault α × σ} {work' : τ → Except Fault α × τ}
    (h : ∀ s t, R s t → (work s).1 = (work' t).1 ∧ R (work s).2 (work' t).2) :
    Related R (Run.onWorld work) (Run.onWorld work') := by
  intro b s t hst
  obtain ⟨hr, hw⟩ := h s t hst
  refine ⟨(work s).1, b, (work s).2, (work' t).2, rfl, ?_, hw⟩
  rw [hr]
  rfl

theorem resolveValue (symbols : SymbolTable) (v : Value) :
    Related R (Script.resolveValue symbols v) (Script.resolveValue symbols v) := by
  intro b s t h
  cases v with
  | symbol n =>
    exact ⟨_, b, s, t, run_resolveValue_symbol symbols n _, run_resolveValue_symbol symbols n _, h⟩
  | int n => exact Related.pure _ b s t h
  | float x => exact Related.pure _ b s t h
  | bool v => exact Related.pure _ b s t h

theorem requireValue (c : Command) (v : Option Value) :
    Related R (Script.requireValue c v) (Script.requireValue c v) := by
  cases v with
  | none => exact related_iff.2 (.throw _)
  | some v => exact Related.pure v

theorem raw {x : Deferred σ} {y : Deferred τ} (h : Related R x y) (c : Command) :
    Related R (x.raw c) (y.raw c) :=
  h.bind fun v ↦ Related.requireValue c v

theorem value {x : Deferred σ} {y : Deferred τ} (h : Related R x y) (symbols : SymbolTable)
    (c : Command) : Related R (x.value symbols c) (y.value symbols c) :=
  (h.raw c).bind fun v ↦ Related.resolveValue symbols v

theorem mapM {ι κ : Type} {xs : List ι} {ys : List κ} {f : ι → Run σ α} {g : κ → Run τ α}
    (h : List.Forall₂ (fun x y ↦ Related R (f x) (g y)) xs ys) :
    Related R (xs.mapM f) (ys.mapM g) := by
  refine related_iff.2 ((Alongside.mapM (h.imp fun x y ↦ related_iff.1)).imp fun as bs has ↦ ?_)
  rwa [List.forall₂_eq_eq_eq] at has

end Related

end Run

/-- Hosts that do alike in related worlds.  A host is only ever asked for
commands for the board, with as many values as they take. -/
structure Host.Related (R : σ → τ → Prop) (host : Host σ) (host' : Host τ) : Prop where
  perform : ∀ (c : Command) (args : List Value) (s : σ) (t : τ), c.isForBoard = true →
    args.length = c.arity → R s t →
    (host.perform c args s).1 = (host'.perform c args t).1 ∧
      R (host.perform c args s).2 (host'.perform c args t).2
  print : ∀ (line : String) (s : σ) (t : τ), R s t → R (host.print line s) (host'.print line t)

variable {R : σ → τ → Prop} {host : Host σ} {host' : Host τ}

theorem execute_related (h : Host.Related R host host') (symbols : SymbolTable) {c : Command}
    (hc : c.kind ≠ .special) (args : List Value) {s : σ} {t : τ} (hst : R s t) :
    (execute host symbols c args s).1 = (execute host' symbols c args t).1 ∧
      R (execute host symbols c args s).2 (execute host' symbols c args t).2 := by
  obtain ⟨v, rfl, rfl⟩ | ⟨hb, hn, he⟩ | ⟨r, he, -⟩ := execute_cases symbols args hc
  · exact ⟨rfl, h.print _ s t hst⟩
  · rw [he host, he host']
    exact h.perform c args s t hb hn hst
  · rw [he host, he host']
    exact ⟨rfl, hst⟩

/-- Related hosts make no difference to calls. -/
theorem Host.Related.parallel (h : Host.Related R host host') (symbols : SymbolTable) :
    Run.Parallel host host' symbols symbols
      (fun s t ↦ s.bindings = t.bindings ∧ R s.world t.world) Eq Eq where
  raw _ _ hv := hv
  bool _ := rfl
  kind_eq _ _ := congrArg Value.kind
  isTrue_eq _ _ := congrArg Value.isTrue
  resolveValue := by
    rintro v _ rfl
    exact Run.related_iff.1 (.resolveValue symbols v)
  define := by
    rintro n _ v _ hn rfl
    cases hn
    exact (Run.related_iff.1 (.define n v)).imp fun _ _ _ ↦ trivial
  execute := by
    intro c args args' hc hargs
    rw [List.forall₂_eq_eq_eq] at hargs
    subst hargs
    exact Run.related_iff.1 (.onWorld fun s t hst ↦ execute_related h symbols hc args hst)

/-- Calls on arguments that do alike do alike. -/
theorem call_related (h : Host.Related R host host') (symbols : SymbolTable) (c : Command)
    {args : List (Deferred σ)} {args' : List (Deferred τ)}
    (hargs : List.Forall₂ (Run.Related R) args args') :
    Run.Related R (call host symbols c args) (call host' symbols c args') := by
  refine Run.related_iff.2 ((h.parallel symbols).call c (hargs.imp fun x y hxy ↦ ?_))
  refine (Run.related_iff.1 hxy).imp fun v w hvw ↦ ?_
  cases hvw
  cases v with
  | none => exact .none
  | some v => exact .some rfl

mutual

theorem evalTerm_related (h : Host.Related R host host') (symbols : SymbolTable) :
    (t : Term) → Run.Related R (evalTerm host symbols t) (evalTerm host' symbols t)
  | .literal v => .pure v
  | .symbol s => .pure (Value.symbol s)
  | .call c args => call_related h symbols c (deferred_related h symbols args)

/-- A script does alike against related hosts. -/
theorem evalBlock_related (h : Host.Related R host host') (symbols : SymbolTable) :
    (block : Block) → Run.Related R (evalBlock host symbols block) (evalBlock host' symbols block)
  | [] => .pure none
  | t :: ts => (evalTerm_related h symbols t).bind fun first ↦
      (evalBlock_related h symbols ts).bind fun last ↦ .pure (some (last.getD first))

theorem deferred_related (h : Host.Related R host host') (symbols : SymbolTable) :
    (args : List Block) →
      List.Forall₂ (Run.Related R) (deferred host symbols args) (deferred host' symbols args)
  | [] => .nil
  | b :: bs => .cons (evalBlock_related h symbols b) (deferred_related h symbols bs)

end

/-- A host that keeps books beside its world, and otherwise does the same. -/
theorem Host.Related.of_books {κ : Type} {host : Host σ} {host' : Host (σ × κ)}
    (hperform : ∀ c args w, host.perform c args w.1 =
      ((host'.perform c args w).1, (host'.perform c args w).2.1))
    (hprint : ∀ line w, host.print line w.1 = (host'.print line w).1) :
    Host.Related (fun s w ↦ s = w.1) host host' where
  perform := by
    rintro c args _ w - - rfl
    rw [hperform]
    exact ⟨rfl, rfl⟩
  print := by
    rintro line _ w rfl
    exact hprint line w

/-- A script does not see the books that its host keeps. -/
theorem Block.run_of_books {κ : Type} {host : Host σ} {host' : Host (σ × κ)}
    (h : Host.Related (fun s w ↦ s = w.1) host host') (symbols : SymbolTable) (block : Block)
    (bindings : Bindings) (s : σ) (books : κ) :
    let run := block.run host' symbols bindings (s, books)
    block.run host symbols bindings s = (run.1, ⟨run.2.bindings, run.2.world.1⟩) := by
  obtain ⟨r, b, s', w, hs, hw, rfl⟩ := evalBlock_related h symbols block bindings s (s, books) rfl
  rw [Block.run, Block.run, hs, hw]

/-- What the host keeps with everything that it can be asked for, a script keeps. -/
theorem Block.run_keeps (Inv : σ → Prop) (host : Host σ)
    (hperform : ∀ (c : Command) (args : List Value) (s : σ), c.isForBoard = true →
      args.length = c.arity → Inv s → Inv (host.perform c args s).2)
    (hprint : ∀ line s, Inv s → Inv (host.print line s)) (symbols : SymbolTable) (block : Block)
    (bindings : Bindings) {s : σ} (hs : Inv s) :
    Inv (block.run host symbols bindings s).2.world := by
  have hrel : Host.Related (fun s t ↦ s = t ∧ Inv s) host host :=
    ⟨fun c args s t hc hn hst ↦ ⟨by rw [hst.1], by rw [hst.1], hperform c args s hc hn hst.2⟩,
      fun line s t hst ↦ ⟨by rw [hst.1], hprint line s hst.2⟩⟩
  obtain ⟨r, b, s', t', hx, -, -, hinv⟩ :=
    evalBlock_related hrel symbols block bindings s s ⟨rfl, hs⟩
  rw [Block.run, hx]
  exact hinv

end Skirmish.Script
