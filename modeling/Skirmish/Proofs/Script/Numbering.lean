import Skirmish.Proofs.Script.Exchanges
import Skirmish.Proofs.Script.Renaming
import Skirmish.Proofs.Script.Resolution

/-!
# Scripts do not see the numbers of names

Two alike blocks are run side by side, each over its own table, on variables that
are alike and with hosts that answer alike.  The values of variables are related
by some `V` that is no coarser than being alike (`Value.Likeness`): with no names
among them it is equality, and then the hosts need not be told anything about
numbers.

Main statement: the runs ask and print the same in the same order, end alike and
leave alike variables (`BlockAlike.run`).

That the hosts answer alike has to be asked for.  Not answering with names is not
enough: `Host.numbering` never does, and answers with their numbers instead.
-/

namespace Skirmish.Script

variable {σ τ : Type} {t u : SymbolTable} {V : Value → Value → Prop}

/-! ## Operators

Whatever they are given, operators have no names for results. -/

namespace Value

theorem arithmetic_neverNames (c : Command) (onInts : Int → Int → Int)
    (onFloats : Float → Float → Float) (a b : Value) :
    Resolves (fun _ ↦ True) (arithmetic c onInts onFloats a b) := by
  unfold arithmetic
  split
  · exact (exactly_resolves c _).mono fun _ _ ↦ trivial
  · cases asFloats c a.counted b.counted with
    | ok xy => exact isSymbol_number _
    | error f => exact trivial

theorem comparison_neverNames (c : Command) (onInts : Int64 → Int64 → Bool)
    (onFloats : Float → Float → Bool) (a b : Value) :
    Resolves (fun _ ↦ True) (comparison c onInts onFloats a b) := by
  unfold comparison
  split
  · exact rfl
  · cases asFloats c a.counted b.counted with
    | ok xy => exact rfl
    | error f => exact trivial

theorem divFloats_neverNames (a b : Value) : Resolves (fun _ ↦ True) (divFloats a b) := by
  unfold divFloats
  split
  · exact trivial
  · split
    · exact trivial
    · exact isSymbol_number _

theorem div_neverNames (a b : Value) : Resolves (fun _ ↦ True) (div a b) := by
  unfold div
  split
  · split
    · exact trivial
    · split
      · exact (exactly_resolves .div _).mono fun _ _ ↦ trivial
      · exact divFloats_neverNames _ _
  · exact divFloats_neverNames _ _

end Value

/-! ## Related values -/

/-- A relation of values that are alike, among them every value that is no name. -/
structure Value.Likeness (t u : SymbolTable) (V : Value → Value → Prop) : Prop where
  alike : ∀ v v', V v v' → v.Alike t u v'
  refl : ∀ v, v.isSymbol = false → V v v

/-- The same value, which is no name. -/
def Value.SamePlain (v v' : Value) : Prop := v = v' ∧ v.isSymbol = false

theorem Value.Likeness.of_alike : Likeness t u (Value.Alike t u) :=
  ⟨fun _ _ h ↦ h, fun _ ↦ alike_of_isSymbol⟩

theorem Value.Likeness.of_samePlain : Likeness t u Value.SamePlain where
  alike := by
    rintro v _ ⟨rfl, hv⟩
    exact alike_of_isSymbol hv
  refl _ hv := ⟨rfl, hv⟩

/-- Equal results without names are related. -/
theorem Value.Likeness.endsAlike (hV : Likeness t u V) {r r' : Except Fault Value} (h : r = r')
    (hr : Resolves (fun _ ↦ True) r) : EndsAlike V r r' := by
  subst h
  cases r with
  | ok v => exact .ok (hV.refl v hr)
  | error f => exact .error f

/-! ## Variables -/

namespace Bindings

/-- The same names have values, and their values are related. -/
structure AlikeBy (t u : SymbolTable) (V : Value → Value → Prop) (b b' : Bindings) : Prop where
  left : ∀ n v, b.lookup? n = some v → ∃ m v', n.Matches t u m ∧ b'.lookup? m = some v' ∧ V v v'
  right : ∀ m v', b'.lookup? m = some v' → ∃ n v, n.Matches t u m ∧ b.lookup? n = some v ∧ V v v'

/-- The same variables, but for the numbers of names. -/
abbrev Alike (t u : SymbolTable) : Bindings → Bindings → Prop := AlikeBy t u (Value.Alike t u)

variable {b b' : Bindings}

theorem alikeBy_empty : AlikeBy t u V empty empty := ⟨nofun, nofun⟩

namespace AlikeBy

theorem imp {W : Value → Value → Prop} (h : b.AlikeBy t u V b') (hVW : ∀ v v', V v v' → W v v') :
    b.AlikeBy t u W b' where
  left n v hv := by
    obtain ⟨m, v', hn, hv', hvv'⟩ := h.left n v hv
    exact ⟨m, v', hn, hv', hVW v v' hvv'⟩
  right m v' hv' := by
    obtain ⟨n, v, hn, hv, hvv'⟩ := h.right m v' hv'
    exact ⟨n, v, hn, hv, hVW v v' hvv'⟩

/-- Symbols that match have related values, or none. -/
theorem lookup? (h : b.AlikeBy t u V b') {n m : Symbol} (hn : n.Matches t u m) :
    Option.Rel V (b.lookup? n) (b'.lookup? m) := by
  cases hv : b.lookup? n with
  | some v =>
    obtain ⟨m', v', hn', hv', hvv'⟩ := h.left n v hv
    rw [(hn.eq_iff hn').1 rfl, hv']
    exact .some hvv'
  | none =>
    cases hv' : b'.lookup? m with
    | none => exact .none
    | some v' =>
      obtain ⟨n', v, hn', hv'', -⟩ := h.right m v' hv'
      rw [(hn.eq_iff hn').2 rfl, hv''] at hv
      cases hv

theorem define (h : b.AlikeBy t u V b') {n m : Symbol} (hn : n.Matches t u m) {v v' : Value}
    (hv : V v v') : (b.define n v).AlikeBy t u V (b'.define m v') where
  left k w hw := by
    rw [lookup?_define] at hw
    split at hw
    next hk =>
      cases hw
      exact ⟨m, v', hk ▸ hn, by rw [lookup?_define, if_pos rfl], hv⟩
    next hk =>
      obtain ⟨l, w', hkl, hw', hww'⟩ := h.left k w hw
      have hl : l ≠ m := mt (hkl.eq_iff hn).2 hk
      exact ⟨l, w', hkl, by rw [lookup?_define, if_neg hl, hw'], hww'⟩
  right l w' hw' := by
    rw [lookup?_define] at hw'
    split at hw'
    next hl =>
      cases hw'
      exact ⟨n, v, hl ▸ hn, by rw [lookup?_define, if_pos rfl], hv⟩
    next hl =>
      obtain ⟨k, w, hkl, hw, hww'⟩ := h.right l w' hw'
      have hk : k ≠ n := mt (hkl.eq_iff hn).1 hl
      exact ⟨k, w, hkl, by rw [lookup?_define, if_neg hk, hw], hww'⟩

end AlikeBy

/-- Alike variables have equal values if these are no names. -/
theorem Alike.samePlain (h : b.Alike t u b') (hb : b.Resolved) :
    b.AlikeBy t u Value.SamePlain b' where
  left n v hv := by
    obtain ⟨m, v', hn, hv', hvv'⟩ := h.left n v hv
    exact ⟨m, v', hn, hv', hvv'.eq_of_isSymbol (hb n v hv), hb n v hv⟩
  right m v' hv' := by
    obtain ⟨n, v, hn, hv, hvv'⟩ := h.right m v' hv'
    exact ⟨n, v, hn, hv, hvv'.eq_of_isSymbol (hb n v hv), hb n v hv⟩

end Bindings

/-! ## Hosts -/

/-- Hosts that end alike in related worlds, when they are handed related values. -/
structure Host.AlikeBy (V : Value → Value → Prop) (R : σ → τ → Prop) (host : Host σ)
    (host' : Host τ) : Prop where
  perform : ∀ (c : Command) (args args' : List Value) (s : σ) (w : τ), c.isForBoard = true →
    args.length = c.arity → List.Forall₂ V args args' → R s w →
    EndsAlike V (host.perform c args s).1 (host'.perform c args' w).1 ∧
      R (host.perform c args s).2 (host'.perform c args' w).2
  print : ∀ (line : String) (s : σ) (w : τ), R s w → R (host.print line s) (host'.print line w)

section Running

variable {R : σ → τ → Prop} {host : Host σ} {host' : Host τ}

/-- Commands that run all their arguments do alike. -/
theorem execute_alike (hV : Value.Likeness t u V) (h : host.AlikeBy V R host') {c : Command}
    (hc : c.kind ≠ .special) {args args' : List Value} (hargs : List.Forall₂ V args args')
    {s : σ} {w : τ} (hsw : R s w) :
    EndsAlike V (execute host t c args s).1 (execute host' u c args' w).1 ∧
      R (execute host t c args s).2 (execute host' u c args' w).2 := by
  by_cases hn : args.length = c.arity
  · have hn' : args'.length = c.arity := hargs.length_eq.symm.trans hn
    cases hb : c.isForBoard with
    | true =>
      rw [execute_of_isForBoard host t hb hn, execute_of_isForBoard host' u hb hn']
      exact h.perform c args args' s w hb hn hargs hsw
    | false =>
      cases c
      case define | ifElse | and | or => exact absurd rfl hc
      case attack | chargeAttack | move | spawn | wait | defend | fortify | unitId | turnNumber
          | adjacentAllies | adjacentEnemies | totalAllies | totalEnemies | closestAlly
          | closestEnemy | unitLimit => cases hb
      case print =>
        obtain ⟨v, v', hv, rfl, rfl⟩ := exists_single hargs hn
        dsimp only [execute]
        rw [(hV.alike v v' hv).text_eq]
        exact ⟨.ok (hV.refl _ rfl), h.print _ s w hsw⟩
      case not =>
        obtain ⟨v, v', hv, rfl, rfl⟩ := exists_single hargs hn
        dsimp only [execute]
        rw [(hV.alike v v' hv).isTrue_eq]
        exact ⟨.ok (hV.refl _ rfl), hsw⟩
      all_goals
        obtain ⟨a, a', b, b', ha, hb, rfl, rfl⟩ := exists_pair hargs hn
        replace ha := hV.alike a a' ha
        replace hb := hV.alike b b' hb
        refine ⟨?_, hsw⟩
        dsimp only [execute]
      case add | sub | mul =>
        exact hV.endsAlike (ha.arithmetic_eq hb ..) (Value.arithmetic_neverNames ..)
      case div => exact hV.endsAlike (ha.div_eq hb) (Value.div_neverNames a b)
      case equal => exact hV.endsAlike (by rw [ha.equal_eq hb]) rfl
      case greater | greaterEqual | less | lessEqual =>
        exact hV.endsAlike (ha.comparison_eq hb ..) (Value.comparison_neverNames ..)
  · have hn' : args'.length ≠ c.arity := hargs.length_eq ▸ hn
    rw [execute_of_length_ne host t hn, execute_of_length_ne host' u hn', hargs.length_eq]
    exact ⟨.error _, hsw⟩

/-- Variables are alike, and worlds are related. -/
structure StatesAlike (t u : SymbolTable) (V : Value → Value → Prop) (R : σ → τ → Prop)
    (s : RunState σ) (w : RunState τ) : Prop where
  bindings : s.bindings.AlikeBy t u V w.bindings
  world : R s.world w.world

theorem resolveValue_alike (hV : Value.Likeness t u V) {v v' : Value} (hv : v.Alike t u v') :
    Alongside (StatesAlike t u V R) V (resolveValue t v) (resolveValue u v') := by
  cases hv with
  | symbol hn =>
    intro s w hsw
    rw [run_resolveValue_symbol, run_resolveValue_symbol, hn.lookup]
    exact ⟨.of_option (hsw.bindings.lookup? hn) _, hsw⟩
  | int n => exact .pure (hV.refl _ rfl)
  | float x => exact .pure (hV.refl _ rfl)
  | bool b => exact .pure (hV.refl _ rfl)

/-- Alike variables and hosts make no difference to calls. -/
theorem Host.AlikeBy.parallel (hV : Value.Likeness t u V) (h : host.AlikeBy V R host') :
    Run.Parallel host host' t u (StatesAlike t u V R) (Value.Alike t u) V where
  raw := hV.alike
  bool _ := hV.refl _ rfl
  kind_eq _ _ := Value.Alike.kind_eq
  isTrue_eq _ _ := Value.Alike.isTrue_eq
  resolveValue _ _ := resolveValue_alike hV
  define := by
    rintro n n' v v' ⟨⟩ hv s w hsw
    next hn => exact ⟨.ok trivial, hsw.bindings.define hn hv, hsw.world⟩
  execute c args args' hc hargs s w hsw := by
    obtain ⟨hends, hR⟩ := execute_alike hV h hc hargs hsw.world
    exact ⟨hends, hsw.bindings, hR⟩

mutual

theorem Term.Alike.eval (hV : Value.Likeness t u V) (h : host.AlikeBy V R host') :
    {x y : Term} → x.Alike t u y →
      Alongside (StatesAlike t u V R) (Value.Alike t u) (evalTerm host t x) (evalTerm host' u y)
  | _, _, .literal hv => .pure hv
  | _, _, .symbol hn => .pure (.symbol hn)
  | _, _, .call c hargs => (h.parallel hV).call c (hargs.deferred hV h)

/-- Alike blocks do alike. -/
theorem BlockAlike.eval (hV : Value.Likeness t u V) (h : host.AlikeBy V R host') :
    {xs ys : Block} → BlockAlike t u xs ys →
      Alongside (StatesAlike t u V R) (Option.Rel (Value.Alike t u)) (evalBlock host t xs)
        (evalBlock host' u ys)
  | _, _, .nil => .pure .none
  | _, _, .cons hx hxs => (hx.eval hV h).bind fun first first' hfirst ↦
      (hxs.eval hV h).bind fun last last' hlast ↦ .pure (by
        cases hlast with
        | some hv => exact .some hv
        | none => exact .some hfirst)

theorem ArgumentsAlike.deferred (hV : Value.Likeness t u V) (h : host.AlikeBy V R host') :
    {bs bs' : List Block} → ArgumentsAlike t u bs bs' →
      List.Forall₂ (Alongside (StatesAlike t u V R) (Option.Rel (Value.Alike t u)))
        (Script.deferred host t bs) (Script.deferred host' u bs')
  | _, _, .nil => .nil
  | _, _, .cons hb hbs => .cons (hb.eval hV h) (hbs.deferred hV h)

end

end Running

/-! ## What is seen from outside -/

/-- Hosts that answer alike when they are handed related values, and print alike. -/
structure Host.AnswersAlike (V : Value → Value → Prop) (host host' : Host σ) : Prop where
  perform : ∀ (c : Command) (args args' : List Value) (w : σ), c.isForBoard = true →
    args.length = c.arity → List.Forall₂ V args args' →
    host.perform c args w = host'.perform c args' w
  print : ∀ (line : String) (w : σ), host.print line w = host'.print line w

/-- A host answers like itself if what it is handed is the same. -/
theorem Host.answersAlike_samePlain (host : Host σ) : host.AnswersAlike Value.SamePlain host where
  perform c args args' w _ _ hargs := by
    have hargs : List.Forall₂ Eq args args' := hargs.imp fun v v' hv ↦ hv.1
    rw [List.forall₂_eq_eq_eq] at hargs
    rw [hargs]
  print _ _ := rfl

/-- The same request with the same answer, or the same line, but for the numbers of
names. -/
inductive Event.Alike (t u : SymbolTable) : Event → Event → Prop
  | asked (c : Command) {args args' : List Value} (h : List.Forall₂ (Value.Alike t u) args args')
    (answer : Except Fault Value) : Alike t u (.asked ⟨c, args, answer⟩) (.asked ⟨c, args', answer⟩)
  | printed (line : String) : Alike t u (.printed line) (.printed line)

/-- Written down, the answers of two such hosts are alike as well. -/
theorem Host.AnswersAlike.narrating {host host' : Host σ} (h : host.AnswersAlike V host')
    (hV : Value.Likeness t u V) (hnever : host.NeverNames) :
    host.narrating.AlikeBy V
      (fun w w' ↦ w.1 = w'.1 ∧ List.Forall₂ (Event.Alike t u) w.2 w'.2) host'.narrating where
  perform := by
    rintro c args args' ⟨s, events⟩ ⟨_, events'⟩ hc hn hargs ⟨rfl, hevents⟩
    have heq := h.perform c args args' s hc hn hargs
    have hanswer : (host.perform c args s).1 = (host'.perform c args' s).1 := congrArg Prod.fst heq
    refine ⟨hV.endsAlike hanswer (hnever.resolves c args s), congrArg Prod.snd heq, ?_⟩
    refine List.rel_append hevents (.cons ?_ .nil)
    rw [← hanswer]
    exact .asked c (hargs.imp hV.alike) _
  print := by
    rintro line ⟨s, events⟩ ⟨_, events'⟩ ⟨rfl, hevents⟩
    exact ⟨h.print line s, List.rel_append hevents (.cons (.printed line) .nil)⟩

/-- Two alike blocks, run over their tables on alike variables, with hosts that
answer alike and never with names: they ask and print alike in the same order, end
alike, and leave alike variables and the same world. -/
theorem BlockAlike.run {block block' : Block} (hblock : BlockAlike t u block block')
    (hV : Value.Likeness t u V) {host host' : Host σ} (hhost : host.AnswersAlike V host')
    (hnever : host.NeverNames) {b b' : Bindings} (hb : b.AlikeBy t u V b') (w : σ) :
    let run := block.run host.narrating t b (w, [])
    let run' := block'.run host'.narrating u b' (w, [])
    EndsAlike (Option.Rel (Value.Alike t u)) run.1 run'.1 ∧
      run.2.bindings.Alike t u run'.2.bindings ∧
      run.2.world.1 = run'.2.world.1 ∧
      List.Forall₂ (Event.Alike t u) run.2.world.2 run'.2.world.2 := by
  obtain ⟨hends, hkept⟩ :=
    hblock.eval hV (hhost.narrating hV hnever) ⟨b, (w, [])⟩ ⟨b', (w, [])⟩ ⟨hb, rfl, .nil⟩
  exact ⟨hends, hkept.bindings.imp hV.alike, hkept.world.1, hkept.world.2⟩

/-! ## Hosts that give numbers away -/

/-- The number of the name that is handed over, and `true` if it is no name alone. -/
def nameNumber : List Value → Value
  | [.symbol s] => .int (Int64.ofNat s.index)
  | _ => .bool true

theorem isSymbol_nameNumber (args : List Value) : (nameNumber args).isSymbol = false := by
  unfold nameNumber
  split <;> rfl

/-- A host that is asked about names and answers with their numbers. -/
def Host.numbering : Host Unit where
  perform _ args w := (.ok (nameNumber args), w)
  print _ w := w

theorem Host.numbering_neverNames : numbering.NeverNames := by
  rintro c args w _ ⟨⟩
  exact isSymbol_nameNumber args

end Skirmish.Script
