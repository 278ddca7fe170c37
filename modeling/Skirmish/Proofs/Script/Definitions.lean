import Skirmish.Proofs.Script.Numbering

/-!
# What a run defines

The name that a definition is for is computed: its first argument is a block like any
other, and a conditional in it can choose between names.  What it comes to is not looked
up, though, and operators and hosts have no names for results.  So a name comes out of a
block only if it stands there (`evalBlock_confined`), and the names that stand in the
first arguments of definitions are all that a run can give values to.

Main statement: no other variable changes, and none is taken back (`run_confined`).
-/

namespace Skirmish.Script

variable {σ : Type}

/-! ## The calls and the names of a block -/

mutual

/-- The calls in a term, those in its arguments included. -/
def Term.callList : Term → List (Command × List Block)
  | .literal _ | .symbol _ => []
  | .call c args => (c, args) :: argumentCallList args

/-- The calls in a block. -/
def blockCallList : List Term → List (Command × List Block)
  | [] => []
  | t :: ts => t.callList ++ blockCallList ts

/-- The calls in the arguments of a call. -/
def argumentCallList : List (List Term) → List (Command × List Block)
  | [] => []
  | b :: bs => blockCallList b ++ argumentCallList bs

end

mutual

/-- The names that stand in a term, literals included. -/
def Term.symbolList : Term → List Symbol
  | .literal v => v.toSymbol?.toList
  | .symbol s => [s]
  | .call _ args => argumentSymbolList args

/-- The names that stand in a block. -/
def blockSymbolList : List Term → List Symbol
  | [] => []
  | t :: ts => t.symbolList ++ blockSymbolList ts

/-- The names that stand in the arguments of a call. -/
def argumentSymbolList : List (List Term) → List Symbol
  | [] => []
  | b :: bs => blockSymbolList b ++ argumentSymbolList bs

end

theorem mem_argumentSymbolList {args : List Block} {b : Block} (hb : b ∈ args) {n : Symbol}
    (hn : n ∈ blockSymbolList b) : n ∈ argumentSymbolList args := by
  induction args with
  | nil => cases hb
  | cons a args ih =>
    obtain rfl | hb := List.mem_cons.1 hb
    · exact List.mem_append_left _ hn
    · exact List.mem_append_right _ (ih hb)

/-- The name stands in the first argument of one of the definitions. -/
def IsNameToDefine (calls : List (Command × List Block)) (n : Symbol) : Prop :=
  ∃ name rest, (Command.define, name :: rest) ∈ calls ∧ n ∈ blockSymbolList name

theorem IsNameToDefine.mono {calls calls' : List (Command × List Block)} {n : Symbol}
    (h : IsNameToDefine calls n) (hsub : calls ⊆ calls') : IsNameToDefine calls' n := by
  obtain ⟨name, rest, hmem, hn⟩ := h
  exact ⟨name, rest, hsub hmem, hn⟩

/-! ## Variables that are kept -/

/-- Since the start, only names of one kind have been given values, and no name has lost
its value. -/
structure Bindings.Confined (T : Symbol → Prop) (start b : Bindings) : Prop where
  lookup?_eq : ∀ n, ¬ T n → b.lookup? n = start.lookup? n
  isSome_lookup? : ∀ n, (start.lookup? n).isSome = true → (b.lookup? n).isSome = true

namespace Bindings.Confined

variable {T : Symbol → Prop} {start b : Bindings}

theorem refl (T : Symbol → Prop) (start : Bindings) : start.Confined T start :=
  ⟨fun _ _ ↦ rfl, fun _ h ↦ h⟩

theorem define (h : start.Confined T b) {n : Symbol} (hn : T n) (v : Value) :
    start.Confined T (b.define n v) where
  lookup?_eq m hm := by
    have hne : m ≠ n := fun e ↦ hm (e ▸ hn)
    rw [lookup?_define, if_neg hne, h.lookup?_eq m hm]
  isSome_lookup? m hm := by
    rw [lookup?_define]
    split
    · rfl
    · exact h.isSome_lookup? m hm

end Bindings.Confined

/-- If the value is a name, then it is of this kind. -/
def Value.NameIn (P : Symbol → Prop) (v : Value) : Prop := ∀ s, v = .symbol s → P s

theorem Value.nameIn_of_isSymbol {P : Symbol → Prop} {v : Value} (h : v.isSymbol = false) :
    v.NameIn P := by
  rintro s rfl
  cases h

/-! ## Running confined -/

section Confined

variable (symbols : SymbolTable) {T : Symbol → Prop} {start : Bindings}

/-- Work that keeps the variables confined, and has a result with `P` unless it fails. -/
abbrev Run.KeepsConfined {α : Type} (T : Symbol → Prop) (start : Bindings) (P : α → Prop)
    (x : Run σ α) : Prop :=
  Run.Keeps (fun s ↦ start.Confined T s.bindings) P (fun _ ↦ True) x

theorem resolveValue_confined (v : Value) :
    Run.KeepsConfined T start (fun _ ↦ True) (resolveValue symbols v : Run σ Value) := by
  cases v with
  | symbol n =>
    intro s hs
    rw [run_resolveValue_symbol]
    refine ⟨hs, ?_⟩
    cases s.bindings.lookup? n <;> exact trivial
  | int n => exact .pure trivial
  | float x => exact .pure trivial
  | bool b => exact .pure trivial

theorem requireName_confined {P : Symbol → Prop} {v : Value} (hv : v.NameIn P) :
    Run.KeepsConfined T start P (requireName v : Run σ Symbol) := by
  cases v with
  | symbol s => exact .pure (hv s rfl)
  | int n => exact .throw trivial
  | float x => exact .throw trivial
  | bool b => exact .throw trivial

theorem define_confined {n : Symbol} (hn : T n) (v : Value) :
    Run.KeepsConfined T start (fun _ ↦ True) (Run.define n v : Run σ Unit) :=
  fun _ hs ↦ ⟨hs.define hn v, trivial⟩

/-- The value of an argument is a name only if the name stands in the argument. -/
abbrev Deferred.YieldsNameOf (T : Symbol → Prop) (start : Bindings) (b : Block)
    (arg : Deferred σ) : Prop :=
  Run.KeepsConfined T start (fun v ↦ ∀ a, v = some a → a.NameIn (· ∈ blockSymbolList b)) arg

variable {arg : Deferred σ} {b : Block}

theorem Deferred.YieldsNameOf.raw (h : arg.YieldsNameOf T start b) (c : Command) :
    Run.KeepsConfined T start (·.NameIn (· ∈ blockSymbolList b)) (arg.raw c) := by
  refine h.bind fun v hv ↦ ?_
  cases v with
  | none => exact .throw trivial
  | some a => exact .pure (hv a rfl)

theorem Deferred.YieldsNameOf.value (h : arg.YieldsNameOf T start b) (c : Command) :
    Run.KeepsConfined T start (fun _ ↦ True) (arg.value symbols c) :=
  (h.raw c).bind fun v _ ↦ resolveValue_confined symbols v

variable {host : Host σ}

/-- What is carried out on values has no name for a result, unless the host has one. -/
theorem execute_neverNames (hhost : host.NeverNames) (c : Command) (args : List Value) (w : σ) :
    Resolves (fun _ ↦ True) (execute host symbols c args w).1 := by
  unfold execute
  split
  iterate 3 exact Value.arithmetic_neverNames ..
  · exact Value.div_neverNames ..
  · exact rfl
  iterate 4
    dsimp only
    exact Value.comparison_neverNames ..
  · exact rfl
  · exact rfl
  · split
    · exact hhost.resolves ..
    · exact trivial

theorem execute_confined (hhost : host.NeverNames) (c : Command) (args : List Value) :
    Run.KeepsConfined T start (·.isSymbol = false)
      (Run.onWorld (execute host symbols c args)) :=
  fun s hs ↦ ⟨hs, execute_neverNames symbols hhost c args s.world⟩

/-- A call yields a name only if the name stands in one of its arguments.  It keeps the
variables confined if its arguments do, and if it defines no name but one of those that it
may. -/
theorem call_confined (hhost : host.NeverNames) {c : Command} {args : List Block}
    (hT : ∀ n, IsNameToDefine [(c, args)] n → T n)
    (hargs : ∀ b ∈ args, Deferred.YieldsNameOf T start b (evalBlock host symbols b)) :
    Run.KeepsConfined T start (·.NameIn (· ∈ argumentSymbolList args))
      (call host symbols c (deferred host symbols args)) := by
  have hbool : ∀ b, (Value.bool b).NameIn (· ∈ argumentSymbolList args) :=
    fun b ↦ Value.nameIn_of_isSymbol rfl
  have hraw : ∀ {b}, b ∈ args → Run.KeepsConfined T start (·.NameIn (· ∈ argumentSymbolList args))
      (Deferred.raw (evalBlock host symbols b) c) := fun hb ↦
    ((hargs _ hb).raw c).imp fun v hv s hs ↦ mem_argumentSymbolList hb (hv s hs)
  have hvalue : ∀ {b}, b ∈ args → Run.KeepsConfined T start (fun _ ↦ True)
      (Deferred.value (evalBlock host symbols b) symbols c) := fun hb ↦ (hargs _ hb).value symbols c
  rw [deferred_eq_map]
  by_cases hc : c.kind = .special
  · by_cases hn : args.length = c.arity
    · cases c
      case define =>
        obtain ⟨x, y, rfl⟩ := List.length_eq_two.1 hn
        have hname : ∀ n ∈ blockSymbolList x, T n :=
          fun n hn ↦ hT n ⟨x, [y], List.mem_singleton_self _, hn⟩
        refine ((hargs x (by simp)).raw .define).bind fun v hv ↦ ?_
        refine (requireName_confined hv).bind fun n hn ↦ (hvalue (by simp)).bind fun w _ ↦ ?_
        exact (define_confined (hname n hn) w).bind fun _ _ ↦ .pure (hbool true)
      case ifElse =>
        obtain ⟨x, y, z, rfl⟩ := List.length_eq_three.1 hn
        refine (hvalue (b := x) (by simp)).bind fun v _ ↦ ?_
        cases v.isTrue
        · exact hraw (by simp)
        · exact hraw (by simp)
      case and =>
        obtain ⟨x, y, rfl⟩ := List.length_eq_two.1 hn
        refine (hvalue (b := x) (by simp)).bind fun v _ ↦ ?_
        cases v.isTrue
        · exact .pure (hbool false)
        · exact (hvalue (b := y) (by simp)).bind fun w _ ↦ .pure (hbool w.isTrue)
      case or =>
        obtain ⟨x, y, rfl⟩ := List.length_eq_two.1 hn
        refine (hvalue (b := x) (by simp)).bind fun v _ ↦ ?_
        cases v.isTrue
        · exact (hvalue (b := y) (by simp)).bind fun w _ ↦ .pure (hbool w.isTrue)
        · exact .pure (hbool true)
      all_goals cases hc
    · rw [call_special host symbols hc (by rwa [List.length_map])]
      exact .throw trivial
  · rw [call_plain host symbols hc]
    refine (Run.Keeps.mapM (P := fun _ ↦ True) ?_).bind fun values _ ↦ ?_
    · intro arg harg
      obtain ⟨b, hb, rfl⟩ := List.mem_map.1 harg
      exact hvalue hb
    · exact (execute_confined symbols hhost c values).imp fun v hv ↦ Value.nameIn_of_isSymbol hv

mutual

theorem evalTerm_confined (hhost : host.NeverNames) :
    (t : Term) → (∀ n, IsNameToDefine t.callList n → T n) →
      Run.KeepsConfined T start (·.NameIn (· ∈ t.symbolList)) (evalTerm host symbols t)
  | .literal v, _ => .pure fun s hs ↦ by
    subst hs
    exact List.mem_singleton_self s
  | .symbol s, _ => .pure fun s' hs ↦ by
    cases hs
    exact List.mem_singleton_self s
  | .call c args, hT =>
    call_confined symbols hhost (fun n hn ↦ hT n (hn.mono (by simp [Term.callList])))
      (evalBlock_confined_of_mem hhost args fun n hn ↦
        hT n (hn.mono (List.subset_cons_self _ _)))

/-- A block yields a name only if the name stands in it, and it gives values to such names
only as stand in the first arguments of its definitions. -/
theorem evalBlock_confined (hhost : host.NeverNames) :
    (block : Block) → (∀ n, IsNameToDefine (blockCallList block) n → T n) →
      Deferred.YieldsNameOf T start block (evalBlock host symbols block)
  | [], _ => .pure nofun
  | t :: ts, hT =>
    (evalTerm_confined hhost t fun n hn ↦ hT n (hn.mono (List.subset_append_left _ _))).bind
      fun first hfirst ↦
        (evalBlock_confined hhost ts fun n hn ↦
          hT n (hn.mono (List.subset_append_right _ _))).bind fun last hlast ↦ .pure (by
          rintro _ ⟨⟩ s hs
          cases last with
          | none => exact List.mem_append_left _ (hfirst s hs)
          | some a => exact List.mem_append_right _ (hlast a rfl s hs))

theorem evalBlock_confined_of_mem (hhost : host.NeverNames) :
    (args : List Block) → (∀ n, IsNameToDefine (argumentCallList args) n → T n) →
      ∀ b ∈ args, Deferred.YieldsNameOf T start b (evalBlock host symbols b)
  | [], _ => nofun
  | b :: bs, hT => List.forall_mem_cons.2
    ⟨evalBlock_confined hhost b fun n hn ↦ hT n (hn.mono (List.subset_append_left _ _)),
      evalBlock_confined_of_mem hhost bs fun n hn ↦
        hT n (hn.mono (List.subset_append_right _ _))⟩

end

end Confined

/-- Whatever a block is run with, as long as the host never answers with a name:

* no variable that has a value loses it;
* every variable that is given a value, or another one, stands in the first argument of
  one of the definitions in the block, as a name or as a literal;
* so nothing changes where there is no definition. -/
theorem run_confined {host : Host σ} (hhost : host.NeverNames) (symbols : SymbolTable)
    (block : Block) (bindings : Bindings) (world : σ) :
    let after := (block.run host symbols bindings world).2.bindings
    (∀ n, (bindings.lookup? n).isSome = true → (after.lookup? n).isSome = true) ∧
    (∀ n, after.lookup? n ≠ bindings.lookup? n →
      ∃ name rest, (Command.define, name :: rest) ∈ blockCallList block ∧
        n ∈ blockSymbolList name) ∧
    ((∀ args, (Command.define, args) ∉ blockCallList block) →
      ∀ n, after.lookup? n = bindings.lookup? n) := by
  intro after
  obtain ⟨hkept, -⟩ := evalBlock_confined (T := IsNameToDefine (blockCallList block)) symbols hhost
    block (fun _ h ↦ h) ⟨bindings, world⟩ (.refl _ bindings)
  refine ⟨hkept.isSome_lookup?, fun n hn ↦ ?_, fun hnone n ↦ ?_⟩
  · by_contra hname
    exact hn (hkept.lookup?_eq n hname)
  · refine hkept.lookup?_eq n ?_
    rintro ⟨name, rest, hmem, -⟩
    exact hnone _ hmem

/-- The first definition is for the second name of a conditional; the other one is for the
first name, and comes to nothing, because the host refuses. -/
theorem run_confined_chosen :
    let block : Block := [
      .call .define [[.call .ifElse [[.literal (.int 0)], [.symbol ⟨1⟩], [.symbol ⟨2⟩]]],
        [.literal (.int 7)]],
      .call .define [[.symbol ⟨1⟩], [.call .wait []]]]
    let before := Bindings.empty.define ⟨1⟩ (.bool true)
    let run := block.run Host.refusing .new before ()
    Host.refusing.NeverNames ∧ run.1 = .error (.invalidArgument .wait .unitGone) ∧
      (run.2.bindings.lookup? ⟨1⟩).isSome = true ∧
      run.2.bindings.lookup? ⟨2⟩ = some (.int 7) ∧
      (∃ name rest, (Command.define, name :: rest) ∈ blockCallList block ∧
        ⟨2⟩ ∈ blockSymbolList name) ∧
      ∀ n, (Block.run Host.refusing .new [.symbol ⟨1⟩] before ()).2.bindings.lookup? n =
        before.lookup? n := by
  intro block before run
  have hhost : Host.refusing.NeverNames := fun _ _ _ _ h ↦ nomatch h
  have hgiven : run.2.bindings.lookup? ⟨2⟩ = some (.int 7) := rfl
  obtain ⟨hbound, hnamed, -⟩ := run_confined hhost .new block before ()
  obtain ⟨-, -, hnone⟩ := run_confined hhost .new [.symbol ⟨1⟩] before ()
  refine ⟨hhost, rfl, hbound ⟨1⟩ rfl, hgiven, hnamed ⟨2⟩ ?_, hnone nofun⟩
  rw [hgiven]
  nofun

end Skirmish.Script
