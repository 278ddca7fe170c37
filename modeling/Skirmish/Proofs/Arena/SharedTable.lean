import Skirmish.Proofs.Arena.Answers
import Skirmish.Proofs.Script.Numbering

/-!
# Players share a table of names

All scripts of a match are compiled over one table, so the numbers of the names
in a script depend on the scripts of the other players.  No script can find out by
itself, and the board does not tell it: it does not look at the numbers of the
names that it is handed (`host_answersAlike`).

Main statement: which table a script is compiled over and run with makes no
difference (`numbering_unobserved`).  This is as far as it goes: a host that looks
at the numbers of names can tell them to a script whose variables have names for
their values (`numbering_observed`).
-/

namespace Skirmish.Arena

open Script Skirmish.Random

variable {ρ : Type} {t u : SymbolTable}

theorem chargeTurns_alike {v v' : Value} (h : v.Alike t u v') : chargeTurns v = chargeTurns v' := by
  cases h <;> rfl

/-- Orders have no names in them. -/
theorem Order.ofCall_alike (c : Command) {args args' : List Value}
    (h : List.Forall₂ (Value.Alike t u) args args') :
    Order.ofCall c args = Order.ofCall c args' := by
  cases c
  case chargeAttack =>
    match args, args', h with
    | [], [], .nil => rfl
    | [v], [v'], .cons hv .nil =>
      dsimp only [Order.ofCall]
      rw [chargeTurns_alike hv]
    | _ :: _ :: _, _ :: _ :: _, .cons _ (.cons _ _) => rfl
  all_goals rfl

namespace Scene

variable [WordSource ρ]

/-- The board does not look at the numbers of names. -/
theorem host_answersAlike (t u : SymbolTable) (id : Serial) :
    (host id : Host (Scene ρ)).AnswersAlike (Value.Alike t u) (host id) where
  perform c args args' s _ _ hargs := by
    change s.perform id c args = s.perform id c args'
    unfold perform
    rw [Order.ofCall_alike c hargs]
  print _ _ := rfl

/-- The numbers of names cannot be observed.  Over any two tables a text compiles or
has the same problem, and if it compiles, then its blocks do alike.  Each is run
over a table that the one of its script has grown to, on variables that are the
same but for the numbers of names, with hosts that never answer with a name:

* they make the same requests with the same answers and print the same lines, all in
  the same order, where writing this down changes nothing else;
* they end with the same fault, or with results that are the same but for the
  numbers of names, and so are the variables that they leave;
* they leave the same world.

A host is handed a name only if a variable has one for its value.  As long as no
variable has, it can be any host, the same on both sides.  Otherwise the two hosts
have to answer alike when they are handed names with the same texts, as the board
does. -/
theorem numbering_unobserved (text : String) (t u : SymbolTable) :
    (∀ d, (compile t text).1 = .error d ↔ (compile u text).1 = .error d) ∧
    (∀ {block : Block} {t' : SymbolTable}, compile t text = (.ok block, t') →
      ∃ block' u', compile u text = (.ok block', u') ∧
        ∀ {T U : SymbolTable}, t'.GrowsTo T → u'.GrowsTo U →
        ∀ {σ : Type} {host host' : Host σ}, host.NeverNames →
        ∀ {b b' : Bindings}, b.Alike T U b' →
          (host' = host ∧ b.Resolved ∨ host.AnswersAlike (Value.Alike T U) host') →
        ∀ w : σ,
          let run := block.run host.narrating T b (w, [])
          let run' := block'.run host'.narrating U b' (w, [])
          block.run host T b w = (run.1, ⟨run.2.bindings, run.2.world.1⟩) ∧
          block'.run host' U b' w = (run'.1, ⟨run'.2.bindings, run'.2.world.1⟩) ∧
          List.Forall₂ (Event.Alike T U) run.2.world.2 run'.2.world.2 ∧
          EndsAlike (Option.Rel (Value.Alike T U)) run.1 run'.1 ∧
          run.2.bindings.Alike T U run'.2.bindings ∧
          run.2.world.1 = run'.2.world.1) ∧
    ∀ (T U : SymbolTable) (id : Serial), (host id : Host (Scene ρ)).NeverNames ∧
      (host id : Host (Scene ρ)).AnswersAlike (Value.Alike T U) (host id) := by
  have hends := compile_endsAlike t u text
  refine ⟨fun d ↦ hends.error_iff d, ?_,
    fun T U id ↦ ⟨host_neverNames id, host_answersAlike T U id⟩⟩
  intro block t' h
  rcases h' : compile u text with ⟨d | block', u'⟩
  · have hd := (hends.error_iff d).2 (congrArg Prod.fst h')
    rw [h] at hd
    cases hd
  · refine ⟨block', u', rfl, ?_⟩
    intro T U hT hU σ host host' hnever b b' hb hhost w
    have hblock : BlockAlike T U block block' := compile_alike h h' hT hU
    have hrun := block.run_of_books host.narrating_related T b w []
    have hrun' := block'.run_of_books host'.narrating_related U b' w []
    obtain ⟨rfl, hresolved⟩ | hhost := hhost
    · obtain ⟨hresult, hbindings, hworld, hevents⟩ := hblock.run .of_samePlain
        host'.answersAlike_samePlain hnever (hb.samePlain hresolved) w
      exact ⟨hrun, hrun', hevents, hresult, hbindings, hworld⟩
    · obtain ⟨hresult, hbindings, hworld, hevents⟩ :=
        hblock.run .of_alike hhost hnever hb w
      exact ⟨hrun, hrun', hevents, hresult, hbindings, hworld⟩

/-- A script that ends with a name. -/
def parting : String := "define(me, get_unit_id()) prnt(me) you"

/-- The parting, compiled by itself and behind a script in which the name was written
before, ends with that name. -/
theorem numbering_unobserved_standoff : ∃ block symbols block' symbols' n m,
    compile .new parting = (.ok block, symbols) ∧
    compile (SymbolTable.new.intern "you").2 parting = (.ok block', symbols') ∧
    (block.run (host 1) symbols .empty standoff).1 = .ok (some (.symbol n)) ∧
    (block'.run (host 1) symbols' .empty standoff).1 = .ok (some (.symbol m)) ∧
    symbols.lookup n = "you" ∧ symbols'.lookup m = "you" := by
  have hrun : (compile .new parting).1.toOption.bind (fun block ↦
      ((block.run (host 1) (compile .new parting).2 .empty standoff).1.toOption.join.bind
        Value.toSymbol?).map (compile .new parting).2.lookup) = some "you" := by
    decide +kernel
  obtain ⟨-, hblocks, hboard⟩ :=
    @numbering_unobserved Xoshiro _ parting .new (SymbolTable.new.intern "you").2
  rcases hc : compile .new parting with ⟨_ | block, symbols⟩
  · rw [hc] at hrun
    cases hrun
  · rw [hc] at hrun
    obtain ⟨block', symbols', hc', hruns⟩ := hblocks hc
    obtain ⟨hsame, hsame', -, hends, -⟩ := hruns (.refl symbols) (.refl symbols')
      (hboard symbols symbols' 1).1 Bindings.alikeBy_empty (.inl ⟨rfl, Bindings.resolved_empty⟩)
      standoff
    rw [← congrArg Prod.fst hsame, ← congrArg Prod.fst hsame'] at hends
    dsimp only [Except.toOption, Option.bind_some] at hrun
    generalize hr : (block.run (host 1) symbols .empty standoff).1 = r at hrun hends
    generalize hr' : (block'.run (host 1) symbols' .empty standoff).1 = r' at hends
    cases hends with
    | error f => cases hrun
    | ok h =>
      cases h with
      | none => cases hrun
      | some h =>
        cases h with
        | symbol h =>
          have hyou := Option.some.inj hrun
          exact ⟨block, symbols, block', symbols', _, _, rfl, hc', hr, hr', hyou,
            h.lookup.symm.trans hyou⟩
        | int n => cases hrun
        | float x => cases hrun
        | bool b => cases hrun

/-! ### Where numbers are observed -/

/-- A script that hands the value of a variable to its host. -/
def asking : String := "charge_attack(x)"

theorem compile_asking (t : SymbolTable) :
    compile t asking =
      (.ok [.call .chargeAttack [[.symbol (t.intern "x").1]]], (t.intern "x").2) := by
  have hletters : ∀ c ∈ ['x'], Text.isAlphanumeric c = true :=
    List.forall_mem_singleton.2 (Text.isAlphanumeric_of_isAlphanum rfl)
  have hname : IsStatement ['x'] (.name "x") := .name (by decide) hletters (by decide)
  have hargument : IsScript ['x'] [.name "x"] :=
    .statements (w := []) rfl (.last hname) (v := []) rfl
  have hcall : IsStatement asking.toList (.call .chargeAttack [[.name "x"]]) :=
    .call .chargeAttack (.some (.last hargument (List.cons_ne_nil _ _))) rfl
  have hscript : IsScript asking.toList [.call .chargeAttack [[.name "x"]]] :=
    .statements (w := []) rfl (.last hcall) (v := []) rfl
  exact compile_eq_ok_iff.2 ⟨_, hscript, rfl⟩

/-- Numbers of names can be observed with the help of a host that answers with them,
although it never answers with a name.  A variable has its own name for its value, and
the name has number 1 in a new table and number 2 in one that another name was put into
before.  A script that asks the host about it ends with 1 over the first table and with
2 over the second, although the variables are alike. -/
theorem numbering_observed :
    let first := SymbolTable.new
    let second := (SymbolTable.new.intern "y").2
    let b := Bindings.empty.define ⟨1⟩ (.symbol ⟨1⟩)
    let b' := Bindings.empty.define ⟨2⟩ (.symbol ⟨2⟩)
    Host.numbering.NeverNames ∧ ∃ block t block' u,
      compile first asking = (.ok block, t) ∧ compile second asking = (.ok block', u) ∧
      b.Alike t u b' ∧
      (block.run Host.numbering t b ()).1 = .ok (some (.int 1)) ∧
      (block'.run Host.numbering u b' ()).1 = .ok (some (.int 2)) ∧
      ¬EndsAlike (Option.Rel (Value.Alike t u)) (block.run Host.numbering t b ()).1
        (block'.run Host.numbering u b' ()).1 := by
  intro first second b b'
  have hx : Symbol.Matches (first.intern "x").2 (second.intern "x").2 ⟨1⟩ ⟨2⟩ :=
    .of_intern (.refl _) (.refl _)
  have hb : b.Alike (first.intern "x").2 (second.intern "x").2 b' :=
    Bindings.alikeBy_empty.define hx (.symbol hx)
  refine ⟨Host.numbering_neverNames, _, _, _, _, compile_asking first, compile_asking second, hb,
    rfl, rfl, ?_⟩
  -- Integers are alike only if they are equal, and 1 is not 2.
  rintro (h | _)
  cases h with
  | some h => cases h

end Scene

end Skirmish.Arena
