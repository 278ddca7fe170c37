import Skirmish.Proofs.Script.Compiling
import Skirmish.Proofs.Script.Evaluation

/-!
# What is checked before a script runs

Compiling has counted the arguments of every call and has refused those that are
blank.  A block for which this is so is `Complete`, and running it never finds a
wrong number of arguments or an argument without a value: a complaint about an
argument comes from the host, or not at all (`evalBlock_ensures`).

Main statement: so it is with every script that compiles (`run_compiled`).
-/

namespace Skirmish.Script

open Text

/-! ## Complete blocks -/

mutual

/-- In all calls of a term the number of arguments is right, and no argument is
empty. -/
def Term.Complete : Term → Prop
  | .literal _ | .symbol _ => True
  | .call c args => args.length = c.arity ∧ CompleteArguments args

/-- The same of a block, which may be empty itself. -/
def CompleteBlock : List Term → Prop
  | [] => True
  | t :: ts => t.Complete ∧ CompleteBlock ts

/-- The same of arguments, none of which is empty. -/
def CompleteArguments : List (List Term) → Prop
  | [] => True
  | b :: bs => (b ≠ [] ∧ CompleteBlock b) ∧ CompleteArguments bs

end

theorem completeArguments_append {args args' : List Block} (h : CompleteArguments args)
    (h' : CompleteArguments args') : CompleteArguments (args ++ args') := by
  induction args with
  | nil => exact h'
  | cons b bs ih => exact ⟨h.1, ih h.2⟩

theorem completeArguments_zero : CompleteArguments [Block.zero] :=
  ⟨⟨List.cons_ne_nil _ _, trivial, trivial⟩, trivial⟩

theorem length_internArguments (args : List (List Phrase)) (symbols : SymbolTable) :
    (internArguments args symbols).1.length = args.length := by
  induction args generalizing symbols with
  | nil => rfl
  | cons ps args ih => simp [internArguments, ih]

theorem internPhrases_eq_nil_iff {ps : List Phrase} {symbols : SymbolTable} :
    (internPhrases ps symbols).1 = [] ↔ ps = [] := by
  cases ps with
  | nil => simp [internPhrases]
  | cons p ps => simp [internPhrases]

mutual

theorem IsStatement.complete {t : List Char} {p : Phrase} :
    IsStatement t p → (symbols : SymbolTable) → (p.intern symbols).1.Complete
  | .number _ _, _ => trivial
  | .name _ _ _, _ => trivial
  | .call c h hn, symbols => ⟨(length_internArguments _ symbols).trans hn, h.complete symbols⟩
  | .shortIf h hn, symbols => by
    rw [Phrase.intern, internArguments_append_zero]
    refine ⟨?_, completeArguments_append (h.complete symbols) completeArguments_zero⟩
    rw [List.length_append, length_internArguments]
    exact hn

theorem IsArguments.complete {t : List Char} {args : List (List Phrase)} :
    IsArguments t args → (symbols : SymbolTable) →
      CompleteArguments (internArguments args symbols).1
  | .none, _ => trivial
  | .some h, symbols => h.complete symbols

theorem IsArgumentRow.complete {t : List Char} {args : List (List Phrase)} :
    IsArgumentRow t args → (symbols : SymbolTable) →
      CompleteArguments (internArguments args symbols).1
  | .last h hne, symbols =>
    ⟨⟨internPhrases_eq_nil_iff.not.2 hne, h.complete symbols⟩, trivial⟩
  | .cons h hne hr, symbols =>
    ⟨⟨internPhrases_eq_nil_iff.not.2 hne, h.complete symbols⟩, hr.complete _⟩

/-- What compiling makes of a script is complete. -/
theorem IsScript.complete {t : List Char} {ps : List Phrase} :
    IsScript t ps → (symbols : SymbolTable) → CompleteBlock (internPhrases ps symbols).1
  | .blank _, _ => trivial
  | .statements _ h _, symbols => h.complete symbols

theorem IsStatementRow.complete {t : List Char} {ps : List Phrase} :
    IsStatementRow t ps → (symbols : SymbolTable) → CompleteBlock (internPhrases ps symbols).1
  | .last h, symbols => ⟨h.complete symbols, trivial⟩
  | .cons h _ _ hr, symbols => ⟨h.complete symbols, hr.complete _⟩

end

theorem compile_complete {symbols symbols' : SymbolTable} {text : String} {block : Block}
    (h : compile symbols text = (.ok block, symbols')) : CompleteBlock block := by
  obtain ⟨ps, hps, hblock⟩ := compile_eq_ok_iff.1 h
  have := hps.complete symbols
  rwa [hblock] at this

/-! ## Faults of a run

`Run.Ensures P Q` says of work that its result has `P`, or that it ends with a
fault for which `Q` holds of the world that is left. -/

variable {σ α β : Type}

namespace Run

/-- What work ensures of its result, and of the world when it fails. -/
def Ensures (P : α → Prop) (Q : Fault → σ → Prop) (x : Run σ α) : Prop :=
  ∀ s, (∀ a s', x.run s = (.ok a, s') → P a) ∧
    ∀ f s', x.run s = (.error f, s') → Q f s'.world

namespace Ensures

variable {P : α → Prop} {Q : Fault → σ → Prop}

theorem pure {a : α} (h : P a) : Ensures P Q (Pure.pure a : Run σ α) := by
  intro s
  constructor
  · rintro _ _ ⟨⟩
    exact h
  · rintro _ _ ⟨⟩

theorem throw {f : Fault} (h : ∀ w, Q f w) : Ensures P Q (MonadExcept.throw f : Run σ α) := by
  intro s
  constructor
  · rintro _ _ ⟨⟩
  · rintro _ _ ⟨⟩
    exact h _

theorem bind {P' : β → Prop} {x : Run σ α} {f : α → Run σ β} (hx : Ensures P Q x)
    (hf : ∀ a, P a → Ensures P' Q (f a)) : Ensures P' Q (x >>= f) := by
  intro s
  obtain ⟨hok, herror⟩ := hx s
  rw [run_bind]
  rcases hr : x.run s with ⟨e | a, s'⟩
  · constructor
    · rintro _ _ ⟨⟩
    · rintro _ _ ⟨⟩
      exact herror e s' hr
  · exact hf a (hok a s' hr) s'

theorem mono {P' : α → Prop} {x : Run σ α} (hx : Ensures P Q x) (h : ∀ a, P a → P' a) :
    Ensures P' Q x := fun s ↦
  ⟨fun a s' hr ↦ h a ((hx s).1 a s' hr), (hx s).2⟩

theorem mapM {ι : Type} {xs : List ι} {f : ι → Run σ α}
    (h : ∀ x ∈ xs, Ensures (fun _ ↦ True) Q (f x)) :
    Ensures (fun as : List α ↦ as.length = xs.length) Q (xs.mapM f) := by
  induction xs with
  | nil =>
    rw [List.mapM_nil]
    exact .pure rfl
  | cons x xs ih =>
    obtain ⟨hx, hxs⟩ := List.forall_mem_cons.1 h
    rw [List.mapM_cons]
    refine hx.bind fun a _ ↦ (ih hxs).bind fun as has ↦ .pure ?_
    rw [List.length_cons, List.length_cons, has]

end Ensures

end Run

/-- What holds of all faults that are no complaint about an argument, and of the
complaints that a host makes. -/
structure Host.Accounts (host : Host σ) (Q : Fault → σ → Prop) : Prop where
  other : ∀ f w, f.code ≠ .invalidArgument → Q f w
  perform : ∀ (c : Command) (args : List Value) (w : σ) (f : Fault) (w' : σ),
    c.isForBoard = true → args.length = c.arity → host.perform c args w = (.error f, w') → Q f w'

section Complaints

variable {host : Host σ} {Q : Fault → σ → Prop} (symbols : SymbolTable)

theorem resolveValue_ensures (hQ : host.Accounts Q) (v : Value) :
    Run.Ensures (fun _ ↦ True) Q (resolveValue symbols v) := by
  cases v with
  | symbol n =>
    intro s
    rw [run_resolveValue_symbol]
    refine ⟨fun _ _ _ ↦ trivial, ?_⟩
    intro f s' h
    cases hn : s.bindings.lookup? n with
    | none =>
      rw [hn] at h
      cases h
      exact hQ.other _ _ nofun
    | some v =>
      rw [hn] at h
      cases h
  | int n => exact .pure trivial
  | float x => exact .pure trivial
  | bool b => exact .pure trivial

theorem requireName_ensures (hQ : host.Accounts Q) (v : Value) :
    Run.Ensures (fun _ ↦ True) Q (requireName v : Run σ Symbol) := by
  cases v with
  | symbol s => exact .pure trivial
  | int n => exact .throw fun w ↦ hQ.other _ w nofun
  | float x => exact .throw fun w ↦ hQ.other _ w nofun
  | bool b => exact .throw fun w ↦ hQ.other _ w nofun

/-- An argument that has a value yields it. -/
theorem Deferred.raw_ensures {arg : Deferred σ} (h : Run.Ensures (·.isSome = true) Q arg)
    (c : Command) : Run.Ensures (fun _ ↦ True) Q (arg.raw c) := by
  refine h.bind fun v hv ↦ ?_
  obtain ⟨v, rfl⟩ := Option.isSome_iff_exists.1 hv
  exact .pure trivial

theorem Deferred.value_ensures (hQ : host.Accounts Q) {arg : Deferred σ}
    (h : Run.Ensures (·.isSome = true) Q arg) (c : Command) :
    Run.Ensures (fun _ ↦ True) Q (arg.value symbols c) :=
  (Deferred.raw_ensures h c).bind fun v _ ↦ resolveValue_ensures symbols hQ v

theorem define_ensures (name : Symbol) (value : Value) :
    Run.Ensures (fun _ ↦ True) Q (Run.define name value : Run σ Unit) := by
  intro s
  refine ⟨fun _ _ _ ↦ trivial, ?_⟩
  rintro _ _ ⟨⟩

theorem execute_ensures (hQ : host.Accounts Q) {c : Command} (hc : c.kind ≠ .special)
    {args : List Value} (hn : args.length = c.arity) :
    Run.Ensures (fun _ ↦ True) Q (Run.onWorld (execute host symbols c args)) := by
  intro s
  refine ⟨fun _ _ _ ↦ trivial, ?_⟩
  intro f s' h
  have hfault : (execute host symbols c args s.world).1 = .error f := congrArg Prod.fst h
  have hworld : (execute host symbols c args s.world).2 = s'.world :=
    congrArg (fun r ↦ r.2.world) h
  obtain ⟨v, rfl, rfl⟩ | ⟨hb, -, he⟩ | ⟨r, he, hr⟩ := execute_cases symbols args hc
  · cases hfault
  · rw [he host s.world] at hfault hworld
    exact hQ.perform c args s.world f s'.world hb hn (Prod.ext hfault hworld)
  · rw [he host s.world] at hfault
    exact hQ.other f _ (hr hn f hfault)

/-- A call with the right number of arguments, all of which have values. -/
theorem call_ensures (hQ : host.Accounts Q) {c : Command} {args : List (Deferred σ)}
    (hn : args.length = c.arity)
    (hargs : ∀ arg ∈ args, Run.Ensures (·.isSome = true) Q arg) :
    Run.Ensures (fun _ ↦ True) Q (call host symbols c args) := by
  have hraw : ∀ {arg}, arg ∈ args → Run.Ensures (fun _ ↦ True) Q (arg.raw c) :=
    fun harg ↦ Deferred.raw_ensures (hargs _ harg) c
  have hvalue : ∀ {arg}, arg ∈ args → Run.Ensures (fun _ ↦ True) Q (arg.value symbols c) :=
    fun harg ↦ Deferred.value_ensures symbols hQ (hargs _ harg) c
  by_cases hc : c.kind = .special
  · cases c
    case define =>
      obtain ⟨x, y, rfl⟩ := List.length_eq_two.1 hn
      refine (hraw (by simp)).bind fun v _ ↦ (requireName_ensures hQ v).bind fun s _ ↦ ?_
      exact (hvalue (by simp)).bind fun w _ ↦ (define_ensures s w).bind fun _ _ ↦ .pure trivial
    case ifElse =>
      obtain ⟨x, y, z, rfl⟩ := List.length_eq_three.1 hn
      refine (hvalue (by simp)).bind fun v _ ↦ ?_
      cases v.isTrue
      · exact hraw (by simp)
      · exact hraw (by simp)
    case and =>
      obtain ⟨x, y, rfl⟩ := List.length_eq_two.1 hn
      refine (hvalue (by simp)).bind fun v _ ↦ ?_
      cases v.isTrue
      · exact .pure trivial
      · exact (hvalue (by simp)).bind fun w _ ↦ .pure trivial
    case or =>
      obtain ⟨x, y, rfl⟩ := List.length_eq_two.1 hn
      refine (hvalue (by simp)).bind fun v _ ↦ ?_
      cases v.isTrue
      · exact (hvalue (by simp)).bind fun w _ ↦ .pure trivial
      · exact .pure trivial
    all_goals cases hc
  · rw [call_plain host symbols hc]
    refine (Run.Ensures.mapM fun arg harg ↦ hvalue harg).bind fun values hvalues ↦ ?_
    exact execute_ensures symbols hQ hc (hvalues.trans hn)

mutual

theorem evalTerm_ensures (hQ : host.Accounts Q) :
    (t : Term) → t.Complete → Run.Ensures (fun _ ↦ True) Q (evalTerm host symbols t)
  | .literal _, _ => .pure trivial
  | .symbol _, _ => .pure trivial
  | .call _ args, h =>
    call_ensures symbols hQ
      ((congrArg List.length (deferred_eq_map host symbols args)).trans
        ((List.length_map _).trans h.1))
      (deferred_ensures hQ args h.2)

/-- A complete block has a value unless it is empty, and no complaint about an
argument is its own. -/
theorem evalBlock_ensures (hQ : host.Accounts Q) :
    (block : Block) → CompleteBlock block →
      Run.Ensures (fun v : Option Value ↦ v = none → block = []) Q (evalBlock host symbols block)
  | [], _ => .pure fun _ ↦ rfl
  | t :: ts, h =>
    (evalTerm_ensures hQ t h.1).bind fun _ _ ↦ (evalBlock_ensures hQ ts h.2).bind fun _ _ ↦
      .pure nofun

theorem deferred_ensures (hQ : host.Accounts Q) :
    (args : List Block) → CompleteArguments args →
      ∀ arg ∈ deferred host symbols args, Run.Ensures (·.isSome = true) Q arg
  | [], _ => nofun
  | b :: bs, h => by
    have hb : Run.Ensures (·.isSome = true) Q (evalBlock host symbols b) :=
      (evalBlock_ensures hQ b h.1.2).mono fun v hv ↦ by
        cases v with
        | none => exact absurd (hv rfl) h.1.1
        | some v => rfl
    exact List.forall_mem_cons.2 ⟨hb, deferred_ensures hQ bs h.2⟩

end

end Complaints

/-! ## The requests of a run -/

/-- A request to a host, and its answer. -/
structure HostCall where
  command : Command
  args : List Value
  answer : Except Fault Value

/-- The host that writes down what it is asked, the last request last. -/
def Host.recording (host : Host σ) : Host (σ × List HostCall) where
  perform c args w :=
    let (answer, s) := host.perform c args w.1
    (answer, (s, w.2 ++ [⟨c, args, answer⟩]))
  print line w := (host.print line w.1, w.2)

theorem Host.recording_related (host : Host σ) :
    Host.Related (fun s w ↦ s = w.1) host host.recording :=
  .of_books (fun _ _ _ ↦ rfl) fun _ _ ↦ rfl

/-- Every complaint about an argument is the answer to the last request. -/
theorem Host.recording_accounts (host : Host σ) : host.recording.Accounts fun f w ↦
    f.code = .invalidArgument → ∃ call, w.2.getLast? = some call ∧ call.answer = .error f where
  other f w hf h := absurd h hf
  perform := by
    rintro c args w f w' - - h -
    have hf : (host.perform c args w.1).1 = .error f := congrArg Prod.fst h
    have hw : w.2 ++ [⟨c, args, (host.perform c args w.1).1⟩] = w'.2 := congrArg (·.2.2) h
    exact ⟨_, by rw [← hw, List.getLast?_concat], hf⟩

/-- A script that compiles has passed all checks of its calls.  Run with any
host, variables and world, recording the requests, which changes nothing else:

* if it ends with a complaint about an argument, then this is what the host
  answered to the last request;
* if it has no value, then its text is blank;
* the host is only asked for commands for the board, with as many values as they
  take. -/
theorem run_compiled {symbols symbols' : SymbolTable} {text : String} {block : Block}
    (h : compile symbols text = (.ok block, symbols')) (host : Host σ) (table : SymbolTable)
    (bindings : Bindings) (world : σ) :
    let run := block.run host.recording table bindings (world, [])
    let calls := run.2.world.2
    block.run host table bindings world = (run.1, ⟨run.2.bindings, run.2.world.1⟩) ∧
    (∀ c o, run.1 = .error (.invalidArgument c o) →
      ∃ call, calls.getLast? = some call ∧ call.answer = .error (.invalidArgument c o)) ∧
    (run.1 = .ok none → allBlank text.toList = true) ∧
    ∀ call ∈ calls, call.command.isForBoard = true ∧ call.args.length = call.command.arity := by
  obtain ⟨ps, hps, hblock⟩ := compile_eq_ok_iff.1 h
  have hcomplete : CompleteBlock block := by
    have := hps.complete symbols
    rwa [hblock] at this
  have hensures := evalBlock_ensures table host.recording_accounts block hcomplete
    ⟨bindings, (world, [])⟩
  refine ⟨?_, ?_, ?_, ?_⟩
  · obtain ⟨r, b, s, w, hs, hw, rfl⟩ := evalBlock_related host.recording_related table block
      bindings world (world, []) rfl
    rw [Block.run, Block.run, hs, hw]
  · intro c o ho
    exact hensures.2 _ _ (Prod.ext ho rfl) rfl
  · intro hnone
    have hnil := hensures.1 _ _ (Prod.ext hnone rfl) rfl
    have : (internPhrases ps symbols).1 = [] := by rw [hblock, hnil]
    exact hps.eq_nil_iff.1 (internPhrases_eq_nil_iff.1 this)
  · refine Block.run_keeps (fun w : σ × List HostCall ↦ ∀ call ∈ w.2,
      call.command.isForBoard = true ∧ call.args.length = call.command.arity) host.recording
      ?_ (fun line w hw ↦ hw) table block bindings (s := (world, [])) (by simp)
    intro c args w hc hn hw call hcall
    rcases List.mem_append.1 hcall with hcall | hcall
    · exact hw call hcall
    · rw [List.mem_singleton.1 hcall]
      exact ⟨hc, hn⟩

/-- A host that refuses everything. -/
def Host.refusing : Host Unit where
  perform c _ w := (.error (.invalidArgument c .unitGone), w)
  print _ w := w

/-- A script that charges, and a host that lets nobody charge: the script ends
with the answer to its one request. -/
theorem run_compiled_refused : ∃ block symbols,
    compile .new "define(n, 2) charge_attack(n)" = (.ok block, symbols) ∧
    ∃ call, (block.run Host.refusing.recording symbols .empty ((), [])).2.world.2.getLast? =
      some call ∧ call.answer = .error (.invalidArgument .chargeAttack .unitGone) := by
  have hrun : (match compile .new "define(n, 2) charge_attack(n)" with
      | (.ok block, symbols) =>
        match (block.run Host.refusing.recording symbols .empty ((), [])).1 with
        | .error f => some f
        | .ok _ => none
      | (.error _, _) => none) = some (.invalidArgument .chargeAttack .unitGone) := by
    decide +kernel
  rcases hc : compile .new "define(n, 2) charge_attack(n)" with ⟨_ | block, symbols⟩
  · rw [hc] at hrun
    cases hrun
  · rw [hc] at hrun
    dsimp only at hrun
    split at hrun
    next f hf =>
      cases hrun
      exact ⟨block, symbols, rfl, (run_compiled hc Host.refusing symbols .empty ()).2.1 _ _ hf⟩
    next => cases hrun

end Skirmish.Script
