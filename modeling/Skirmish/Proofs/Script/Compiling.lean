import Skirmish.Proofs.Script.Parsing
import Skirmish.Proofs.Script.Sequence

/-!
# Compiling follows the grammar

Compiling a text succeeds if and only if the text is a script, and the block is
then the one that the grammar gives it.  The induction is the one by which
compiling ends: the arguments of a call are shorter than the call.

Main statements: what compiling accepts (`compileTokens_yields_iff`), that no
text says two things (`IsScript.unique`), and both for whole scripts
(`compile_exactly_scripts`).
-/

namespace Skirmish.Script

open Report Text

/-! ## Success of one step -/

namespace Compiling

variable {α β : Type} {symbols symbols' : SymbolTable}

/-- The work succeeds with this result and leaves this table. -/
def Yields (x : Compiling α) (symbols : SymbolTable) (a : α) (symbols' : SymbolTable) : Prop :=
  x.run symbols = (.ok a, symbols')

@[simp] theorem yields_pure_iff {a b : α} :
    Yields (pure a) symbols b symbols' ↔ a = b ∧ symbols = symbols' := by
  constructor
  · intro h
    cases h
    exact ⟨rfl, rfl⟩
  · rintro ⟨rfl, rfl⟩
    rfl

@[simp] theorem not_yields_throw {d : Diagnostic} {a : α} :
    ¬Yields (throw d) symbols a symbols' := by
  intro h
  cases h

@[simp] theorem yields_internName_iff {name : String} {s : Symbol} :
    Yields (internName name) symbols s symbols' ↔ symbols.intern name = (s, symbols') := by
  constructor
  · intro h
    have hs := congrArg Prod.fst h
    have ht := congrArg Prod.snd h
    exact Prod.ext (Except.ok.inj hs) ht
  · intro h
    exact congrArg (fun p ↦ ((Except.ok p.1 : Except Diagnostic Symbol), p.2)) h

/-- Work in sequence succeeds if both parts do. -/
@[simp] theorem yields_bind_iff {x : Compiling α} {f : α → Compiling β} {b : β} :
    Yields (x >>= f) symbols b symbols' ↔
      ∃ a middle, Yields x symbols a middle ∧ Yields (f a) middle b symbols' :=
  run_bind_eq_ok_iff

@[simp] theorem yields_map_iff {x : Compiling α} {f : α → β} {b : β} :
    Yields (f <$> x) symbols b symbols' ↔ ∃ a, Yields x symbols a symbols' ∧ f a = b := by
  rw [← bind_pure_comp, yields_bind_iff]
  constructor
  · rintro ⟨a, middle, hx, hb⟩
    obtain ⟨rfl, rfl⟩ := yields_pure_iff.1 hb
    exact ⟨a, hx, rfl⟩
  · rintro ⟨a, hx, rfl⟩
    exact ⟨a, symbols', hx, yields_pure_iff.2 ⟨rfl, rfl⟩⟩

end Compiling

open Compiling

variable {symbols symbols' : SymbolTable}

theorem compileNumber_yields_iff {token : List Char} {term : Term} :
    (compileNumber token).Yields symbols term symbols' ↔
      ∃ x, Decimal.float? token = some x ∧ x.isFinite = true ∧
        Term.literal (.number x) = term ∧ symbols = symbols' := by
  unfold compileNumber numberValue
  cases hx : Decimal.float? token with
  | none => simp
  | some x => cases hf : x.isFinite <;> simp [hf]

theorem compileHead_yields_iff {token : List Char} {n : Nat} {c : Command} :
    (compileHead token n).Yields symbols c symbols' ↔
      resolve (String.ofList (commandName token)) n = .ok c ∧ symbols = symbols' := by
  unfold compileHead
  split
  next d hd => simp [hd]
  next u hu => simp [hu]

theorem classify_eq_number_iff {token : List Char} :
    classify token = .ok .number ↔ ∃ x, Decimal.float? token = some x := by
  rw [← Option.isSome_iff_exists]
  change _ ↔ isNumber token = true
  unfold classify
  cases isNumber token <;> cases isName token <;> cases isCall token <;> simp

/-- What one statement compiles to, in terms of its arguments. -/
theorem compileToken_yields_iff_of_step {token : List Char} {term : Term} :
    (compileToken token).Yields symbols term symbols' ↔
      (∃ x, Decimal.float? token = some x ∧ x.isFinite = true ∧
        Term.literal (.number x) = term ∧ symbols = symbols') ∨
      (classify token = .ok .symbol ∧
        ∃ s, symbols.intern (String.ofList token) = (s, symbols') ∧ Term.symbol s = term) ∨
      ∃ ts c blocks, classify token = .ok .call ∧ arguments token = .ok ts ∧
        resolve (String.ofList (commandName token)) ts.length = .ok c ∧
        (compileArguments ts).Yields symbols blocks symbols' ∧
        Term.call c (blocks ++ missingBranch token) = term := by
  rw [compileToken]
  cases hc : classify token with
  | error m =>
    have hx : ∀ x, Decimal.float? token ≠ some x := fun x hx ↦ by
      rw [classify_eq_number_iff.2 ⟨x, hx⟩] at hc
      cases hc
    simp [hx]
  | ok kind =>
    cases kind with
    | number => simp [compileNumber_yields_iff]
    | symbol =>
      have hx := (classify_eq_symbol_iff.1 hc).1
      simp [hx]
    | call =>
      have hx : ∀ x, Decimal.float? token ≠ some x := fun x hx ↦ by
        rw [classify_eq_number_iff.2 ⟨x, hx⟩] at hc
        cases hc
      dsimp only
      split
      next m hm => simp [hx, hm]
      next ts hts => simp [hx, hts, compileHead_yields_iff]

/-! ## Success of the whole -/

theorem internArguments_append_missing (args : List (List Phrase)) (token : List Char) :
    internArguments (args ++ missingPhrases (String.ofList (commandName token))) symbols =
      ((internArguments args symbols).1 ++ missingBranch token,
        (internArguments args symbols).2) := by
  unfold missingPhrases missingBranch
  split
  · exact internArguments_append_zero args symbols
  · simp

theorem forall₂_isArgument_iff {ts : List (List Char)} {args : List (List Phrase)}
    (h : ∀ t ∈ ts, allBlank t = false) :
    List.Forall₂ IsArgument ts args ↔ List.Forall₂ IsScript ts args := by
  constructor
  · exact List.Forall₂.imp fun t ps ht ↦ ht.1
  · intro hs
    refine ((List.forall₂_and_left ts args).2 ⟨h, hs⟩).imp fun t ps ht ↦ ⟨ht.2, ?_⟩
    rw [Ne, ht.2.eq_nil_iff, ht.1]
    exact Bool.false_ne_true

mutual

/-- A statement compiles to the term of what it says. -/
theorem compileToken_yields_iff (token : List Char) (symbols symbols' : SymbolTable)
    (term : Term) : (compileToken token).Yields symbols term symbols' ↔
      ∃ p, IsStatement token p ∧ p.intern symbols = (term, symbols') := by
  rw [compileToken_yields_iff_of_step]
  constructor
  · rintro (⟨x, hx, hf, rfl, rfl⟩ | ⟨hc, s, hs, rfl⟩ | ⟨ts, c, blocks, hc, hts, hr, hb, rfl⟩)
    · exact ⟨_, .number hx hf, rfl⟩
    · refine ⟨_, isStatement_iff.2 (.inr (.inl ⟨hc, rfl⟩)), ?_⟩
      rw [Phrase.intern, hs]
    · obtain ⟨_, -, -, hblank⟩ := arguments_eq_ok_iff.1 hts
      obtain ⟨args, hargs, hi⟩ := (compileArguments_yields_iff ts symbols symbols' blocks).1 hb
      have hall := (forall₂_isArgument_iff hblank).2 hargs
      refine ⟨_, isStatement_iff.2 (.inr (.inr ⟨ts, c, args, hc, hts, hr, hall, rfl⟩)), ?_⟩
      rw [Phrase.intern, internArguments_append_missing, hi]
  · rintro ⟨p, hp, hi⟩
    rcases isStatement_iff.1 hp with
      ⟨x, hx, hf, rfl⟩ | ⟨hc, rfl⟩ | ⟨ts, c, args, hc, hts, hr, hall, rfl⟩
    · cases hi
      exact .inl ⟨x, hx, hf, rfl, rfl⟩
    · cases hi
      exact .inr (.inl ⟨hc, _, rfl, rfl⟩)
    · rw [Phrase.intern, internArguments_append_missing] at hi
      cases hi
      have hargs := hall.imp fun t ps ht ↦ ht.1
      have hb := (compileArguments_yields_iff ts symbols _ _).2 ⟨args, hargs, rfl⟩
      exact .inr (.inr ⟨ts, c, _, hc, hts, hr, hb, rfl⟩)
termination_by 2 * token.length + 1
decreasing_by
  all_goals
    have := pieceWeight_arguments_lt hts
    omega

/-- Statements compile to the terms of what they say. -/
theorem compileTokens_yields_iff (tokens : List (List Char)) (symbols symbols' : SymbolTable)
    (block : Block) : (compileTokens tokens).Yields symbols block symbols' ↔
      ∃ ps, List.Forall₂ IsStatement tokens ps ∧ internPhrases ps symbols = (block, symbols') := by
  cases tokens with
  | nil =>
    rw [compileTokens]
    simp [internPhrases]
  | cons token rest =>
    rw [compileTokens]
    simp only [yields_bind_iff, yields_pure_iff]
    constructor
    · rintro ⟨term, middle, ht, terms, _, hr, rfl, rfl⟩
      obtain ⟨p, hp, hpi⟩ := (compileToken_yields_iff token _ _ _).1 ht
      obtain ⟨ps, hps, hpsi⟩ := (compileTokens_yields_iff rest _ _ _).1 hr
      refine ⟨p :: ps, .cons hp hps, ?_⟩
      simp only [internPhrases, hpi, hpsi]
    · rintro ⟨_, hps, hi⟩
      cases hps with
      | @cons _ p _ ps hp hps =>
        cases hi
        exact ⟨_, _, (compileToken_yields_iff token _ _ _).2 ⟨p, hp, rfl⟩, _, _,
          (compileTokens_yields_iff rest _ _ _).2 ⟨ps, hps, rfl⟩, rfl, rfl⟩
termination_by 2 * pieceWeight tokens
decreasing_by all_goals simp only [pieceWeight_cons]; omega

/-- Arguments compile to the blocks of what they say. -/
theorem compileArguments_yields_iff (ts : List (List Char)) (symbols symbols' : SymbolTable)
    (blocks : List Block) : (compileArguments ts).Yields symbols blocks symbols' ↔
      ∃ args, List.Forall₂ IsScript ts args ∧
        internArguments args symbols = (blocks, symbols') := by
  cases ts with
  | nil =>
    rw [compileArguments]
    simp [internArguments]
  | cons t rest =>
    rw [compileArguments]
    simp only [yields_bind_iff, yields_pure_iff]
    constructor
    · rintro ⟨block, middle, ht, blocks, _, hr, rfl, rfl⟩
      obtain ⟨ps, hps, hpsi⟩ := (compileTokens_yields_iff (statements t) _ _ _).1 ht
      obtain ⟨args, hargs, hargsi⟩ := (compileArguments_yields_iff rest _ _ _).1 hr
      refine ⟨ps :: args, .cons (forall₂_statements_iff.1 hps) hargs, ?_⟩
      simp only [internArguments, hpsi, hargsi]
    · rintro ⟨_, hargs, hi⟩
      cases hargs with
      | @cons _ ps _ args hps hargs =>
        cases hi
        exact ⟨_, _, (compileTokens_yields_iff (statements t) _ _ _).2
          ⟨ps, forall₂_statements_iff.2 hps, rfl⟩, _, _,
          (compileArguments_yields_iff rest _ _ _).2 ⟨args, hargs, rfl⟩, rfl, rfl⟩
termination_by 2 * pieceWeight ts + 1
decreasing_by
  all_goals
    have := pieceWeight_statements_le t
    simp only [pieceWeight_cons]
    omega

end

/-- A text compiles to what the grammar says that it says. -/
theorem compile_eq_ok_iff {text : String} {block : Block} :
    compile symbols text = (.ok block, symbols') ↔
      ∃ ps, IsScript text.toList ps ∧ internPhrases ps symbols = (block, symbols') := by
  have h := compileTokens_yields_iff (statements text.toList) symbols symbols' block
  simp only [forall₂_statements_iff] at h
  exact h

/-! ## No text says two things -/

theorem forall₂_unique {α β : Type} {R : α → β → Prop} {xs : List α} {ys zs : List β}
    (h : ∀ x ∈ xs, ∀ y z, R x y → R x z → y = z) (hy : List.Forall₂ R xs ys)
    (hz : List.Forall₂ R xs zs) : ys = zs := by
  induction hy generalizing zs with
  | nil =>
    cases hz
    rfl
  | @cons x y xs ys hxy _ ih =>
    cases hz with
    | cons hxz hz =>
      rw [h x List.mem_cons_self _ _ hxy hxz,
        ih (fun x hx ↦ h x (List.mem_cons_of_mem _ hx)) hz]

/-- A text of one kind is a statement in one way. -/
theorem IsStatement.unique {t : List Char} {p q : Phrase} (hp : IsStatement t p)
    (hq : IsStatement t q) : p = q := by
  have hnumber : ∀ {x}, Decimal.float? t = some x → classify t = .ok .number :=
    fun hx ↦ classify_eq_number_iff.2 ⟨_, hx⟩
  rcases isStatement_iff.1 hp with
    ⟨x, hx, -, rfl⟩ | ⟨hc, rfl⟩ | ⟨ts, c, args, hc, hts, hr, hall, rfl⟩
  · rcases isStatement_iff.1 hq with ⟨y, hy, -, rfl⟩ | ⟨hd, -⟩ | ⟨_, _, _, hd, -⟩
    · cases hx.symm.trans hy
      rfl
    · cases (hnumber hx).symm.trans hd
    · cases (hnumber hx).symm.trans hd
  · rcases isStatement_iff.1 hq with ⟨y, hy, -⟩ | ⟨-, rfl⟩ | ⟨_, _, _, hd, -⟩
    · cases hc.symm.trans (hnumber hy)
    · rfl
    · cases hc.symm.trans hd
  · rcases isStatement_iff.1 hq with
      ⟨y, hy, -⟩ | ⟨hd, -⟩ | ⟨us, d, args', -, hus, hs, hall', rfl⟩
    · cases hc.symm.trans (hnumber hy)
    · cases hc.symm.trans hd
    · cases hts.symm.trans hus
      cases hr.symm.trans hs
      -- The arguments are texts shorter than the call, and their statements no longer than they.
      have hargs : args = args' := by
        refine forall₂_unique (fun u hu ps qs hps hqs ↦ ?_) hall hall'
        refine forall₂_unique (fun s hs p q hp hq ↦ ?_) (forall₂_statements_iff.2 hps.1)
          (forall₂_statements_iff.2 hqs.1)
        have hsu := length_le_of_mem_statements hs
        have hu := length_lt_pieceWeight hu
        have ht := pieceWeight_arguments_lt hts
        exact IsStatement.unique hp hq
      rw [hargs]
termination_by t.length
decreasing_by omega

/-- No text is a script in two ways. -/
theorem IsScript.unique {t : List Char} {ps qs : List Phrase} (hp : IsScript t ps)
    (hq : IsScript t qs) : ps = qs :=
  forall₂_unique (fun _ _ _ _ hp hq ↦ hp.unique hq) (forall₂_statements_iff.2 hp)
    (forall₂_statements_iff.2 hq)

/-- Compiling accepts exactly the scripts and builds exactly their blocks: it
succeeds if and only if the text is a script, with the block of what the script
says and the table to which its names have been added; and a text says one thing
at most. -/
theorem compile_exactly_scripts (text : String) :
    (∀ (symbols symbols' : SymbolTable) (block : Block),
      compile symbols text = (.ok block, symbols') ↔
        ∃ ps, IsScript text.toList ps ∧ internPhrases ps symbols = (block, symbols')) ∧
    ∀ ps qs, IsScript text.toList ps → IsScript text.toList qs → ps = qs :=
  ⟨fun _ _ _ ↦ compile_eq_ok_iff, fun _ _ ↦ IsScript.unique⟩

end Skirmish.Script
