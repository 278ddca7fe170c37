import Mathlib.Order.Bounds.Basic
import Skirmish.Proofs.Script.Compiling
import Skirmish.Proofs.Script.Concatenation

/-!
# Calls and parentheses

Only calls have parentheses, and each call has one pair of them.  So a compiled script
shows how its text was parenthesised: it has as many calls as there are pairs of
parentheses, and calls are as deeply nested in it as parentheses are in the text.  The
branch that a short `if` leaves out has no calls, and adds nothing to either.

How deep a text goes is told by its `peak`, which can be computed along the text
(`peak_append`) and is the greatest depth of its prefixes (`isGreatest_peak`).  A text
that is `Parenthesised` has its pairs of parentheses counted and its peak known; the
texts of the grammar are put together in ways of which it is known what becomes of both.

Main statement: `compile_keeps_parentheses`.
-/

namespace Skirmish.Script

open Text

/-! ## Nested calls -/

mutual

/-- How deeply calls are nested in a term. -/
def Term.nesting : Term → Nat
  | .literal _ | .symbol _ => 0
  | .call _ args => argumentNesting args + 1

/-- How deeply calls are nested in a block. -/
def blockNesting : List Term → Nat
  | [] => 0
  | t :: ts => max t.nesting (blockNesting ts)

/-- How deeply calls are nested in the arguments of a call. -/
def argumentNesting : List (List Term) → Nat
  | [] => 0
  | b :: bs => max (blockNesting b) (argumentNesting bs)

end

/-- The number 0 is no call. -/
theorem argumentCalls_append_zero (args : List Block) :
    argumentCalls (args ++ [Block.zero]) = argumentCalls args := by
  induction args with
  | nil => rfl
  | cons b args ih => rw [List.cons_append, argumentCalls, argumentCalls, ih]

theorem argumentNesting_append_zero (args : List Block) :
    argumentNesting (args ++ [Block.zero]) = argumentNesting args := by
  induction args with
  | nil => rfl
  | cons b args ih => rw [List.cons_append, argumentNesting, argumentNesting, ih]

/-! ## How deep a text goes -/

/-- The greatest depth that a text reaches, from depth 0. -/
def peak : List Char → Int
  | [] => 0
  | c :: cs => max 0 (depthStep c + peak cs)

theorem peak_nonneg (s : List Char) : 0 ≤ peak s := by
  cases s with
  | nil => exact Int.le_refl 0
  | cons c s => exact Int.le_max_left _ _

theorem peak_append (s t : List Char) : peak (s ++ t) = max (peak s) (depth s + peak t) := by
  induction s with
  | nil =>
    have := peak_nonneg t
    rw [List.nil_append, peak, depth_nil]
    omega
  | cons c s ih =>
    rw [List.cons_append, peak, peak, depth_cons, ih]
    omega

/-- The peak is reached by a prefix, and no prefix goes beyond it. -/
theorem isGreatest_peak (s : List Char) : IsGreatest {n | ∃ p, p <+: s ∧ n = depth p} (peak s) := by
  induction s with
  | nil =>
    refine ⟨⟨[], List.nil_prefix, rfl⟩, ?_⟩
    rintro _ ⟨p, hp, rfl⟩
    rw [List.prefix_nil.1 hp]
    exact Int.le_refl 0
  | cons c s ih =>
    obtain ⟨⟨q, hq, hpeak⟩, hbound⟩ := ih
    constructor
    · rcases Int.le_total (depthStep c + peak s) 0 with hle | hle
      · exact ⟨[], List.nil_prefix, Int.max_eq_left hle⟩
      · refine ⟨c :: q, List.cons_prefix_cons.2 ⟨rfl, hq⟩, ?_⟩
        rw [peak, Int.max_eq_right hle, hpeak, depth_cons]
    · rintro _ ⟨p, hp, rfl⟩
      rcases List.prefix_cons_iff.1 hp with rfl | ⟨q, rfl, hq⟩
      · exact Int.le_max_left _ _
      · have := hbound ⟨q, hq, rfl⟩
        rw [peak, depth_cons]
        omega

/-! ## Parenthesised texts -/

/-- A text with so many pairs of parentheses, which are nested so deeply. -/
structure Parenthesised (s : List Char) (pairs nesting : Nat) : Prop where
  opening : s.count '(' = pairs
  closing : s.count ')' = pairs
  peak_eq : peak s = nesting

namespace Parenthesised

variable {s t : List Char} {n m k l : Nat}

theorem depth_eq (h : Parenthesised s n k) : depth s = 0 := by
  rw [depth_eq_count_sub_count, h.opening, h.closing, Int.sub_self]

theorem nil : Parenthesised [] 0 0 := ⟨rfl, rfl, rfl⟩

/-- Any other character makes no difference. -/
theorem cons {c : Char} (ho : c ≠ '(') (hcl : c ≠ ')') (h : Parenthesised s n k) :
    Parenthesised (c :: s) n k where
  opening := (List.count_cons_of_ne ho).trans h.opening
  closing := (List.count_cons_of_ne hcl).trans h.closing
  peak_eq := by
    have hstep : depthStep c = 0 := by simp [depthStep, ho, hcl]
    rw [peak, hstep, Int.zero_add, Int.max_eq_right (peak_nonneg s), h.peak_eq]

theorem of_forall (h : ∀ c ∈ s, c ≠ '(' ∧ c ≠ ')') : Parenthesised s 0 0 := by
  induction s with
  | nil => exact nil
  | cons c s ih =>
    obtain ⟨⟨ho, hcl⟩, hs⟩ := List.forall_mem_cons.1 h
    exact (ih hs).cons ho hcl

theorem of_isPlain (h : ∀ c ∈ s, isPlain c = true) : Parenthesised s 0 0 := by
  refine of_forall fun c hc ↦ ?_
  obtain ⟨-, ho, hcl, -⟩ := isPlain_iff.1 (h c hc)
  exact ⟨ho, hcl⟩

theorem of_allBlank (h : allBlank s = true) : Parenthesised s 0 0 := by
  refine of_forall fun c hc ↦ ?_
  have hb : isBlank c = true := List.all_eq_true.1 h c hc
  constructor
  · rintro rfl
    contradiction
  · rintro rfl
    contradiction

/-- Side by side, pairs are added up, and the deeper nesting counts. -/
theorem append (hs : Parenthesised s n k) (ht : Parenthesised t m l) :
    Parenthesised (s ++ t) (n + m) (max k l) where
  opening := by rw [List.count_append, hs.opening, ht.opening]
  closing := by rw [List.count_append, hs.closing, ht.closing]
  peak_eq := by
    rw [peak_append, hs.depth_eq, Int.zero_add, hs.peak_eq, ht.peak_eq]
    omega

theorem append_left (hs : Parenthesised s 0 0) (ht : Parenthesised t m l) :
    Parenthesised (s ++ t) m l := by
  have h := hs.append ht
  rwa [Nat.zero_add, Nat.zero_max] at h

theorem append_right (hs : Parenthesised s n k) (ht : Parenthesised t 0 0) :
    Parenthesised (s ++ t) n k := by
  have h := hs.append ht
  rwa [Nat.add_zero, Nat.max_zero] at h

/-- In parentheses there is one pair more, and all others are nested in it. -/
theorem enclose (h : Parenthesised s n k) :
    Parenthesised ('(' :: (s ++ [')'])) (n + 1) (k + 1) where
  opening := by
    rw [List.count_cons_self, List.count_append, h.opening]
    rfl
  closing := by
    rw [List.count_cons_of_ne (by decide), List.count_append, h.closing]
    rfl
  peak_eq := by
    have hopen : depthStep '(' = 1 := rfl
    have hclose : peak [')'] = 0 := rfl
    rw [peak, peak_append, h.depth_eq, h.peak_eq, hopen, hclose]
    omega

end Parenthesised

/-! ## The texts of the grammar -/

mutual

theorem IsStatement.parenthesised {t : List Char} {p : Phrase} :
    IsStatement t p → (symbols : SymbolTable) →
      Parenthesised t (p.intern symbols).1.calls (p.intern symbols).1.nesting
  | .number hx _, _ => .of_isPlain (all_isPlain_of_float? hx)
  | .name _ ha _, _ => .of_isPlain fun c hc ↦ isPlain_of_isAlphanumeric (ha c hc)
  | .call c h _, symbols => by
    rw [Phrase.intern, Term.calls, Term.nesting, Nat.add_comm 1]
    exact (Parenthesised.of_isPlain fun _ ↦ isPlain_of_mem_name).append_left
      (h.parenthesised symbols).enclose
  | .shortIf h _, symbols => by
    rw [Phrase.intern, internArguments_append_zero, Term.calls, Term.nesting,
      argumentCalls_append_zero, argumentNesting_append_zero, Nat.add_comm 1]
    exact (Parenthesised.of_isPlain fun _ ↦ isPlain_of_mem_shortIf).append_left
      (h.parenthesised symbols).enclose

theorem IsArguments.parenthesised {t : List Char} {args : List (List Phrase)} :
    IsArguments t args → (symbols : SymbolTable) →
      Parenthesised t (argumentCalls (internArguments args symbols).1)
        (argumentNesting (internArguments args symbols).1)
  | .none, _ => .nil
  | .some h, symbols => h.parenthesised symbols

theorem IsArgumentRow.parenthesised {t : List Char} {args : List (List Phrase)} :
    IsArgumentRow t args → (symbols : SymbolTable) →
      Parenthesised t (argumentCalls (internArguments args symbols).1)
        (argumentNesting (internArguments args symbols).1)
  | .last h _, symbols => by
    have hp := (h.parenthesised symbols).append .nil
    rwa [List.append_nil] at hp
  | .cons h _ hr, symbols =>
    (h.parenthesised symbols).append ((hr.parenthesised _).cons (by decide) (by decide))

theorem IsScript.parenthesised {t : List Char} {ps : List Phrase} :
    IsScript t ps → (symbols : SymbolTable) →
      Parenthesised t (blockCalls (internPhrases ps symbols).1)
        (blockNesting (internPhrases ps symbols).1)
  | .blank hw, _ => .of_allBlank hw
  | .statements hw h hv, symbols =>
    (Parenthesised.of_allBlank hw).append_left
      ((h.parenthesised symbols).append_right (.of_allBlank hv))

theorem IsStatementRow.parenthesised {t : List Char} {ps : List Phrase} :
    IsStatementRow t ps → (symbols : SymbolTable) →
      Parenthesised t (blockCalls (internPhrases ps symbols).1)
        (blockNesting (internPhrases ps symbols).1)
  | .last h, symbols => by
    have hp := (h.parenthesised symbols).append .nil
    rwa [List.append_nil] at hp
  | .cons h hv _ hr, symbols =>
    (h.parenthesised symbols).append
      ((Parenthesised.of_allBlank hv).append_left (hr.parenthesised _))

end

theorem length_internPhrases (ps : List Phrase) (symbols : SymbolTable) :
    (internPhrases ps symbols).1.length = ps.length := by
  induction ps generalizing symbols with
  | nil => rfl
  | cons p ps ih => rw [internPhrases, List.length_cons, List.length_cons, ih]

/-- Compiling loses no parenthesis and makes up none.  A block that a text compiles to has
as many calls as there are opening parentheses in the text, and as there are closing ones;
it has as many terms as the text has statements; and its calls are nested as deeply as the
parentheses of the text, which is the most by which in any prefix of the text the opening
ones outnumber the closing ones. -/
theorem compile_keeps_parentheses {symbols symbols' : SymbolTable} {text : String} {block : Block}
    (h : compile symbols text = (.ok block, symbols')) :
    blockCalls block = text.toList.count '(' ∧ blockCalls block = text.toList.count ')' ∧
      block.length = (statements text.toList).length ∧
      IsGreatest {n : Int | ∃ p, p <+: text.toList ∧ n = p.count '(' - p.count ')'}
        (blockNesting block) := by
  obtain ⟨ps, hscript, hintern⟩ := compile_eq_ok_iff.1 h
  have hp := hscript.parenthesised symbols
  have hlength := length_internPhrases ps symbols
  rw [hintern] at hp hlength
  have hstatements := (forall₂_statements_iff.2 hscript).length_eq
  have hpeak := isGreatest_peak text.toList
  simp only [hp.peak_eq, depth_eq_count_sub_count] at hpeak
  exact ⟨hp.opening.symm, hp.closing.symm, hlength.trans hstatements.symm, hpeak⟩

/-- A short `if` with calls in its test and in its branch, and a call behind it. -/
theorem compile_keeps_parentheses_short_if : ∃ block symbols,
    compile .new "if(gt(n, neg(1)), attack()) wait()" = (.ok block, symbols) ∧
      blockCalls block = 5 ∧ block.length = 2 ∧ (3 : Int) ≤ blockNesting block := by
  have hok : (compile .new "if(gt(n, neg(1)), attack()) wait()").1.isOk = true := by
    decide +kernel
  rcases hc : compile .new "if(gt(n, neg(1)), attack()) wait()" with ⟨_ | block, symbols⟩
  · rw [hc] at hok
    cases hok
  · obtain ⟨hcalls, -, hlength, hdeepest⟩ := compile_keeps_parentheses hc
    refine ⟨block, symbols, rfl, hcalls.trans (by decide), hlength.trans (by decide), ?_⟩
    exact hdeepest.2 ⟨"if(gt(n, neg(".toList, by decide, by decide⟩

end Skirmish.Script
