import Skirmish.Proofs.Script.Parsing
import Skirmish.Proofs.Script.Sequence
import Skirmish.Script.Run

/-!
# One script behind another

Two scripts with a blank between them are a script that does what the one does and
then what the other does.  That is so whatever is wrong with either of them, as
long as the first closes as many parentheses as it opens: `cut` counts on below
depth 0, and is back at 0 when the second script begins (`cut_append_cons`).

Main statement: such a text is compiled, and a block made of two is run, as two
parts of work in sequence (`append_in_sequence`).
-/

namespace Skirmish.Script

open Report Text

/-! ## Depth -/

/-- How a text changes the depth. -/
def depth : List Char → Int
  | [] => 0
  | c :: cs => depthStep c + depth cs

@[simp] theorem depth_nil : depth [] = 0 := rfl

@[simp] theorem depth_cons (c : Char) (cs : List Char) :
    depth (c :: cs) = depthStep c + depth cs := rfl

theorem depth_append (s t : List Char) : depth (s ++ t) = depth s + depth t := by
  induction s with
  | nil => rw [List.nil_append, depth_nil, Int.zero_add]
  | cons c s ih => rw [List.cons_append, depth_cons, depth_cons, ih, Int.add_assoc]

theorem depth_eq_count_sub_count (text : List Char) :
    depth text = text.count '(' - text.count ')' := by
  induction text with
  | nil => rfl
  | cons c cs ih =>
    rw [depth_cons, ih, List.count_cons, List.count_cons, depthStep]
    by_cases ho : c = '('
    · subst ho
      simp
      omega
    · by_cases hc : c = ')'
      · subst hc
        simp
        omega
      · simp [ho, hc]

theorem depthStep_of_isBlank {c : Char} (hc : isBlank c = true) : depthStep c = 0 := by
  unfold depthStep
  split
  · simp_all [isBlank]
  · split
    · simp_all [isBlank]
    · rfl

/-- Blanks do not change the depth, so neither does leaving them out. -/
theorem depth_normalize (text : List Char) : depth (Text.normalize text) = depth text := by
  induction text with
  | nil => rfl
  | cons c cs ih =>
    cases hc : isBlank c with
    | true =>
      rw [normalize_cons_of_isBlank hc, ih, depth_cons, depthStep_of_isBlank hc, Int.zero_add]
    | false =>
      have hspace : depth (leadingSpace cs) = 0 := by
        rcases leadingSpace_eq cs with h | h <;> rw [h] <;> rfl
      rw [normalize_cons hc, depth_cons, depth_cons, ← ih]
      split
      next hn => rw [hn]
      next => rw [depth_append, hspace, Int.zero_add]

/-! ## The statements of two scripts -/

theorem extendHead_append (c : Char) {ps : List (List Char)} (hps : ps ≠ [])
    (qs : List (List Char)) : extendHead c (ps ++ qs) = extendHead c ps ++ qs := by
  obtain ⟨p, ps, rfl⟩ := List.exists_cons_of_ne_nil hps
  rfl

/-- A separator behind a text that leads back to depth 0 is a cut, however deep the
text went, in either direction. -/
theorem cut_append_cons {sep : Char} (hsep : depthStep sep = 0) {d : Int} {s : List Char}
    (hd : d + depth s = 0) (t : List Char) :
    cut sep d (s ++ sep :: t) = cut sep d s ++ cut sep 0 t := by
  induction s generalizing d with
  | nil =>
    have hzero : d = 0 := by simpa using hd
    rw [List.nil_append, cut_cons, if_pos ⟨rfl, hzero⟩, hzero]
    rfl
  | cons c s ih =>
    rw [depth_cons] at hd
    rw [List.cons_append, cut_cons, cut_cons]
    split
    next hcut =>
      have hrest : d + depth s = 0 := by rw [hcut.1, hsep] at hd; omega
      rw [ih hrest, List.cons_append]
    next =>
      have hrest : d + depthStep c + depth s = 0 := by omega
      rw [ih hrest, extendHead_append c (cut_ne_nil _ _ _)]

theorem tokens_append_space {s : List Char} (hs : depth s = 0) (t : List Char) :
    tokens (s ++ ' ' :: t) = tokens s ++ tokens t := by
  rw [tokens, cut_append_cons rfl (by rw [hs]; rfl), List.filter_append, ← tokens, ← tokens]

theorem words_append_of_allBlank {w : List Char} (hw : allBlank w = true) (t : List Char) :
    words (w ++ t) = words t := by
  induction w with
  | nil => rfl
  | cons c w ih =>
    rw [allBlank_cons, Bool.and_eq_true] at hw
    rw [List.cons_append, words_cons_of_isBlank hw.1, ih hw.2]

/-- A word ends where blanks begin. -/
theorem words_append {w : List Char} (hw : allBlank w = true) (hne : w ≠ []) (s t : List Char) :
    words (s ++ (w ++ t)) = words s ++ words t := by
  obtain ⟨c, w, rfl⟩ := List.exists_cons_of_ne_nil hne
  rw [allBlank_cons, Bool.and_eq_true] at hw
  rw [words, List.cons_append, List.splitOnP_append_cons _ _ hw.1, List.filter_append, ← words,
    ← words, words_append_of_allBlank hw.2]

theorem intercalate_append {sep : Char} {ps qs : List (List Char)} (hps : ps ≠ []) (hqs : qs ≠ []) :
    [sep].intercalate (ps ++ qs) = [sep].intercalate ps ++ sep :: [sep].intercalate qs := by
  induction ps with
  | nil => exact absurd rfl hps
  | cons p ps ih =>
    cases ps with
    | nil =>
      obtain ⟨q, qs, rfl⟩ := List.exists_cons_of_ne_nil hqs
      simp [List.intercalate_cons_cons]
    | cons r ps =>
      have := ih (by simp)
      simp only [List.cons_append, List.intercalate_cons_cons] at this ⊢
      simp [this]

theorem statements_eq_tokens (text : List Char) : statements text = tokens (Text.normalize text) :=
  rfl

theorem statements_append {s w : List Char} (hs : depth s = 0) (hw : allBlank w = true)
    (hne : w ≠ []) (t : List Char) : statements (s ++ (w ++ t)) = statements s ++ statements t := by
  have hback : depth (Text.normalize s) = 0 := (depth_normalize s).trans hs
  simp only [statements_eq_tokens, Text.normalize, words_append hw hne] at hback ⊢
  by_cases hps : words s = []
  · rw [hps]
    rfl
  · by_cases hqs : words t = []
    · rw [hqs, List.append_nil]
      simp [tokens]
    · rw [intercalate_append hps hqs, tokens_append_space hback]

/-! ## Compiling and running -/

theorem compileTokens_append (xs ys : List (List Char)) :
    compileTokens (xs ++ ys) = do
      let first ← compileTokens xs
      let second ← compileTokens ys
      return first ++ second := by
  induction xs with
  | nil => simp [compileTokens]
  | cons x xs ih => simp [compileTokens, ih]

/-- The value of two blocks in sequence. -/
def lastValue (second : Block) (v w : Option Value) : Option Value :=
  if second.isEmpty then v else w

section

variable {σ : Type} (host : Host σ) (symbols : SymbolTable)

theorem evalBlock_append (first second : Block) :
    evalBlock host symbols (first ++ second) = do
      let v ← evalBlock host symbols first
      let w ← evalBlock host symbols second
      return lastValue second v w := by
  induction first with
  | nil =>
    cases second with
    | nil => simp [evalBlock, lastValue]
    | cons t ts => simp [evalBlock, lastValue]
  | cons t ts ih =>
    rw [List.cons_append, evalBlock, ih]
    cases second with
    | nil => simp [evalBlock, lastValue]
    | cons u us => simp [evalBlock, lastValue]

end

/-- If `t₁` has as many opening as closing parentheses, in whatever order, then `t₂`
behind it and a blank is compiled after it, with the names it left in the table, and
not at all if there is a problem in `t₁`.  Blocks run in the same way: the second one
on the variables and the world that the first one left, unless that ended in a fault. -/
theorem append_in_sequence :
    (∀ t₁ w t₂ : String, t₁.toList.count '(' = t₁.toList.count ')' →
      allBlank w.toList = true → w ≠ "" → ∀ symbols : SymbolTable,
        compile symbols (t₁ ++ w ++ t₂) =
          inSequence (compile · t₁) (compile · t₂) (· ++ ·) symbols) ∧
    ∀ (σ : Type) (host : Host σ) (symbols : SymbolTable) (first second : Block)
      (bindings : Bindings) (world : σ),
      Block.run host symbols (first ++ second) bindings world =
        inSequence (fun s ↦ Block.run host symbols first s.bindings s.world)
          (fun s ↦ Block.run host symbols second s.bindings s.world) (lastValue second)
          ⟨bindings, world⟩ := by
  constructor
  · intro t₁ w t₂ hparens hblank hw symbols
    have hdepth : depth t₁.toList = 0 := by
      rw [depth_eq_count_sub_count, hparens, Int.sub_self]
    have hne : w.toList ≠ [] := fun h ↦ hw (String.toList_inj.1 h)
    have htext : (t₁ ++ w ++ t₂).toList = t₁.toList ++ (w.toList ++ t₂.toList) := by simp
    rw [compile, htext, statements_append hdepth hblank hne, compileTokens_append,
      run_eq_inSequence]
    rfl
  · intro σ host symbols first second bindings world
    rw [Block.run, evalBlock_append, run_eq_inSequence]
    rfl

/-- The first script goes below depth 0 and comes back in the middle of a statement. -/
theorem append_in_sequence_below_zero :
    statements ("b) a( c" ++ "\n" ++ "wait()").toList =
        statements "b) a( c".toList ++ ["wait()".toList] ∧
      ∀ symbols, compile symbols ("b) a( c" ++ "\n" ++ "wait()") =
        inSequence (compile · "b) a( c") (compile · "wait()") (· ++ ·) symbols :=
  ⟨by decide, append_in_sequence.1 _ _ _ (by decide) (by decide) (by decide)⟩

end Skirmish.Script
