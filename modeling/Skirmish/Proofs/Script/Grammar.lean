import Skirmish.Script.Compile

/-!
# The grammar of scripts

What scripts look like, said without the functions that take them apart:

* a script is a row of statements, separated and surrounded by blanks;
* a statement is a finite number, a name, or a call;
* a call is the name of a command and, in parentheses and separated by commas,
  as many arguments as the command takes, each of them a script that is not
  blank.

A text of one of these forms says a `Phrase`, in which names are still texts.
`Phrase.intern` puts numbers in their place, from left to right, and is all that
compiling does beyond reading.
-/

namespace Skirmish.Script

open Text

/-- What a statement says. -/
inductive Phrase where
  | literal (v : Value)
  | name (text : String)
  | call (c : Command) (args : List (List Phrase))

/-- The branch that is left out in a short `if`: the number 0. -/
def Phrase.zero : List Phrase := [.literal (.int 0)]

mutual

/-- A statement, and what it says. -/
inductive IsStatement : List Char → Phrase → Prop
  | number {t : List Char} {x : Float} (hx : Decimal.float? t = some x)
    (hf : x.isFinite = true) : IsStatement t (.literal (.number x))
  | name {t : List Char} (hne : t ≠ []) (ha : ∀ c ∈ t, isAlphanumeric c = true)
    (hx : Decimal.float? t = none) : IsStatement t (.name (String.ofList t))
  | call {t : List Char} {args : List (List Phrase)} (c : Command) (h : IsArguments t args)
    (hn : args.length = c.arity) :
    IsStatement (c.name.toList ++ '(' :: (t ++ [')'])) (.call c args)
  | shortIf {t : List Char} {args : List (List Phrase)} (h : IsArguments t args)
    (hn : args.length + 1 = Command.ifElse.arity) :
    IsStatement (Script.shortIf.toList ++ '(' :: (t ++ [')']))
      (.call .ifElse (args ++ [Phrase.zero]))

/-- What stands between the parentheses of a call. -/
inductive IsArguments : List Char → List (List Phrase) → Prop
  | none : IsArguments [] []
  | some {t : List Char} {args : List (List Phrase)} (h : IsArgumentRow t args) :
    IsArguments t args

/-- Arguments, at least one, with commas between them. -/
inductive IsArgumentRow : List Char → List (List Phrase) → Prop
  | last {t : List Char} {ps : List Phrase} (h : IsScript t ps) (hne : ps ≠ []) :
    IsArgumentRow t [ps]
  | cons {t rest : List Char} {ps : List Phrase} {args : List (List Phrase)} (h : IsScript t ps)
    (hne : ps ≠ []) (hr : IsArgumentRow rest args) :
    IsArgumentRow (t ++ ',' :: rest) (ps :: args)

/-- A script, and what its statements say. -/
inductive IsScript : List Char → List Phrase → Prop
  | blank {w : List Char} (hw : allBlank w = true) : IsScript w []
  | statements {w t v : List Char} {ps : List Phrase} (hw : allBlank w = true)
    (h : IsStatementRow t ps) (hv : allBlank v = true) : IsScript (w ++ (t ++ v)) ps

/-- Statements, at least one, with blanks between them. -/
inductive IsStatementRow : List Char → List Phrase → Prop
  | last {t : List Char} {p : Phrase} (h : IsStatement t p) : IsStatementRow t [p]
  | cons {t v rest : List Char} {p : Phrase} {ps : List Phrase} (h : IsStatement t p)
    (hv : allBlank v = true) (hne : v ≠ []) (hr : IsStatementRow rest ps) :
    IsStatementRow (t ++ (v ++ rest)) (p :: ps)

end

/-! ## Names become symbols -/

mutual

/-- The term of a phrase, and the table with the names that were met. -/
def Phrase.intern : Phrase → SymbolTable → Term × SymbolTable
  | .literal v, symbols => (.literal v, symbols)
  | .name text, symbols => (.symbol (symbols.intern text).1, (symbols.intern text).2)
  | .call c args, symbols =>
    let (blocks, symbols) := internArguments args symbols
    (.call c blocks, symbols)

/-- The block of a script. -/
def internPhrases : List Phrase → SymbolTable → Block × SymbolTable
  | [], symbols => ([], symbols)
  | p :: ps, symbols =>
    let (term, symbols) := p.intern symbols
    let (terms, symbols) := internPhrases ps symbols
    (term :: terms, symbols)

/-- The blocks of the arguments of a call. -/
def internArguments : List (List Phrase) → SymbolTable → List Block × SymbolTable
  | [], symbols => ([], symbols)
  | ps :: args, symbols =>
    let (block, symbols) := internPhrases ps symbols
    let (blocks, symbols) := internArguments args symbols
    (block :: blocks, symbols)

end

/-- The number 0 has no names in it. -/
theorem internArguments_append_zero (args : List (List Phrase)) (symbols : SymbolTable) :
    internArguments (args ++ [Phrase.zero]) symbols =
      ((internArguments args symbols).1 ++ [Block.zero], (internArguments args symbols).2) := by
  induction args generalizing symbols with
  | nil => rfl
  | cons ps args ih => simp [internArguments, ih]

/-! ## Characters

The characters that structure a script are blanks, parentheses and commas.
Numbers, names and the names of commands are made of other characters. -/

/-- Whether a character has nothing to do with the structure of a script. -/
def isPlain (c : Char) : Bool := !isBlank c && c != '(' && c != ')' && c != ','

theorem isPlain_iff {c : Char} :
    isPlain c = true ↔ isBlank c = false ∧ c ≠ '(' ∧ c ≠ ')' ∧ c ≠ ',' := by
  simp [isPlain, and_assoc]

/-- The code points of the blanks. -/
def blankCodes : List Nat :=
  [0x20, 0x09, 0x0a, 0x0b, 0x0c, 0x0d, 0x85, 0xa0, 0x1680, 0x2000, 0x2001, 0x2002, 0x2003, 0x2004,
    0x2005, 0x2006, 0x2007, 0x2008, 0x2009, 0x200a, 0x2028, 0x2029, 0x202f, 0x205f, 0x3000]

theorem toNat_mem_blankCodes {c : Char} (h : isBlank c = true) : c.toNat ∈ blankCodes := by
  simp only [isBlank, Bool.or_eq_true, Bool.and_eq_true, beq_iff_eq, decide_eq_true_eq] at h
  simp only [blankCodes, List.mem_cons, List.not_mem_nil, or_false]
  omega

/-- No blank is alphanumeric. -/
theorem isAlphanumeric_of_isBlank {c : Char} (h : isBlank c = true) : isAlphanumeric c = false := by
  have hc : Char.ofNat c.toNat = c := Char.ofNat_toNat c
  have hall : ∀ n ∈ blankCodes, isAlphanumeric (Char.ofNat n) = false := by decide
  exact hc ▸ hall _ (toNat_mem_blankCodes h)

theorem isPlain_of_isAlphanumeric {c : Char} (h : isAlphanumeric c = true) : isPlain c = true := by
  rw [isPlain_iff]
  refine ⟨?_, ?_, ?_, ?_⟩
  · cases hb : isBlank c with
    | false => rfl
    | true =>
      rw [isAlphanumeric_of_isBlank hb] at h
      contradiction
  all_goals
    rintro rfl
    exact absurd h (by decide)

theorem isPlain_of_isAlphanum {c : Char} (h : c.isAlphanum = true) : isPlain c = true :=
  isPlain_of_isAlphanumeric (isAlphanumeric_of_isAlphanum h)

theorem isPlain_of_mem_name {c : Command} {d : Char} (h : d ∈ c.name.toList) :
    isPlain d = true := by
  have hall : c.name.toList.all isPlain = true := by cases c <;> decide
  exact List.all_eq_true.1 hall d h

theorem isPlain_of_mem_shortIf {d : Char} (h : d ∈ shortIf.toList) : isPlain d = true := by
  have hall : shortIf.toList.all isPlain = true := by decide
  exact List.all_eq_true.1 hall d h

/-! ### Characters of numbers -/

section Numbers

open Decimal

theorem isPlain_of_isDigit {c : Char} (h : c.isDigit = true) : isPlain c = true :=
  isPlain_of_isAlphanum (by simp [Char.isAlphanum, h])

theorem all_isPlain_of_digits? {cs : List Char} {n : Nat} (h : digits? cs = some n) :
    ∀ c ∈ cs, isPlain c = true := by
  unfold digits? at h
  split at h
  next hd =>
    simp only [Bool.and_eq_true, List.all_eq_true] at hd
    exact fun c hc ↦ isPlain_of_isDigit (hd.2 c hc)
  next => contradiction

theorem all_isPlain_of_nat? {cs : List Char} {n : Nat} (h : nat? cs = some n) :
    ∀ c ∈ cs, isPlain c = true := by
  unfold nat? at h
  split at h
  next r =>
    have := all_isPlain_of_digits? h
    exact List.forall_mem_cons.2 ⟨by decide, this⟩
  next => exact all_isPlain_of_digits? h

theorem all_isPlain_of_exponent? {cs : List Char} {e : Int} (h : exponent? cs = some e) :
    ∀ c ∈ cs, isPlain c = true := by
  unfold exponent? at h
  split at h
  next => exact fun c hc ↦ absurd hc List.not_mem_nil
  next c r =>
    split at h
    next hc =>
      have hplain : isPlain c = true := by rcases hc with rfl | rfl <;> decide
      refine List.forall_mem_cons.2 ⟨hplain, ?_⟩
      split at h
      next ds =>
        cases hn : digits? ds with
        | none => simp [hn] at h
        | some n => exact List.forall_mem_cons.2 ⟨by decide, all_isPlain_of_digits? hn⟩
      next =>
        cases hn : nat? r with
        | none => simp [hn] at h
        | some n => exact all_isPlain_of_nat? hn
    next => contradiction

theorem all_isPlain_of_spanDigits {cs : List Char} (h : ∀ c ∈ (spanDigits cs).2, isPlain c = true) :
    ∀ c ∈ cs, isPlain c = true := by
  rw [← spanDigits_append cs]
  refine List.forall_mem_append.2 ⟨fun c hc ↦ ?_, h⟩
  exact isPlain_of_isDigit (List.all_eq_true.1 List.all_takeWhile c hc)

theorem all_isPlain_of_positional? {cs : List Char} {x : Float} (h : positional? cs = some x) :
    ∀ c ∈ cs, isPlain c = true := by
  refine all_isPlain_of_spanDigits ?_
  have hrest : ∀ {b : Bool} {r : List Char} {f : Int → Float},
      (if b then none else (exponent? r).map f) = some x → ∀ c ∈ r, isPlain c = true := by
    intro b r f hr
    split at hr
    · contradiction
    · obtain ⟨e, he, -⟩ := Option.map_eq_some_iff.1 hr
      exact all_isPlain_of_exponent? he
  unfold positional? at h
  dsimp only at h
  split at h
  next r hr =>
    rw [hr]
    exact List.forall_mem_cons.2 ⟨by decide, all_isPlain_of_spanDigits (hrest h)⟩
  next => exact hrest h

theorem isPlain_of_toLower {c : Char} (h : c.toLower.isAlphanum = true) : isPlain c = true := by
  unfold Char.toLower at h
  split at h
  next hu =>
    have hupper : c.isUpper = true := decide_eq_true hu
    have hc : c.isAlphanum = (c.isUpper || c.isLower || c.isDigit) := rfl
    refine isPlain_of_isAlphanum ?_
    rw [hc, hupper, Bool.true_or, Bool.true_or]
  next => exact isPlain_of_isAlphanum h

theorem all_isPlain_of_named? {cs : List Char} {x : Float} (h : named? cs = some x) :
    ∀ c ∈ cs, isPlain c = true := by
  have hword : ∀ {w : List Char}, String.ofList (cs.map Char.toLower) = String.ofList w →
      w.all Char.isAlphanum = true → ∀ c ∈ cs, isPlain c = true := by
    intro w hw hall c hc
    have hm : c.toLower ∈ w := String.ofList_injective hw ▸ List.mem_map_of_mem hc
    exact isPlain_of_toLower (List.all_eq_true.1 hall _ hm)
  unfold named? at h
  dsimp only at h
  split at h
  next hi =>
    rcases hi with hi | hi
    · exact hword (w := ['i', 'n', 'f']) hi (by decide)
    · exact hword (w := ['i', 'n', 'f', 'i', 'n', 'i', 't', 'y']) hi (by decide)
  next =>
    split at h
    next hn => exact hword (w := ['n', 'a', 'n']) hn (by decide)
    next => contradiction

/-- A number is written without blanks, parentheses and commas. -/
theorem all_isPlain_of_float? {cs : List Char} {x : Float} (h : float? cs = some x) :
    ∀ c ∈ cs, isPlain c = true := by
  have hunsigned : ∀ {cs : List Char} {x : Float}, (positional? cs).or (named? cs) = some x →
      ∀ c ∈ cs, isPlain c = true := by
    intro cs x hx
    rcases Option.or_eq_some_iff.1 hx with hx | ⟨-, hx⟩
    · exact all_isPlain_of_positional? hx
    · exact all_isPlain_of_named? hx
  unfold float? at h
  dsimp only at h
  split at h
  next r =>
    obtain ⟨y, hy, -⟩ := Option.map_eq_some_iff.1 h
    exact List.forall_mem_cons.2 ⟨by decide, hunsigned hy⟩
  next r => exact List.forall_mem_cons.2 ⟨by decide, hunsigned h⟩
  next => exact hunsigned h

end Numbers

/-! ## Ends of statements

A statement neither begins nor ends with a blank, so it is clear where the
blanks around it begin and end. -/

theorem IsStatement.exists_cons {t : List Char} {p : Phrase} (h : IsStatement t p) :
    ∃ c r, t = c :: r ∧ isBlank c = false := by
  have hplain : ∀ {t : List Char}, t ≠ [] → (∀ c ∈ t, isPlain c = true) →
      ∃ c r, t = c :: r ∧ isBlank c = false := by
    intro t hne ht
    obtain ⟨c, r, rfl⟩ := List.exists_cons_of_ne_nil hne
    exact ⟨c, r, rfl, (isPlain_iff.1 (ht c List.mem_cons_self)).1⟩
  cases h with
  | number hx hf =>
    refine hplain ?_ (all_isPlain_of_float? hx)
    rintro rfl
    exact absurd hx
      (by simp [Decimal.float?, Decimal.positional?, Decimal.spanDigits, Decimal.named?])
  | name hne ha hx => exact hplain hne fun c hc ↦ isPlain_of_isAlphanumeric (ha c hc)
  | call c _ _ =>
    obtain ⟨d, r, hd, hb⟩ := hplain (t := c.name.toList) (by cases c <;> decide)
      fun d hd ↦ isPlain_of_mem_name hd
    exact ⟨d, r ++ _, by rw [hd, List.cons_append], hb⟩
  | shortIf _ _ => exact ⟨'i', _, rfl, by decide⟩

theorem IsStatement.exists_append {t : List Char} {p : Phrase} (h : IsStatement t p) :
    ∃ r c, t = r ++ [c] ∧ isBlank c = false := by
  have hplain : ∀ {t : List Char}, t ≠ [] → (∀ c ∈ t, isPlain c = true) →
      ∃ r c, t = r ++ [c] ∧ isBlank c = false := by
    intro t hne ht
    obtain ⟨r, c, rfl⟩ : ∃ r c, t = r ++ [c] :=
      ⟨t.dropLast, t.getLast hne, (List.dropLast_concat_getLast hne).symm⟩
    exact ⟨r, c, rfl, (isPlain_iff.1 (ht c (by simp))).1⟩
  have hne : t ≠ [] := by
    obtain ⟨c, r, rfl, -⟩ := h.exists_cons
    simp
  cases h with
  | number hx hf => exact hplain hne (all_isPlain_of_float? hx)
  | name _ ha hx => exact hplain hne fun c hc ↦ isPlain_of_isAlphanumeric (ha c hc)
  | @call body _ c _ _ => exact ⟨c.name.toList ++ '(' :: body, ')', by simp, by decide⟩
  | @shortIf body _ _ _ => exact ⟨Script.shortIf.toList ++ '(' :: body, ')', by simp, by decide⟩

theorem IsStatementRow.exists_cons {t : List Char} {ps : List Phrase} (h : IsStatementRow t ps) :
    ∃ c r, t = c :: r ∧ isBlank c = false := by
  cases h with
  | last h => exact h.exists_cons
  | cons h hv hne hr =>
    obtain ⟨c, r, rfl, hc⟩ := h.exists_cons
    exact ⟨c, _, rfl, hc⟩

theorem IsStatementRow.exists_append {t : List Char} {ps : List Phrase} (h : IsStatementRow t ps) :
    ∃ r c, t = r ++ [c] ∧ isBlank c = false := by
  induction ps generalizing t with
  | nil => cases h
  | cons p ps ih =>
    cases h with
    | last h => exact h.exists_append
    | @cons t v _ _ _ h hv hne hr =>
      obtain ⟨r, c, rfl, hc⟩ := ih hr
      exact ⟨t ++ (v ++ r), c, by simp, hc⟩

theorem IsStatementRow.ne_nil {t : List Char} {ps : List Phrase} (h : IsStatementRow t ps) :
    ps ≠ [] := by
  cases h <;> simp

/-- A script says nothing if and only if it is blank. -/
theorem IsScript.eq_nil_iff {t : List Char} {ps : List Phrase} (h : IsScript t ps) :
    ps = [] ↔ allBlank t = true := by
  cases h with
  | blank hw => simp [hw]
  | statements hw h hv =>
    obtain ⟨c, r, rfl, hc⟩ := h.exists_cons
    simp [h.ne_nil, allBlank, hc]

end Skirmish.Script
