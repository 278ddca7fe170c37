import Mathlib.Data.List.Nodup
import Skirmish.Proofs.Script.Names
import Skirmish.Proofs.Script.SideBySide
import Skirmish.Script.Arithmetic

/-!
# Names under other numbers

The number of a name depends on the table that it was put into, and on what was
put there before.  Here two tables are compared: symbols match if they stand for
the same text, and values, variables and terms are alike if they differ in
symbols that match and in nothing else.

Main statements: operators and printing do not tell alike values apart
(`Value.Alike.equal_eq`, `Value.Alike.text_eq`), a text compiles or fails to
compile alike over all tables (`compile_endsAlike`), and its blocks are alike
(`compile_alike`).
-/

namespace Skirmish.Script

open Text

/-! ## Symbols and values -/

/-- Symbols of two tables that stand for the same text. -/
structure Symbol.Matches (t u : SymbolTable) (n m : Symbol) : Prop where
  left : n.index < t.entries.length
  right : m.index < u.entries.length
  lookup : t.lookup n = u.lookup m

/-- In a table, different symbols have different texts. -/
theorem SymbolTable.lookup_inj {t : SymbolTable} {n m : Symbol} (hn : n.index < t.entries.length)
    (hm : m.index < t.entries.length) (h : t.lookup n = t.lookup m) : n = m := by
  obtain ⟨i⟩ := n
  obtain ⟨j⟩ := m
  have hij : t.entries[i] = t.entries[j] := by
    simpa only [lookup, List.getD_eq_getElem?_getD, List.getElem?_eq_getElem hn,
      List.getElem?_eq_getElem hm, Option.getD_some] using h
  rw [(List.Nodup.getElem_inj_iff t.nodup).1 hij]

variable {t u : SymbolTable}

namespace Symbol.Matches

variable {n n' m m' : Symbol}

/-- A symbol has one match at most, on either side. -/
theorem eq_iff (h : n.Matches t u m) (h' : n'.Matches t u m') : n = n' ↔ m = m' := by
  constructor
  · rintro rfl
    exact SymbolTable.lookup_inj h.right h'.right (h.lookup.symm.trans h'.lookup)
  · rintro rfl
    exact SymbolTable.lookup_inj h.left h'.left (h.lookup.trans h'.lookup.symm)

/-- Whichever tables a text is put into, its symbols match, and go on to do so when
the tables grow. -/
theorem of_intern {t₀ u₀ : SymbolTable} {text : String} (ht : (t₀.intern text).2.GrowsTo t)
    (hu : (u₀.intern text).2.GrowsTo u) :
    Matches t u (t₀.intern text).1 (u₀.intern text).1 where
  left := Nat.lt_of_lt_of_le (t₀.index_intern_lt text) ht.length_le
  right := Nat.lt_of_lt_of_le (u₀.index_intern_lt text) hu.length_le
  lookup := ht.lookup_intern.trans hu.lookup_intern.symm

end Symbol.Matches

/-- Values that are the same, or names with the same text. -/
inductive Value.Alike (t u : SymbolTable) : Value → Value → Prop
  | int (n : Int64) : Alike t u (.int n) (.int n)
  | float (x : Float) : Alike t u (.float x) (.float x)
  | bool (b : Bool) : Alike t u (.bool b) (.bool b)
  | symbol {n m : Symbol} (h : n.Matches t u m) : Alike t u (.symbol n) (.symbol m)

namespace Value

theorem alike_of_isSymbol {v : Value} (h : v.isSymbol = false) : v.Alike t u v := by
  cases v with
  | int n => exact .int n
  | float x => exact .float x
  | bool b => exact .bool b
  | symbol s => cases h

namespace Alike

variable {a a' b b' : Value}

theorem kind_eq (h : a.Alike t u a') : a.kind = a'.kind := by cases h <;> rfl

theorem isTrue_eq (h : a.Alike t u a') : a.isTrue = a'.isTrue := by cases h <;> rfl

theorem eq_of_isSymbol (h : a.Alike t u a') (ha : a.isSymbol = false) : a = a' := by
  cases h with
  | symbol h => cases ha
  | int n => rfl
  | float x => rfl
  | bool b => rfl

/-- What is printed of a value is its text, whatever its number. -/
theorem text_eq (h : a.Alike t u a') : a.text t = a'.text u := by
  cases h with
  | symbol h => exact h.lookup
  | int n => rfl
  | float x => rfl
  | bool b => rfl

theorem arithmetic_eq (ha : a.Alike t u a') (hb : b.Alike t u b') (c : Command)
    (onInts : Int → Int → Int) (onFloats : Float → Float → Float) :
    arithmetic c onInts onFloats a b = arithmetic c onInts onFloats a' b' := by
  cases ha <;> cases hb <;> rfl

theorem comparison_eq (ha : a.Alike t u a') (hb : b.Alike t u b') (c : Command)
    (onInts : Int64 → Int64 → Bool) (onFloats : Float → Float → Bool) :
    comparison c onInts onFloats a b = comparison c onInts onFloats a' b' := by
  cases ha <;> cases hb <;> rfl

theorem div_eq (ha : a.Alike t u a') (hb : b.Alike t u b') : a.div b = a'.div b' := by
  cases ha <;> cases hb <;> rfl

/-- Names are the same if their texts are. -/
theorem equal_eq (ha : a.Alike t u a') (hb : b.Alike t u b') : a.equal b = a'.equal b' := by
  cases ha with
  | symbol hn =>
    cases hb with
    | symbol hm => exact Bool.eq_iff_iff.2 (by simpa [equal] using hn.eq_iff hm)
    | int n => rfl
    | float x => rfl
    | bool b => rfl
  | int n => cases hb <;> rfl
  | float x => cases hb <;> rfl
  | bool b => cases hb <;> rfl

end Alike

end Value

/-! ## Terms -/

mutual

/-- The same term, but for the numbers of its names. -/
inductive Term.Alike (t u : SymbolTable) : Term → Term → Prop
  | literal {v v' : Value} (h : v.Alike t u v') : Term.Alike t u (.literal v) (.literal v')
  | symbol {n m : Symbol} (h : n.Matches t u m) : Term.Alike t u (.symbol n) (.symbol m)
  | call (c : Command) {args args' : List Block} (h : ArgumentsAlike t u args args') :
    Term.Alike t u (.call c args) (.call c args')

/-- The same block, but for the numbers of its names. -/
inductive BlockAlike (t u : SymbolTable) : Block → Block → Prop
  | nil : BlockAlike t u [] []
  | cons {x y : Term} {xs ys : Block} (h : x.Alike t u y) (hs : BlockAlike t u xs ys) :
    BlockAlike t u (x :: xs) (y :: ys)

/-- The same arguments of a call, but for the numbers of their names. -/
inductive ArgumentsAlike (t u : SymbolTable) : List Block → List Block → Prop
  | nil : ArgumentsAlike t u [] []
  | cons {b b' : Block} {bs bs' : List Block} (h : BlockAlike t u b b')
    (hs : ArgumentsAlike t u bs bs') : ArgumentsAlike t u (b :: bs) (b' :: bs')

end

theorem BlockAlike.zero : BlockAlike t u .zero .zero := .cons (.literal (.int 0)) .nil

theorem ArgumentsAlike.append {as bs as' bs' : List Block} (h : ArgumentsAlike t u as bs)
    (h' : ArgumentsAlike t u as' bs') : ArgumentsAlike t u (as ++ as') (bs ++ bs') := by
  induction as generalizing bs with
  | nil =>
    cases h
    exact h'
  | cons a as ih =>
    cases h with
    | cons hb hs => exact .cons hb (ih hs)

mutual

theorem IsStatement.alike {s : List Char} {p : Phrase} :
    IsStatement s p → (t₀ u₀ : SymbolTable) → (p.intern t₀).2.GrowsTo t →
      (p.intern u₀).2.GrowsTo u → (p.intern t₀).1.Alike t u (p.intern u₀).1
  | .number _ _, _, _, _, _ => .literal (Value.alike_of_isSymbol (Value.isSymbol_number _))
  | .name _ _ _, _, _, ht, hu => .symbol (.of_intern ht hu)
  | .call c h _, t₀, u₀, ht, hu => .call c (h.alike t₀ u₀ ht hu)
  | .shortIf h _, t₀, u₀, ht, hu => by
    rw [Phrase.intern, internArguments_append_zero] at ht hu ⊢
    rw [Phrase.intern, internArguments_append_zero]
    exact .call .ifElse ((h.alike t₀ u₀ ht hu).append (.cons .zero .nil))

theorem IsArguments.alike {s : List Char} {args : List (List Phrase)} :
    IsArguments s args → (t₀ u₀ : SymbolTable) → (internArguments args t₀).2.GrowsTo t →
      (internArguments args u₀).2.GrowsTo u →
      ArgumentsAlike t u (internArguments args t₀).1 (internArguments args u₀).1
  | .none, _, _, _, _ => .nil
  | .some h, t₀, u₀, ht, hu => h.alike t₀ u₀ ht hu

theorem IsArgumentRow.alike {s : List Char} {args : List (List Phrase)} :
    IsArgumentRow s args → (t₀ u₀ : SymbolTable) → (internArguments args t₀).2.GrowsTo t →
      (internArguments args u₀).2.GrowsTo u →
      ArgumentsAlike t u (internArguments args t₀).1 (internArguments args u₀).1
  | .last h _, t₀, u₀, ht, hu => .cons (h.alike t₀ u₀ ht hu) .nil
  | .cons h _ hr, t₀, u₀, ht, hu =>
    .cons (h.alike t₀ u₀ ((growsTo_internArguments _ _).trans ht)
      ((growsTo_internArguments _ _).trans hu)) (hr.alike _ _ ht hu)

/-- Put into two tables, the names of a script become symbols that match in all
tables that these grow to. -/
theorem IsScript.alike {s : List Char} {ps : List Phrase} :
    IsScript s ps → (t₀ u₀ : SymbolTable) → (internPhrases ps t₀).2.GrowsTo t →
      (internPhrases ps u₀).2.GrowsTo u →
      BlockAlike t u (internPhrases ps t₀).1 (internPhrases ps u₀).1
  | .blank _, _, _, _, _ => .nil
  | .statements _ h _, t₀, u₀, ht, hu => h.alike t₀ u₀ ht hu

theorem IsStatementRow.alike {s : List Char} {ps : List Phrase} :
    IsStatementRow s ps → (t₀ u₀ : SymbolTable) → (internPhrases ps t₀).2.GrowsTo t →
      (internPhrases ps u₀).2.GrowsTo u →
      BlockAlike t u (internPhrases ps t₀).1 (internPhrases ps u₀).1
  | .last h, t₀, u₀, ht, hu => .cons (h.alike t₀ u₀ ht hu) .nil
  | .cons h _ _ hr, t₀, u₀, ht, hu =>
    .cons (h.alike t₀ u₀ ((growsTo_internPhrases _ _).trans ht)
      ((growsTo_internPhrases _ _).trans hu)) (hr.alike _ _ ht hu)

end

/-! ## Compiling -/

/-- Work on a table of names that fails in the same way whatever the table is. -/
abbrev Compiling.IgnoresTable {α : Type} (x : Compiling α) : Prop :=
  Alongside (fun _ _ ↦ True) (fun _ _ ↦ True) x x

theorem internName_ignoresTable (name : String) : (internName name).IgnoresTable :=
  fun _ _ _ ↦ ⟨.ok trivial, trivial⟩

theorem compileNumber_ignoresTable (token : List Char) : (compileNumber token).IgnoresTable := by
  unfold compileNumber
  split
  · exact .pure trivial
  · exact .throw _

theorem compileHead_ignoresTable (token : List Char) (count : Nat) :
    (compileHead token count).IgnoresTable := by
  unfold compileHead
  split
  · exact .pure trivial
  · exact .throw _

mutual

theorem compileToken_ignoresTable (token : List Char) : (compileToken token).IgnoresTable := by
  rw [compileToken]
  split
  · exact .throw _
  · exact compileNumber_ignoresTable token
  · exact (internName_ignoresTable _).bind fun _ _ _ ↦ .pure trivial
  · split
    next => exact .throw _
    next args _ =>
      refine (compileHead_ignoresTable token args.length).bind fun _ _ _ ↦ ?_
      exact (compileArguments_ignoresTable args).bind fun _ _ _ ↦ .pure trivial
termination_by 2 * token.length + 1
decreasing_by
  have := pieceWeight_arguments_lt ‹arguments token = .ok _›
  omega

theorem compileTokens_ignoresTable (tokens : List (List Char)) :
    (compileTokens tokens).IgnoresTable := by
  rw [compileTokens.eq_def]
  match tokens with
  | [] => exact .pure trivial
  | token :: rest =>
    refine (compileToken_ignoresTable token).bind fun _ _ _ ↦ ?_
    exact (compileTokens_ignoresTable rest).bind fun _ _ _ ↦ .pure trivial
termination_by 2 * pieceWeight tokens
decreasing_by all_goals simp only [pieceWeight_cons]; omega

theorem compileArguments_ignoresTable (args : List (List Char)) :
    (compileArguments args).IgnoresTable := by
  rw [compileArguments.eq_def]
  match args with
  | [] => exact .pure trivial
  | arg :: rest =>
    refine (compileTokens_ignoresTable (statements arg)).bind fun _ _ _ ↦ ?_
    exact (compileArguments_ignoresTable rest).bind fun _ _ _ ↦ .pure trivial
termination_by 2 * pieceWeight args + 1
decreasing_by
  · have := pieceWeight_statements_le arg
    simp only [pieceWeight_cons]
    omega
  · simp only [pieceWeight_cons]
    omega

end

/-- A text compiles over one table if and only if it compiles over another one, and
otherwise has the same problem. -/
theorem compile_endsAlike (t u : SymbolTable) (text : String) :
    EndsAlike (fun _ _ ↦ True) (compile t text).1 (compile u text).1 :=
  (compileTokens_ignoresTable (statements text.toList) t u trivial).1

/-- The blocks that a text compiles to over two tables are alike. -/
theorem compile_alike {t₀ t₁ u₀ u₁ : SymbolTable} {text : String} {block block' : Block}
    (h : compile t₀ text = (.ok block, t₁)) (h' : compile u₀ text = (.ok block', u₁))
    (ht : t₁.GrowsTo t) (hu : u₁.GrowsTo u) : BlockAlike t u block block' := by
  obtain ⟨ps, hps, hblock⟩ := compile_eq_ok_iff.1 h
  obtain ⟨qs, hqs, hblock'⟩ := compile_eq_ok_iff.1 h'
  cases hqs.unique hps
  have := hps.alike t₀ u₀ (by rwa [hblock]) (by rwa [hblock'])
  rwa [hblock, hblock'] at this

end Skirmish.Script
