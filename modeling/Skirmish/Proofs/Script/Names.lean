import Skirmish.Proofs.Script.Compiling

/-!
# Names in scripts

A compiled script holds numbers in place of names.  Tables of names only grow
(`SymbolTable.GrowsTo`), so whichever table is used later on, the texts of these
numbers are names that were written in the script (`compile_namedBy`).
-/

namespace Skirmish.Script

/-! ## Tables that grow -/

namespace SymbolTable

variable {t t' t'' : SymbolTable}

/-- A table knows all texts of another one, under the same numbers. -/
def GrowsTo (t t' : SymbolTable) : Prop := t.entries <+: t'.entries

theorem GrowsTo.refl (t : SymbolTable) : t.GrowsTo t := List.prefix_rfl

theorem GrowsTo.trans (h : t.GrowsTo t') (h' : t'.GrowsTo t'') : t.GrowsTo t'' :=
  List.IsPrefix.trans h h'

theorem growsTo_intern (t : SymbolTable) (text : String) : t.GrowsTo (t.intern text).2 := by
  rw [GrowsTo, entries_intern]
  split
  · exact List.prefix_rfl
  · exact List.prefix_append _ _

theorem index_intern_lt (t : SymbolTable) (text : String) :
    (t.intern text).1.index < (t.intern text).2.entries.length := by
  unfold intern
  split
  next h => exact List.idxOf_lt_length_of_mem h
  next h => simp [size]

/-- Symbols keep their texts when a table grows. -/
theorem GrowsTo.lookup_eq (h : t.GrowsTo t') {s : Symbol} (hs : s.index < t.entries.length) :
    t'.lookup s = t.lookup s := by
  obtain ⟨rest, hrest⟩ := h
  simp only [lookup, ← hrest, List.getD_eq_getElem?_getD, List.getElem?_append_left hs]

theorem GrowsTo.lookup_intern {text : String} (h : (t.intern text).2.GrowsTo t') :
    t'.lookup (t.intern text).1 = text :=
  (h.lookup_eq (t.index_intern_lt text)).trans (t.lookup_intern text)

end SymbolTable

mutual

theorem Phrase.growsTo_intern :
    (p : Phrase) → (symbols : SymbolTable) → symbols.GrowsTo (p.intern symbols).2
  | .literal _, symbols => .refl symbols
  | .name text, symbols => symbols.growsTo_intern text
  | .call _ args, symbols => growsTo_internArguments args symbols

/-- Compiling a script lets the table grow. -/
theorem growsTo_internPhrases :
    (ps : List Phrase) → (symbols : SymbolTable) → symbols.GrowsTo (internPhrases ps symbols).2
  | [], symbols => .refl symbols
  | p :: ps, symbols => (p.growsTo_intern symbols).trans (growsTo_internPhrases ps _)

theorem growsTo_internArguments :
    (args : List (List Phrase)) → (symbols : SymbolTable) →
      symbols.GrowsTo (internArguments args symbols).2
  | [], symbols => .refl symbols
  | ps :: args, symbols => (growsTo_internPhrases ps symbols).trans (growsTo_internArguments args _)

end

/-! ## The names that are written -/

mutual

/-- The names in a phrase. -/
def Phrase.names : Phrase → List String
  | .literal _ => []
  | .name text => [text]
  | .call _ args => argumentNames args

/-- The names in a script. -/
def phraseNames : List Phrase → List String
  | [] => []
  | p :: ps => p.names ++ phraseNames ps

/-- The names in the arguments of a call. -/
def argumentNames : List (List Phrase) → List String
  | [] => []
  | ps :: args => phraseNames ps ++ argumentNames args

end

theorem argumentNames_append_zero (args : List (List Phrase)) :
    argumentNames (args ++ [Phrase.zero]) = argumentNames args := by
  induction args with
  | nil => rfl
  | cons ps args ih => rw [List.cons_append, argumentNames, argumentNames, ih]

/-- The text is a script, and the name is written in it. -/
def IsNameIn (text : List Char) (name : String) : Prop :=
  ∃ ps, IsScript text ps ∧ name ∈ phraseNames ps

mutual

/-- All symbols in a term have a property, and no literal is a symbol. -/
def Term.NamedBy (P : Symbol → Prop) : Term → Prop
  | .literal v => v.isSymbol = false
  | .symbol s => P s
  | .call _ args => ArgumentsNamedBy P args

/-- The same of a block. -/
def BlockNamedBy (P : Symbol → Prop) : List Term → Prop
  | [] => True
  | t :: ts => t.NamedBy P ∧ BlockNamedBy P ts

/-- The same of the arguments of a call. -/
def ArgumentsNamedBy (P : Symbol → Prop) : List (List Term) → Prop
  | [] => True
  | b :: bs => BlockNamedBy P b ∧ ArgumentsNamedBy P bs

end

theorem argumentsNamedBy_append {P : Symbol → Prop} {args args' : List Block}
    (h : ArgumentsNamedBy P args) (h' : ArgumentsNamedBy P args') : ArgumentsNamedBy P (args ++ args') := by
  induction args with
  | nil => exact h'
  | cons b bs ih => exact ⟨h.1, ih h.2⟩

theorem argumentsNamedBy_zero {P : Symbol → Prop} : ArgumentsNamedBy P [Block.zero] :=
  ⟨⟨rfl, trivial⟩, trivial⟩

theorem Value.isSymbol_number (x : Float) : (number x).isSymbol = false := by
  unfold number
  dsimp only
  rw [apply_ite isSymbol]
  exact ite_self false

section Texts

variable {table : SymbolTable} {P : Symbol → Prop}

mutual

theorem IsStatement.namedBy {t : List Char} {p : Phrase} :
    IsStatement t p → (symbols : SymbolTable) → (p.intern symbols).2.GrowsTo table →
      (∀ s, table.lookup s ∈ p.names → P s) → (p.intern symbols).1.NamedBy P
  | .number _ _, _, _, _ => Value.isSymbol_number _
  | .name _ _ _, _, hgrows, hP => hP _ (List.mem_singleton.2 hgrows.lookup_intern)
  | .call _ h _, symbols, hgrows, hP => h.namedBy symbols hgrows hP
  | .shortIf h _, symbols, hgrows, hP => by
    rw [Phrase.intern, internArguments_append_zero] at hgrows ⊢
    rw [Phrase.names, argumentNames_append_zero] at hP
    exact argumentsNamedBy_append (h.namedBy symbols hgrows hP) argumentsNamedBy_zero

theorem IsArguments.namedBy {t : List Char} {args : List (List Phrase)} :
    IsArguments t args → (symbols : SymbolTable) → (internArguments args symbols).2.GrowsTo table →
      (∀ s, table.lookup s ∈ argumentNames args → P s) →
      ArgumentsNamedBy P (internArguments args symbols).1
  | .none, _, _, _ => trivial
  | .some h, symbols, hgrows, hP => h.namedBy symbols hgrows hP

theorem IsArgumentRow.namedBy {t : List Char} {args : List (List Phrase)} :
    IsArgumentRow t args → (symbols : SymbolTable) →
      (internArguments args symbols).2.GrowsTo table →
      (∀ s, table.lookup s ∈ argumentNames args → P s) →
      ArgumentsNamedBy P (internArguments args symbols).1
  | .last h _, symbols, hgrows, hP =>
    ⟨h.namedBy symbols hgrows fun s hs ↦ hP s (List.mem_append_left _ hs), trivial⟩
  | .cons h _ hr, symbols, hgrows, hP =>
    ⟨h.namedBy symbols ((growsTo_internArguments _ _).trans hgrows) fun s hs ↦
        hP s (List.mem_append_left _ hs),
      hr.namedBy _ hgrows fun s hs ↦ hP s (List.mem_append_right _ hs)⟩

/-- The symbols of a script stand for names that are written in it, in every table
that the one of the script grows to. -/
theorem IsScript.namedBy {t : List Char} {ps : List Phrase} :
    IsScript t ps → (symbols : SymbolTable) → (internPhrases ps symbols).2.GrowsTo table →
      (∀ s, table.lookup s ∈ phraseNames ps → P s) → BlockNamedBy P (internPhrases ps symbols).1
  | .blank _, _, _, _ => trivial
  | .statements _ h _, symbols, hgrows, hP => h.namedBy symbols hgrows hP

theorem IsStatementRow.namedBy {t : List Char} {ps : List Phrase} :
    IsStatementRow t ps → (symbols : SymbolTable) → (internPhrases ps symbols).2.GrowsTo table →
      (∀ s, table.lookup s ∈ phraseNames ps → P s) → BlockNamedBy P (internPhrases ps symbols).1
  | .last h, symbols, hgrows, hP =>
    ⟨h.namedBy symbols hgrows fun s hs ↦ hP s (List.mem_append_left _ hs), trivial⟩
  | .cons h _ _ hr, symbols, hgrows, hP =>
    ⟨h.namedBy symbols ((growsTo_internPhrases _ _).trans hgrows) fun s hs ↦
        hP s (List.mem_append_left _ hs),
      hr.namedBy _ hgrows fun s hs ↦ hP s (List.mem_append_right _ hs)⟩

end

end Texts

/-- The symbols of a compiled script stand for names that are written in its text. -/
theorem compile_namedBy {symbols symbols' table : SymbolTable} {text : String} {block : Block}
    (h : compile symbols text = (.ok block, symbols')) (hgrows : symbols'.GrowsTo table)
    {P : Symbol → Prop} (hP : ∀ s, IsNameIn text.toList (table.lookup s) → P s) :
    BlockNamedBy P block := by
  obtain ⟨ps, hps, hblock⟩ := compile_eq_ok_iff.1 h
  have := hps.namedBy symbols (by rwa [hblock]) fun s hs ↦ hP s ⟨ps, hps, hs⟩
  rwa [hblock] at this

end Skirmish.Script
