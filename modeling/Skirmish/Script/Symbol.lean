/-!
# Symbols

The names in scripts are compared very often and read very seldom, so a script
holds numbers in their place.  A `SymbolTable` gives each text one number, in
order of first appearance; the empty text has number 0 from the start.

Texts are never taken out, so a symbol keeps its text for good.
-/

namespace Skirmish.Script

/-- The number of a name. -/
structure Symbol where
  index : Nat
deriving DecidableEq

/-- The symbol of the empty text. -/
def Symbol.blank : Symbol := ⟨0⟩

/-- The texts that have a number: a text stands where its number points. -/
structure SymbolTable where
  entries : List String
  nodup : entries.Nodup
  head_entries : entries.head? = some ""

namespace SymbolTable

/-- The table that knows the empty text only. -/
def new : SymbolTable := ⟨[""], by simp, rfl⟩

/-- How many texts have a number. -/
def size (t : SymbolTable) : Nat := t.entries.length

/-- The text of a symbol, empty if the symbol is not from this table. -/
def lookup (t : SymbolTable) (s : Symbol) : String := t.entries.getD s.index ""

/-- Put a new text behind the others. -/
def push (t : SymbolTable) (text : String) (h : text ∉ t.entries) : SymbolTable where
  entries := t.entries ++ [text]
  nodup := by
    rw [List.nodup_append]
    refine ⟨t.nodup, by simp, ?_⟩
    rintro a ha b hb rfl
    exact h (List.mem_singleton.1 hb ▸ ha)
  head_entries := by rw [List.head?_append, t.head_entries, Option.some_or]

/-- The symbol of a text, and the table that knows it. -/
def intern (t : SymbolTable) (text : String) : Symbol × SymbolTable :=
  if h : text ∈ t.entries then (⟨t.entries.idxOf text⟩, t)
  else (⟨t.size⟩, t.push text h)

@[simp] theorem entries_new : new.entries = [""] := rfl

@[simp] theorem entries_push (t : SymbolTable) (text : String) (h : text ∉ t.entries) :
    (t.push text h).entries = t.entries ++ [text] := rfl

/-- Interning keeps the table and puts the text behind it if it is new. -/
theorem entries_intern (t : SymbolTable) (text : String) :
    (t.intern text).2.entries = if text ∈ t.entries then t.entries else t.entries ++ [text] := by
  unfold intern
  split <;> rfl

/-- The text of a symbol is the one it was made from. -/
theorem lookup_intern (t : SymbolTable) (text : String) :
    (t.intern text).2.lookup (t.intern text).1 = text := by
  unfold intern
  split
  next h =>
    have hi := List.idxOf_lt_length_of_mem h
    simp [lookup, List.getD_eq_getElem?_getD, List.getElem?_eq_getElem hi]
  next h => simp [lookup, size, List.getD_eq_getElem?_getD]

end SymbolTable

end Skirmish.Script
