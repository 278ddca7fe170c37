import Mathlib.Data.Finset.Card
import Mathlib.Data.List.Nodup
import Skirmish.Proofs.Script.Renaming

/-!
# Interning one text after the other

`SymbolTable.internAll` puts texts into a table, one after the other.  Nothing is ever
taken out, so a symbol keeps its text whatever is put in later (`map_lookup_internAll`),
and a new text gets the next number (`fst_internAll_of_notMem`).

A `SymbolTable` finds the number of a text by looking through all its texts.  An
`IndexedTable` looks it up in an index beside the texts, and its numbers have 32 bits:
when they are used up it has none for a new text.  As long as there are few enough
texts, texts and index are inverse to each other and the two tables agree
(`IndexedTable.Indexes.internAll?`).

Main statement: `SymbolTable.numbering_grows`.
-/

namespace Skirmish.Script

namespace SymbolTable

/-- Put texts into a table, one after the other: their symbols, and the table that
knows them all. -/
def internAll (t : SymbolTable) : List String → List Symbol × SymbolTable
  | [] => ([], t)
  | text :: texts =>
    let (s, t) := t.intern text
    let (symbols, t) := t.internAll texts
    (s :: symbols, t)

theorem internAll_cons (t : SymbolTable) (text : String) (texts : List String) :
    t.internAll (text :: texts) =
      ((t.intern text).1 :: ((t.intern text).2.internAll texts).1,
        ((t.intern text).2.internAll texts).2) := rfl

theorem internAll_append (t : SymbolTable) (texts more : List String) :
    t.internAll (texts ++ more) =
      ((t.internAll texts).1 ++ ((t.internAll texts).2.internAll more).1,
        ((t.internAll texts).2.internAll more).2) := by
  induction texts generalizing t with
  | nil => rfl
  | cons text texts ih =>
    rw [List.cons_append, internAll_cons, ih, internAll_cons, List.cons_append]

theorem length_internAll (t : SymbolTable) (texts : List String) :
    (t.internAll texts).1.length = texts.length := by
  induction texts generalizing t with
  | nil => rfl
  | cons text texts ih => rw [internAll_cons, List.length_cons, ih, List.length_cons]

theorem growsTo_internAll (t : SymbolTable) (texts : List String) :
    t.GrowsTo (t.internAll texts).2 := by
  induction texts generalizing t with
  | nil => exact .refl t
  | cons text texts ih => exact (t.growsTo_intern text).trans (ih _)

/-! ## The texts of symbols -/

theorem index_lt_of_mem_internAll {t : SymbolTable} {texts : List String} {s : Symbol}
    (hs : s ∈ (t.internAll texts).1) : s.index < (t.internAll texts).2.entries.length := by
  induction texts generalizing t with
  | nil => cases hs
  | cons text texts ih =>
    rw [internAll_cons] at hs ⊢
    obtain rfl | hs := List.mem_cons.1 hs
    · exact Nat.lt_of_lt_of_le (t.index_intern_lt text) (growsTo_internAll _ texts).length_le
    · exact ih hs

/-- Each symbol has the text that it was made from, whatever is put in later. -/
theorem map_lookup_internAll {t t' : SymbolTable} {texts : List String}
    (h : (t.internAll texts).2.GrowsTo t') : (t.internAll texts).1.map t'.lookup = texts := by
  induction texts generalizing t with
  | nil => rfl
  | cons text texts ih =>
    have hhead : t'.lookup (t.intern text).1 = text :=
      ((growsTo_internAll _ texts).trans h).lookup_intern
    rw [internAll_cons, List.map_cons, hhead, ih (t := (t.intern text).2) h]

/-- Two symbols are the same if and only if the texts are that they were made from. -/
theorem internAll_eq_iff (t : SymbolTable) (texts : List String) (i j : Nat) :
    (t.internAll texts).1[i]? = (t.internAll texts).1[j]? ↔ texts[i]? = texts[j]? := by
  have htext : ∀ k : Nat,
      texts[k]? = (t.internAll texts).1[k]?.map (t.internAll texts).2.lookup := by
    intro k
    rw [← List.getElem?_map, map_lookup_internAll (.refl _)]
  rw [htext i, htext j]
  constructor
  · intro h
    rw [h]
  · intro h
    cases hi : (t.internAll texts).1[i]? with
    | none =>
      rw [hi, Option.map_none, eq_comm, Option.map_eq_none_iff] at h
      exact h.symm
    | some s =>
      rw [hi, Option.map_some, eq_comm, Option.map_eq_some_iff] at h
      obtain ⟨s', hj, hs⟩ := h
      have hlt := index_lt_of_mem_internAll (List.mem_of_getElem? hi)
      have hlt' := index_lt_of_mem_internAll (List.mem_of_getElem? hj)
      rw [hj, lookup_inj hlt' hlt hs]

theorem lookup_zero (t : SymbolTable) : t.lookup ⟨0⟩ = "" := by
  rw [lookup, List.getD_eq_getElem?_getD, ← List.head?_eq_getElem?, t.head_entries,
    Option.getD_some]

theorem lookup_of_size_le {t : SymbolTable} {s : Symbol} (h : t.size ≤ s.index) :
    t.lookup s = "" := by
  rw [lookup, List.getD_eq_getElem?_getD, List.getElem?_eq_none h, Option.getD_none]

/-! ## What a table knows -/

theorem mem_entries_intern {t : SymbolTable} {text other : String} :
    other ∈ (t.intern text).2.entries ↔ other ∈ t.entries ∨ other = text := by
  rw [entries_intern]
  split
  next h =>
    constructor
    · exact .inl
    · rintro (hmem | rfl)
      · exact hmem
      · exact h
  next => rw [List.mem_append, List.mem_singleton]

/-- A table knows what it knew before and what has been put in. -/
theorem mem_entries_internAll {t : SymbolTable} {texts : List String} {text : String} :
    text ∈ (t.internAll texts).2.entries ↔ text ∈ t.entries ∨ text ∈ texts := by
  induction texts generalizing t with
  | nil => exact (or_iff_left List.not_mem_nil).symm
  | cons head texts ih =>
    rw [internAll_cons, ih, mem_entries_intern, List.mem_cons, or_assoc]

/-- The empty text has a number from the start, and every other text gets one. -/
theorem size_internAll_new (texts : List String) :
    (new.internAll texts).2.size = 1 + (texts.toFinset.erase "").card := by
  have hentries : (new.internAll texts).2.entries.toFinset =
      insert "" (texts.toFinset.erase "") := by
    ext text
    rw [List.mem_toFinset, mem_entries_internAll, entries_new, List.mem_singleton,
      Finset.mem_insert, Finset.mem_erase, List.mem_toFinset]
    by_cases h : text = "" <;> simp [h]
  rw [size, ← List.toFinset_card_of_nodup (new.internAll texts).2.nodup, hentries,
    Finset.card_insert_of_notMem (Finset.notMem_erase "" _), Nat.add_comm]

/-- A text that is new gets the next number. -/
theorem fst_internAll_of_notMem {before : List String} {text : String} (after : List String)
    (h : text ∉ "" :: before) :
    (new.internAll (before ++ text :: after)).1[before.length]? =
      some ⟨1 + (before.toFinset.erase "").card⟩ := by
  have hnew : text ∉ (new.internAll before).2.entries := by
    rw [mem_entries_internAll, entries_new, List.mem_singleton]
    exact fun hmem ↦ h (List.mem_cons.2 hmem)
  rw [internAll_append, internAll_cons, List.getElem?_append_right (length_internAll _ _).le,
    length_internAll, Nat.sub_self, List.getElem?_cons_zero, intern, dif_neg hnew,
    size_internAll_new]

/-- Every number has been handed out, but for that of the empty text, which has been
there from the start. -/
theorem lt_size_internAll_new_iff {texts : List String} {i : Nat} :
    i < (new.internAll texts).2.size ↔ i = 0 ∨ ⟨i⟩ ∈ (new.internAll texts).1 := by
  have hzero : 0 < (new.internAll texts).2.size := by
    rw [size_internAll_new]
    omega
  constructor
  · intro hi
    have hmem : (new.internAll texts).2.lookup ⟨i⟩ ∈ (new.internAll texts).2.entries := by
      rw [lookup, List.getD_eq_getElem?_getD, List.getElem?_eq_getElem hi, Option.getD_some]
      exact List.getElem_mem hi
    rw [mem_entries_internAll, entries_new, List.mem_singleton] at hmem
    obtain hempty | htext := hmem
    · have heq := hempty.trans (lookup_zero (new.internAll texts).2).symm
      exact .inl (congrArg Symbol.index (lookup_inj (n := ⟨i⟩) (m := ⟨0⟩) hi hzero heq))
    · have hmade : (new.internAll texts).2.lookup ⟨i⟩ ∈
          (new.internAll texts).1.map (new.internAll texts).2.lookup := by
        rw [map_lookup_internAll (.refl _)]
        exact htext
      obtain ⟨s, hs, heq⟩ := List.mem_map.1 hmade
      obtain rfl := lookup_inj (m := ⟨i⟩) (index_lt_of_mem_internAll hs) hi heq
      exact .inr hs
  · rintro (rfl | hi)
    · exact hzero
    · exact index_lt_of_mem_internAll hi

end SymbolTable

/-! ## An index beside the texts -/

/-- The texts, each in the place of its number, and an index that leads from a text back
to the number.  Numbers have 32 bits. -/
structure IndexedTable where
  texts : Array String
  numbers : Std.HashMap String UInt32

namespace IndexedTable

/-- Put a new text behind the others. -/
def push (x : IndexedTable) (text : String) : IndexedTable :=
  ⟨x.texts.push text, x.numbers.insert text (UInt32.ofNat x.texts.size)⟩

/-- The table that knows the empty text only. -/
def new : IndexedTable := push ⟨#[], ∅⟩ ""

/-- The text of a number, empty if nothing has the number. -/
def lookup (x : IndexedTable) (number : UInt32) : String := x.texts[number.toNat]?.getD ""

/-- The number of a text, and the table that knows it, unless the text is new and no
number is left. -/
def intern? (x : IndexedTable) (text : String) : Option (UInt32 × IndexedTable) :=
  match x.numbers[text]? with
  | some number => some (number, x)
  | none =>
    if x.texts.size < UInt32.size then some (UInt32.ofNat x.texts.size, x.push text)
    else none

/-- Put texts into a table, one after the other, as long as there are numbers left. -/
def internAll? (x : IndexedTable) : List String → Option (List UInt32 × IndexedTable)
  | [] => some ([], x)
  | text :: texts =>
    match x.intern? text with
    | none => none
    | some (number, x) => (x.internAll? texts).map fun (numbers, x) ↦ (number :: numbers, x)

/-- Texts and index are inverse to each other. -/
def Inverse (x : IndexedTable) : Prop := ∀ (text : String) (number : UInt32),
  x.numbers[text]? = some number ↔ x.texts[number.toNat]? = some text

theorem Inverse.push {x : IndexedTable} {text : String} (h : x.Inverse) (hnew : text ∉ x.texts)
    (hroom : x.texts.size < UInt32.size) : (x.push text).Inverse := by
  intro other number
  have hsize : (UInt32.ofNat x.texts.size).toNat = x.texts.size :=
    UInt32.toNat_ofNat_of_lt' hroom
  simp only [IndexedTable.push, Std.HashMap.getElem?_insert, Array.getElem?_push, beq_iff_eq]
  by_cases hother : text = other
  · subst hother
    rw [if_pos rfl, Option.some_inj, ← UInt32.toNat_inj, hsize, eq_comm]
    split
    next hnumber => exact iff_of_true hnumber rfl
    next hnumber => exact iff_of_false hnumber fun e ↦ hnew (Array.mem_of_getElem? e)
  · rw [if_neg hother, h other number]
    split
    next hnumber =>
      rw [hnumber, Array.getElem?_eq_none (Nat.le_refl _), Option.some_inj]
      exact iff_of_false nofun hother
    next => exact Iff.rfl

/-- The two tables know the same texts, under the same numbers. -/
structure Indexes (x : IndexedTable) (t : SymbolTable) : Prop where
  texts : x.texts.toList = t.entries
  size_le : t.size ≤ UInt32.size
  inverse : x.Inverse

theorem indexes_new : new.Indexes .new where
  texts := rfl
  size_le := by decide
  inverse := by
    refine Inverse.push (fun text number ↦ ?_) (by simp) (by decide)
    exact iff_of_false (by simp) (by simp)

namespace Indexes

variable {x : IndexedTable} {t : SymbolTable} {text : String} {texts : List String}

theorem getElem?_texts (h : x.Indexes t) (i : Nat) : x.texts[i]? = t.entries[i]? := by
  rw [← h.texts, Array.getElem?_toList]

theorem size_texts (h : x.Indexes t) : x.texts.size = t.size := by
  rw [← Array.length_toList, h.texts, SymbolTable.size]

theorem lookup_eq (h : x.Indexes t) (number : UInt32) :
    x.lookup number = t.lookup ⟨number.toNat⟩ := by
  rw [lookup, h.getElem?_texts, SymbolTable.lookup, List.getD_eq_getElem?_getD]

theorem getElem?_numbers (h : x.Indexes t) (number : UInt32) :
    x.numbers[text]? = some number ↔ t.entries[number.toNat]? = some text := by
  rw [h.inverse, h.getElem?_texts]

/-- The index knows the texts that the table knows. -/
theorem getElem?_numbers_eq_none_iff (h : x.Indexes t) :
    x.numbers[text]? = none ↔ text ∉ t.entries := by
  constructor
  · intro hnone hmem
    obtain ⟨i, hi, htext⟩ := List.getElem_of_mem hmem
    have hnumber : (UInt32.ofNat i).toNat = i :=
      UInt32.toNat_ofNat_of_lt' (Nat.lt_of_lt_of_le hi h.size_le)
    have hsome : x.numbers[text]? = some (UInt32.ofNat i) := by
      rw [h.getElem?_numbers, hnumber, List.getElem?_eq_getElem hi, htext]
    cases hnone.symm.trans hsome
  · intro hnew
    cases hnumber : x.numbers[text]? with
    | none => rfl
    | some number =>
      exact absurd (List.mem_of_getElem? ((h.getElem?_numbers number).1 hnumber)) hnew

theorem push (h : x.Indexes t) (hnew : text ∉ t.entries) (hroom : t.size < UInt32.size) :
    (x.push text).Indexes (t.push text hnew) where
  texts := by rw [IndexedTable.push, Array.toList_push, h.texts, SymbolTable.entries_push]
  size_le := by
    rw [SymbolTable.size, SymbolTable.entries_push, List.length_append, List.length_singleton]
    exact hroom
  inverse := by
    refine h.inverse.push ?_ (h.size_texts ▸ hroom)
    rwa [← Array.mem_toList_iff, h.texts]

/-- As long as there are numbers left, the two tables do the same with a text. -/
theorem intern? (h : x.Indexes t) (hroom : (t.intern text).2.size ≤ UInt32.size) :
    ∃ number y, x.intern? text = some (number, y) ∧
      number.toNat = (t.intern text).1.index ∧ y.Indexes (t.intern text).2 := by
  by_cases hmem : text ∈ t.entries
  · have hknown : t.intern text = (⟨t.entries.idxOf text⟩, t) := dif_pos hmem
    obtain ⟨number, hnumber⟩ : ∃ number, x.numbers[text]? = some number :=
      Option.ne_none_iff_exists'.1 fun hnone ↦ h.getElem?_numbers_eq_none_iff.1 hnone hmem
    refine ⟨number, x, by rw [IndexedTable.intern?, hnumber], ?_, by rwa [hknown]⟩
    obtain ⟨hlt, htext⟩ := List.getElem?_eq_some_iff.1 ((h.getElem?_numbers number).1 hnumber)
    rw [hknown, ← htext, t.nodup.idxOf_getElem]
  · have hnew : t.intern text = (⟨t.size⟩, t.push text hmem) := dif_neg hmem
    have hlt : t.size < UInt32.size := by
      rw [hnew, SymbolTable.size, SymbolTable.entries_push, List.length_append] at hroom
      exact hroom
    refine ⟨UInt32.ofNat x.texts.size, x.push text, ?_, ?_, ?_⟩
    · rw [IndexedTable.intern?, h.getElem?_numbers_eq_none_iff.2 hmem]
      exact if_pos (h.size_texts ▸ hlt)
    · rw [hnew, h.size_texts]
      exact UInt32.toNat_ofNat_of_lt' hlt
    · rw [hnew]
      exact h.push hmem hlt

/-- As long as there are numbers left, the two tables do the same with any texts. -/
theorem internAll? (h : x.Indexes t) (hroom : (t.internAll texts).2.size ≤ UInt32.size) :
    ∃ numbers y, x.internAll? texts = some (numbers, y) ∧
      numbers.map (·.toNat) = (t.internAll texts).1.map (·.index) ∧
      y.Indexes (t.internAll texts).2 := by
  induction texts generalizing x t with
  | nil => exact ⟨[], x, rfl, rfl, h⟩
  | cons text texts ih =>
    rw [SymbolTable.internAll_cons] at hroom ⊢
    have hgrows := SymbolTable.growsTo_internAll (t.intern text).2 texts
    obtain ⟨number, y, he, hnumber, hy⟩ := h.intern? (Nat.le_trans hgrows.length_le hroom)
    obtain ⟨numbers, z, hes, hnumbers, hz⟩ := ih hy hroom
    refine ⟨number :: numbers, z, ?_, ?_, hz⟩
    · rw [IndexedTable.internAll?, he]
      dsimp only
      rw [hes, Option.map_some]
    · rw [List.map_cons, List.map_cons, hnumber, hnumbers]

end Indexes

end IndexedTable

namespace SymbolTable

/-- Whatever texts are put into a new table:

* every text has a symbol, whose text it is, and which goes on to be so whatever is put
  in later;
* symbols are the same where texts are, and nowhere else;
* the numbers that have been handed out are all those below the size of the table; the
  empty text has 0, and a text that was not there before has the number of texts that
  were;
* the size of the table is 1 and the number of different texts that are not empty, and a
  symbol that is beyond it has the empty text.

With fewer texts than 32 bits can tell apart, a table with an index never runs out of
numbers; it hands out the same ones and knows the same texts under them, and its texts
and its index are inverse to each other. -/
theorem numbering_grows (texts : List String) :
    let symbols : List Symbol := (new.internAll texts).1
    let t : SymbolTable := (new.internAll texts).2
    (∀ more, symbols.map (t.internAll more).2.lookup = texts) ∧
    (∀ i j : Nat, symbols[i]? = symbols[j]? ↔ texts[i]? = texts[j]?) ∧
    (∀ i, i < t.size ↔ i = 0 ∨ ⟨i⟩ ∈ symbols) ∧
    t.lookup ⟨0⟩ = "" ∧
    (∀ before text after, texts = before ++ text :: after → text ∉ "" :: before →
      symbols[before.length]? = some ⟨1 + (before.toFinset.erase "").card⟩) ∧
    t.size = 1 + (texts.toFinset.erase "").card ∧
    (∀ s : Symbol, t.size ≤ s.index → t.lookup s = "") ∧
    (texts.toFinset.card < UInt32.size → ∃ numbers x,
      IndexedTable.new.internAll? texts = some (numbers, x) ∧
      numbers.map (·.toNat) = symbols.map (·.index) ∧
      x.texts.size = t.size ∧ (∀ number, x.lookup number = t.lookup ⟨number.toNat⟩) ∧
      x.Inverse) := by
  intro symbols t
  refine ⟨fun more ↦ map_lookup_internAll (growsTo_internAll t more), internAll_eq_iff new texts,
    fun i ↦ lt_size_internAll_new_iff, lookup_zero t, ?_, size_internAll_new texts,
    fun s ↦ lookup_of_size_le, fun hfew ↦ ?_⟩
  · rintro before text after h hnew
    change (new.internAll texts).1[before.length]? = _
    rw [h]
    exact fst_internAll_of_notMem after hnew
  · have hsize : t.size ≤ UInt32.size := by
      have := Finset.card_le_card (Finset.erase_subset "" texts.toFinset)
      rw [size_internAll_new texts]
      omega
    obtain ⟨numbers, x, hx, hnumbers, h⟩ := IndexedTable.indexes_new.internAll? hsize
    exact ⟨numbers, x, hx, hnumbers, h.size_texts, h.lookup_eq, h.inverse⟩

/-- Of four texts one is empty and one comes twice. -/
theorem numbering_grows_twice :
    let texts := ["hp", "", "enemy", "hp"]
    let t := (new.internAll texts).2
    (new.internAll texts).1.map (·.index) = [1, 0, 2, 1] ∧
      (new.internAll texts).1[2]? = some ⟨1 + (["hp", ""].toFinset.erase "").card⟩ ∧
      t.size ≤ 3 ∧ t.lookup ⟨3⟩ = "" ∧ texts.toFinset.card < UInt32.size ∧
      ∃ numbers x, IndexedTable.new.internAll? texts = some (numbers, x) ∧
        numbers.map (·.toNat) = [1, 0, 2, 1] ∧ x.Inverse := by
  intro texts t
  obtain ⟨-, -, -, -, hnew, -, hbeyond, hindexed⟩ := numbering_grows texts
  have hnumbers : (new.internAll texts).1.map (·.index) = [1, 0, 2, 1] := by decide
  have hsize : t.size ≤ 3 := by decide
  have hfew : texts.toFinset.card < UInt32.size := by decide
  obtain ⟨numbers, x, hx, hsame, -, -, hinverse⟩ := hindexed hfew
  exact ⟨hnumbers, hnew ["hp", ""] "enemy" ["hp"] rfl (by decide), hsize, hbeyond ⟨3⟩ hsize, hfew,
    numbers, x, hx, hsame.trans hnumbers, hinverse⟩

end SymbolTable

end Skirmish.Script
