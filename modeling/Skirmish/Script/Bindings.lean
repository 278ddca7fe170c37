import Skirmish.Script.Value

/-!
# Variables

The variables of one unit: a value for each of finitely many names, in the order
in which they were first defined.  Scripts have no scopes, and what was once
defined can be overwritten but not taken back.

Main statement: a definition is what a look-up finds (`lookup?_define`).
-/

namespace Skirmish.Script

/-- The value under a name. -/
def valueOf? (name : Symbol) : List (Symbol × Value) → Option Value
  | [] => none
  | (n, v) :: rest => if n = name then some v else valueOf? name rest

/-- Put a value under a name, in its old place if it has one. -/
def assign (name : Symbol) (value : Value) : List (Symbol × Value) → List (Symbol × Value)
  | [] => [(name, value)]
  | (n, v) :: rest =>
    if n = name then (name, value) :: rest else (n, v) :: assign name value rest

/-- An assignment changes the value under its name and under no other. -/
theorem valueOf?_assign (name : Symbol) (value : Value) (entries : List (Symbol × Value))
    (n : Symbol) :
    valueOf? n (assign name value entries) =
      if n = name then some value else valueOf? n entries := by
  induction entries with
  | nil => simp [assign, valueOf?, eq_comm]
  | cons e rest ih =>
    obtain ⟨m, v⟩ := e
    by_cases hm : m = name <;> by_cases hn : n = name <;> by_cases hnm : m = n <;>
      simp_all [assign, valueOf?]

theorem map_fst_assign (name : Symbol) (value : Value) (entries : List (Symbol × Value)) :
    (assign name value entries).map Prod.fst =
      if name ∈ entries.map Prod.fst then entries.map Prod.fst
      else entries.map Prod.fst ++ [name] := by
  induction entries with
  | nil => simp [assign]
  | cons e rest ih =>
    obtain ⟨n, v⟩ := e
    by_cases h : n = name
    · simp [assign, h]
    · have h' : ¬ name = n := fun e ↦ h e.symm
      simp only [assign, h, if_false, List.map_cons, ih, List.mem_cons, h', false_or]
      split <;> simp

/-- The variables of a unit. -/
structure Bindings where
  entries : List (Symbol × Value)
  nodup : (entries.map Prod.fst).Nodup

namespace Bindings

/-- No variables. -/
def empty : Bindings := ⟨[], by simp⟩

/-- The names that have a value. -/
def names (b : Bindings) : List Symbol := b.entries.map Prod.fst

/-- How many names have a value. -/
def size (b : Bindings) : Nat := b.entries.length

/-- The value of a name. -/
def lookup? (b : Bindings) (name : Symbol) : Option Value := valueOf? name b.entries

/-- Whether a name has a value. -/
def contains (b : Bindings) (name : Symbol) : Bool := (b.lookup? name).isSome

/-- Give a name a value, whether or not it had one. -/
def define (b : Bindings) (name : Symbol) (value : Value) : Bindings where
  entries := assign name value b.entries
  nodup := by
    rw [map_fst_assign]
    split
    · exact b.nodup
    next h =>
      rw [List.nodup_append]
      refine ⟨b.nodup, by simp, ?_⟩
      rintro a ha c hc rfl
      exact h (List.mem_singleton.1 hc ▸ ha)

@[simp] theorem lookup?_empty (name : Symbol) : empty.lookup? name = none := rfl

/-- A definition changes the value of its name and of no other. -/
@[simp] theorem lookup?_define (b : Bindings) (name : Symbol) (value : Value) (n : Symbol) :
    (b.define name value).lookup? n = if n = name then some value else b.lookup? n :=
  valueOf?_assign name value b.entries n

end Bindings

end Skirmish.Script
