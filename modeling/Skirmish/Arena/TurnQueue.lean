/-!
# The turn queue

The order in which units take their turns: the front of the queue is next.  A
unit that is new goes to the back, so it waits for everybody who was there
before it.  When a turn is over, the unit whose turn it was goes to the back,
unless it has left the queue meanwhile.
-/

namespace Skirmish.Arena

/-- A queue of units and the turns that have been started. -/
structure TurnQueue (α : Type) where
  /-- Who waits, the next one first. -/
  waiting : List α
  /-- How many turns have been started. -/
  turns : Nat
  /-- Whose turn has been started and not ended. -/
  acting : Option α

namespace TurnQueue

variable {α : Type}

/-- The queue before anything happens. -/
def empty : TurnQueue α := ⟨[], 0, none⟩

/-- Whose turn is next. -/
def front? (q : TurnQueue α) : Option α := q.waiting.head?

/-- Start the turn of the unit at the front, if there is one. -/
def startTurn (q : TurnQueue α) : Option α × TurnQueue α :=
  match q.front? with
  | none => (none, q)
  | some u => (some u, { q with turns := q.turns + 1, acting := some u })

@[simp] theorem waiting_empty : (empty : TurnQueue α).waiting = [] := rfl

variable [DecidableEq α]

/-- The list with its first member last, if that is the one given. -/
def rotated (u : α) : List α → List α
  | [] => []
  | v :: vs => if u = v then vs ++ [v] else v :: vs

/-- End the turn that was started last. -/
def endTurn (q : TurnQueue α) : TurnQueue α :=
  match q.acting with
  | none => q
  | some u => { q with waiting := rotated u q.waiting, acting := none }

/-- Put a unit at the back, unless it waits already. -/
def enqueue (q : TurnQueue α) (u : α) : TurnQueue α :=
  if u ∈ q.waiting then q else { q with waiting := q.waiting ++ [u] }

/-- Take a unit out; the others keep their order. -/
def dequeue (q : TurnQueue α) (u : α) : TurnQueue α :=
  { q with waiting := q.waiting.erase u }

/-- Whether a unit waits. -/
def contains (q : TurnQueue α) (u : α) : Bool := q.waiting.contains u

@[simp] theorem turns_endTurn (q : TurnQueue α) : q.endTurn.turns = q.turns := by
  unfold endTurn
  split <;> rfl

@[simp] theorem turns_enqueue (q : TurnQueue α) (u : α) : (q.enqueue u).turns = q.turns := by
  unfold enqueue
  split <;> rfl

@[simp] theorem turns_dequeue (q : TurnQueue α) (u : α) : (q.dequeue u).turns = q.turns := rfl

/-- Ending a turn leaves the same units waiting. -/
theorem perm_rotated (u : α) (vs : List α) : (rotated u vs).Perm vs := by
  cases vs with
  | nil => exact .nil
  | cons v vs =>
    simp only [rotated]
    split
    · exact List.perm_append_singleton v vs
    · exact .refl _

theorem perm_endTurn (q : TurnQueue α) : q.endTurn.waiting.Perm q.waiting := by
  unfold endTurn
  split
  · exact .refl _
  · exact perm_rotated _ _

/-- Whoever ends a turn at the front goes to the back. -/
theorem waiting_endTurn {q : TurnQueue α} {u : α} {rest : List α} (ha : q.acting = some u)
    (hq : q.waiting = u :: rest) : q.endTurn.waiting = rest ++ [u] := by
  simp [endTurn, ha, hq, rotated]

end TurnQueue

end Skirmish.Arena
