import Skirmish.Script.Fault

/-!
# Operators

Arithmetic and comparison of values.  Truth values count as 0 and 1; a name is
no number.

Two integers are added, subtracted and multiplied exactly, and a result that is
no integer of 64 bits is a fault.  As soon as a float takes part, the operation
is one on floats.  Division of integers is exact where it comes out even, and
otherwise a division of floats.
-/

namespace Skirmish.Script

/-- The integer of 64 bits that a command has computed, a fault if there is none. -/
def exactly (c : Command) (n : Int) : Except Fault Value :=
  if Int64.minValue.toInt ≤ n ∧ n ≤ Int64.maxValue.toInt then .ok (.int (Int64.ofInt n))
  else .error (.integerOverflow c)

namespace Value

/-- Truth values as the integers that they count for. -/
def counted : Value → Value
  | bool b => int (if b then 1 else 0)
  | v => v

/-- Two numbers as floats.  The left one is looked at first. -/
def asFloats (c : Command) (a b : Value) : Except Fault (Float × Float) :=
  match a.toFloat?, b.toFloat? with
  | some x, some y => .ok (x, y)
  | none, _ => .error (.typeMismatch c .number a.kind)
  | _, none => .error (.typeMismatch c .number b.kind)

/-- An operation on numbers, given on integers and on floats. -/
def arithmetic (c : Command) (onInts : Int → Int → Int) (onFloats : Float → Float → Float)
    (a b : Value) : Except Fault Value :=
  match a.counted, b.counted with
  | int m, int n => exactly c (onInts m.toInt n.toInt)
  | a, b => (asFloats c a b).map fun (x, y) ↦ number (onFloats x y)

/-- The sum. -/
def add : Value → Value → Except Fault Value := arithmetic .add (· + ·) (· + ·)

/-- The difference. -/
def sub : Value → Value → Except Fault Value := arithmetic .sub (· - ·) (· - ·)

/-- The product. -/
def mul : Value → Value → Except Fault Value := arithmetic .mul (· * ·) (· * ·)

/-- The quotient of two floats. -/
def divFloats (a b : Value) : Except Fault Value :=
  match asFloats .div a b with
  | .error f => .error f
  | .ok (x, y) => if y == 0 then .error .divisionByZero else .ok (number (x / y))

/-- The quotient: an integer whenever two integers divide evenly. -/
def div (a b : Value) : Except Fault Value :=
  match a.counted, b.counted with
  | int m, int n =>
    if n = 0 then .error .divisionByZero
    else if m.toInt.tmod n.toInt = 0 then exactly .div (m.toInt.tdiv n.toInt)
    else divFloats (int m) (int n)
  | a, b => divFloats a b

/-- Whether two values are equal.  Numbers and truth values are compared by
what they count for; a name equals the same name only. -/
def equal : Value → Value → Bool
  | int m, int n => m == n
  | bool a, bool b => a == b
  | symbol s, symbol t => s == t
  | a, b =>
    match a.counted.toFloat?, b.counted.toFloat? with
    | some x, some y => x == y
    | _, _ => false

/-- A comparison of numbers, given on integers and on floats. -/
def comparison (c : Command) (onInts : Int64 → Int64 → Bool) (onFloats : Float → Float → Bool)
    (a b : Value) : Except Fault Value :=
  match a.counted, b.counted with
  | int m, int n => .ok (bool (onInts m n))
  | a, b => (asFloats c a b).map fun (x, y) ↦ bool (onFloats x y)

/-- Whether the first number is the greater one. -/
def greater : Value → Value → Except Fault Value :=
  comparison .greater (· > ·) (· > ·)

/-- Whether the first number is at least the second. -/
def greaterEqual : Value → Value → Except Fault Value :=
  comparison .greaterEqual (· ≥ ·) (· ≥ ·)

/-- Whether the first number is the smaller one. -/
def less : Value → Value → Except Fault Value :=
  comparison .less (· < ·) (· < ·)

/-- Whether the first number is at most the second. -/
def lessEqual : Value → Value → Except Fault Value :=
  comparison .lessEqual (· ≤ ·) (· ≤ ·)

end Value

/-- An exact result is found if and only if it is an integer of 64 bits. -/
theorem exactly_eq_ok_iff {c : Command} {n : Int} {v : Value} :
    exactly c n = .ok v ↔ (∃ m : Int64, m.toInt = n ∧ v = .int m) := by
  unfold exactly
  split
  next h =>
    have hn : (Int64.ofInt n).toInt = n := Int64.toInt_ofInt_of_le h.1 (by
      have := h.2
      simp only [Int64.toInt_maxValue] at this
      omega)
    constructor
    · intro he
      cases he
      exact ⟨_, hn, rfl⟩
    · rintro ⟨m, hm, rfl⟩
      rw [← hm, Int64.ofInt_toInt]
  next h =>
    constructor
    · intro he; cases he
    · rintro ⟨m, hm, rfl⟩
      exact absurd ⟨hm ▸ Int64.le_toInt m, hm ▸ Int64.toInt_le m⟩ h

end Skirmish.Script
