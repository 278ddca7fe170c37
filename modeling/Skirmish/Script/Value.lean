import Skirmish.Decimal.Shortest
import Skirmish.Script.Symbol

/-!
# Values

What scripts compute with: integers of 64 bits, floats, truth values, and names
whose value has not been looked up yet.

A number is an integer whenever it can be: `Value.number` keeps a float only
where it has a fraction, is out of the range of the integers, or is no number.
-/

namespace Skirmish.Script

/-- What a script computes with. -/
inductive Value where
  | int (n : Int64)
  | float (x : Float)
  | bool (b : Bool)
  | symbol (s : Symbol)

namespace Value

/-- The types of values. -/
inductive Kind where
  | int
  | float
  | bool
  | symbol
deriving DecidableEq

/-- The word for a type. -/
def Kind.text : Kind → String
  | int => "int"
  | float => "float"
  | bool => "bool"
  | symbol => "symbol"

/-- The type of a value. -/
def kind : Value → Kind
  | int _ => .int
  | float _ => .float
  | bool _ => .bool
  | symbol _ => .symbol

/-- The float nearest to an integer. -/
def nearestFloat (n : Int64) : Float :=
  let magnitude := (UInt64.ofNat n.toInt.natAbs).toFloat
  if n.toInt < 0 then -magnitude else magnitude

/-- The value of a computed number.  Without its fraction, a number is the same
number only if it had none. -/
def number (x : Float) : Value :=
  let whole := x.abs.toUInt64
  let n : Int := if x < 0 then -whole.toNat else whole.toNat
  if whole.toFloat == x.abs && Int64.minValue.toInt ≤ n && n ≤ Int64.maxValue.toInt then
    int (Int64.ofInt n)
  else float x

/-- Zero and `false` are not true, everything else is. -/
def isTrue : Value → Bool
  | bool b => b
  | int n => n != 0
  | float x => x != 0
  | symbol _ => true

/-- The value as a float, if it is a number. -/
def toFloat? : Value → Option Float
  | int n => some (nearestFloat n)
  | float x => some x
  | _ => none

/-- The value as an integer, if it is one. -/
def toInt? : Value → Option Int64
  | int n => some n
  | _ => none

/-- The value as a name, if it is one. -/
def toSymbol? : Value → Option Symbol
  | symbol s => some s
  | _ => none

/-- Whether the value is a name. -/
def isSymbol : Value → Bool
  | symbol _ => true
  | _ => false

/-- A count as a value; counts beyond the integers are the greatest integer. -/
def ofCount (n : Nat) : Value := int (Int64.ofIntClamp n)

/-- The text of a value, names taken from the table. -/
def text (symbols : SymbolTable) : Value → String
  | int n => toString n.toInt
  | float x => Decimal.text x
  | bool b => if b then "true" else "false"
  | symbol s => symbols.lookup s

end Value

end Skirmish.Script
