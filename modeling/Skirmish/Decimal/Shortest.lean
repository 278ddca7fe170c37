/-!
# The shortest decimal of a float

A float stands for all real numbers that round to it, an interval about its
value.  Its text is a decimal number from that interval: one with the fewest
digits, of those the nearest to the value, and of two at the same distance the
greater.  It is written positionally, however many zeros that takes, and
without a point when it is integral.

The value and the ends of the interval are compared in exact integer
arithmetic, over one denominator.
-/

namespace Skirmish.Decimal

/-- A power of two. -/
def twoTo (k : Nat) : Nat := Nat.pow 2 k

/-- A power of ten. -/
def tenTo (k : Nat) : Nat := Nat.pow 10 k

/-- The reals that round to one positive float, over a common denominator. -/
structure Interval where
  /-- The lower end. -/
  low : Nat
  /-- The value of the float. -/
  value : Nat
  /-- The upper end. -/
  high : Nat
  denominator : Nat
  /-- Both ends round to the float as well. -/
  closed : Bool

/-- The interval of `m * 2 ^ q`.  Below a power of two the floats are twice as
dense, so there the lower end is half as far away; an end that lies midway
between two floats rounds to the one whose `m` is even. -/
def Interval.ofBinary (m : Nat) (q : Int) (denseBelow : Bool) : Interval :=
  let up := twoTo (q - 2).toNat
  { low := (4 * m - if denseBelow then 1 else 2) * up
    value := 4 * m * up
    high := (4 * m + 2) * up
    denominator := twoTo (2 - q).toNat
    closed := m % 2 == 0 }

/-- Whether `d / s` lies in the interval, `d` counting over the denominator. -/
def Interval.holds (i : Interval) (d s : Nat) : Bool :=
  if i.closed then i.low * s ≤ d && d ≤ i.high * s
  else i.low * s < d && d < i.high * s

/-- A decimal number `digits * 10 ^ exponent`. -/
structure Scaled where
  digits : Nat
  exponent : Int

/-- Ten units of one place are a unit of the next. -/
def Scaled.carried (x : Scaled) : Scaled :=
  if x.digits % 10 = 0 then ⟨x.digits / 10, x.exponent + 1⟩ else x

/-- The best decimal in the interval that is a multiple of `10 ^ k`: of the two
multiples about the value the nearer, unless only the other is inside. -/
def Interval.onGrid? (i : Interval) (k : Int) : Option Scaled :=
  let unit := i.denominator * tenTo k.toNat
  let scale := tenTo (-k).toNat
  let value := i.value * scale
  let below := value / unit
  let above := below + 1
  let nearer := if 2 * (value % unit) < unit then below else above
  let farther := if nearer = below then above else below
  if i.holds (nearer * unit) scale then some ⟨nearer, k⟩
  else if i.holds (farther * unit) scale then some ⟨farther, k⟩
  else none

/-- Ten to this power is the least that exceeds the value, which is at least
`10 ^ (-400)`. -/
def Interval.magnitude (i : Interval) : Int :=
  (Nat.toDigits 10 (i.value * tenTo 400 / i.denominator)).length - 400

/-- Seventeen digits tell all floats apart. -/
def mostDigits : Nat := 17

/-- The decimal of the interval with the fewest digits.  A value just below a
power of ten may be written as that power: one digit fewer than the grid has. -/
def Interval.shortest (i : Interval) : Scaled :=
  let magnitude := i.magnitude
  let grid (n : Nat) : Int := magnitude - n
  ((List.range' 1 mostDigits).findSome? fun n ↦
      (i.onGrid? (grid n)).map Scaled.carried).getD
    ⟨i.value * tenTo (-grid mostDigits).toNat / (i.denominator * tenTo (grid mostDigits).toNat),
      grid mostDigits⟩

/-- A decimal number with all its zeros and at most one point. -/
def Scaled.positional (x : Scaled) : List Char :=
  let digits := Nat.toDigits 10 x.digits
  if 0 ≤ x.exponent then digits ++ List.replicate x.exponent.toNat '0'
  else
    let places := x.exponent.natAbs
    let padded := List.replicate (places + 1 - digits.length) '0' ++ digits
    let whole := padded.length - places
    padded.take whole ++ '.' :: padded.drop whole

/-- The shortest decimal of a positive finite float with these exponent and
fraction fields. -/
def magnitudeText (exponentField fraction : Nat) : List Char :=
  let i :=
    if exponentField = 0 then Interval.ofBinary fraction (-1074) false
    else Interval.ofBinary (twoTo 52 + fraction) (exponentField - 1075)
      (fraction == 0 && exponentField != 1)
  i.shortest.positional

/-- The text of a float. -/
def text (x : Float) : String :=
  let bits := x.toBits.toNat
  let exponentField := bits / twoTo 52 % twoTo 11
  let fraction := bits % twoTo 52
  if exponentField = 2047 ∧ fraction ≠ 0 then "NaN"
  else
    let sign := if bits / twoTo 63 = 1 then "-" else ""
    sign ++
      if exponentField = 2047 then "inf"
      else if exponentField = 0 ∧ fraction = 0 then "0"
      else String.ofList (magnitudeText exponentField fraction)

end Skirmish.Decimal
