/-!
# Reading decimal numbers

The written forms of two kinds of numbers.

* A natural number is a row of digits, with at most one plus sign before it.
* A floating-point number is a row of digits with at most one point before,
  among or behind them, and at most one exponent; or one of the words `inf`,
  `infinity` and `nan` in any letter case; either with a sign.  Its value is the
  float nearest to the number written.

No blank, no separator and no digit beyond ASCII is allowed anywhere.
-/

namespace Skirmish.Decimal

/-- The value of a row of digits. -/
def digitsValue (digits : List Char) : Nat :=
  digits.foldl (fun n d ↦ 10 * n + (d.toNat - '0'.toNat)) 0

/-- The leading digits, and what follows them. -/
def spanDigits (cs : List Char) : List Char × List Char :=
  (cs.takeWhile Char.isDigit, cs.dropWhile Char.isDigit)

/-- Nothing is lost between the digits and the rest. -/
theorem spanDigits_append (cs : List Char) : (spanDigits cs).1 ++ (spanDigits cs).2 = cs :=
  List.takeWhile_append_dropWhile

/-- Digits and nothing else, at least one. -/
def digits? (cs : List Char) : Option Nat :=
  if !cs.isEmpty && cs.all Char.isDigit then some (digitsValue cs) else none

/-- A natural number, perhaps behind a plus sign. -/
def nat? : List Char → Option Nat
  | '+' :: cs => digits? cs
  | cs => digits? cs

/-- A natural number of 64 bits. -/
def word? (text : String) : Option Nat :=
  (nat? text.toList).filter (· < UInt64.size)

/-- An exponent as it stands behind the digits, 0 if nothing stands there. -/
def exponent? : List Char → Option Int
  | [] => some 0
  | e :: cs =>
    if e = 'e' ∨ e = 'E' then
      match cs with
      | '-' :: ds => (digits? ds).map fun n ↦ -(n : Int)
      | ds => (nat? ds).map fun n ↦ (n : Int)
    else none

/-- Numbers from `10 ^ 400` on are infinite as floats, and those up to
`10 ^ (-400)` are zero. -/
def exponentLimit : Int := 400

/-- The float nearest to `m * 10 ^ e`.  Where the limit decides, no power of ten
is computed; `m` is less than ten to the power of a third of its bits and one. -/
def scientific (m : Nat) (e : Int) : Float :=
  if m = 0 then 0
  else if exponentLimit ≤ e then 1 / 0
  else if e + (m.log2 / 3 + 1 : Nat) ≤ -exponentLimit then 0
  else Float.ofScientific m (e < 0) e.natAbs

/-- A number without a sign that is written in digits. -/
def positional? (cs : List Char) : Option Float :=
  let (whole, rest) := spanDigits cs
  let (fraction, rest) := match rest with
    | '.' :: r => spanDigits r
    | r => ([], r)
  if whole.isEmpty && fraction.isEmpty then none
  else (exponent? rest).map fun e ↦
    scientific (digitsValue (whole ++ fraction)) (e - fraction.length)

/-- A number that is written as a word. -/
def named? (cs : List Char) : Option Float :=
  let word := String.ofList (cs.map Char.toLower)
  if word = "inf" ∨ word = "infinity" then some (1 / 0)
  else if word = "nan" then some (0 / 0)
  else none

/-- A floating-point number. -/
def float? (cs : List Char) : Option Float :=
  let unsigned? (cs : List Char) := (positional? cs).or (named? cs)
  match cs with
  | '-' :: r => (unsigned? r).map fun x ↦ -x
  | '+' :: r => unsigned? r
  | r => unsigned? r

end Skirmish.Decimal
