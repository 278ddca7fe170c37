import Skirmish.Contest.Settings
import Skirmish.Decimal.Reading

/-!
# Options of a match

The arguments that ask for a match: options, which begin with a hyphen, and
paths of scripts.  They may come in any order, and every argument is read without
a look at the others.  Where an option is given twice, the last one counts.

Main statement: arguments are accepted if and only if each of them can be read,
and then their effects are put one after the other (`ofArguments_eq_ok_iff`).
-/

namespace Skirmish.CommandLine

open Contest Decimal

/-- One argument. -/
inductive Argument where
  | script (path : String)
  | seed (seed : UInt64)
  | boardSize (width height : Nat)
  | turnLimit (turns : Nat)
  | unitFraction (fraction : Float)
  /-- Show nothing but the result. -/
  | quiet
  /-- Do not show the board. -/
  | noBoard
  | strict

/-- Why an argument cannot be read. -/
inductive Misuse where
  /-- The value of an option is no number. -/
  | number (what text : String)
  | boardSize (text : String)
  | unitFraction (text : String)
  | unknownOption (argument : String)
deriving DecidableEq

/-- The reason in words. -/
def Misuse.message : Misuse → String
  | number what text => s!"invalid {what} '{text}', expected a non-negative integer"
  | boardSize text => s!"invalid board size '{text}', expected WIDTHxHEIGHT"
  | unitFraction text =>
    s!"invalid unit limit '{text}', expected a fraction like 0.05 or 5%"
  | unknownOption argument => s!"unknown option '{argument}'"

/-- The value of an option: what follows its name and the equals sign. -/
def valueOf? (name argument : String) : Option String :=
  ((name ++ "=").toList.isPrefixOf? argument.toList).map String.ofList

/-- A number of 64 bits. -/
def readNumber (what text : String) : Except Misuse Nat :=
  match word? text with
  | some n => .ok n
  | none => .error (.number what text)

/-- Whether a character stands between width and height. -/
def isTimes (c : Char) : Bool := c == 'x' || c == 'X'

/-- A width and a height. -/
def readBoardSize (text : String) : Except Misuse (Nat × Nat) :=
  let width := text.toList.takeWhile (!isTimes ·)
  let height := (text.toList.dropWhile (!isTimes ·)).tail
  if text.toList.any isTimes then
    match word? (String.ofList width), word? (String.ofList height) with
    | some w, some h => .ok (w, h)
    | _, _ => .error (.boardSize text)
  else .error (.boardSize text)

/-- A fraction, or a percentage with its sign. -/
def readFraction (text : String) : Except Misuse Float :=
  let cs := text.toList
  let fraction :=
    if cs.getLast? = some '%' then (float? cs.dropLast).map (· / 100) else float? cs
  match fraction with
  | some x => .ok x
  | none => .error (.unitFraction text)

/-- Read an argument. -/
def Argument.read (argument : String) : Except Misuse Argument :=
  if let some text := valueOf? "--seed" argument then
    (readNumber "seed" text).map fun n ↦ seed (UInt64.ofNat n)
  else if let some text := valueOf? "--board" argument then
    (readBoardSize text).map fun size ↦ boardSize size.1 size.2
  else if let some text := valueOf? "--turn-limit" argument then
    (readNumber "turn limit" text).map turnLimit
  else if let some text := valueOf? "--unit-limit" argument then
    (readFraction text).map unitFraction
  else if argument = "--quiet" ∨ argument = "-q" then .ok quiet
  else if argument = "--no-board" then .ok noBoard
  else if argument = "--strict" then .ok strict
  else if argument.toList.head? = some '-' then .error (.unknownOption argument)
  else .ok (script argument)

/-- What a match is to be played with. -/
structure Options where
  /-- The paths of the scripts, in the order of the players. -/
  scripts : List String
  settings : Settings

namespace Options

/-- The options before any argument has been read. -/
def default : Options := ⟨[], .default⟩

/-- Change settings. -/
def adjust (o : Options) (f : Settings → Settings) : Options :=
  { o with settings := f o.settings }

/-- The options with one more argument. -/
def apply (o : Options) : Argument → Options
  | .script path => { o with scripts := o.scripts ++ [path] }
  | .seed n => o.adjust ({ · with seed := some n })
  | .boardSize width height => o.adjust ({ · with width, height })
  | .turnLimit turns => o.adjust ({ · with turnLimit := turns })
  | .unitFraction x => o.adjust ({ · with unitFraction := x })
  | .quiet => o.adjust ({ · with messages := false, pictures := false })
  | .noBoard => o.adjust ({ · with pictures := false })
  | .strict => o.adjust ({ · with strict := true })

/-- The options that arguments ask for, or what is wrong with the first argument
that cannot be read. -/
def ofArguments (arguments : List String) : Except Misuse Options :=
  (arguments.mapM Argument.read).map fun read ↦ read.foldl apply default

/-- Accepted arguments are those that can all be read. -/
theorem ofArguments_eq_ok_iff {arguments : List String} {o : Options} :
    ofArguments arguments = .ok o ↔
      ∃ read, arguments.mapM Argument.read = .ok read ∧ read.foldl apply default = o := by
  unfold ofArguments
  cases arguments.mapM Argument.read <;> simp [Except.map]

end Options

end Skirmish.CommandLine
