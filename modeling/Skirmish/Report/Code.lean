/-!
# Codes of script problems

Every problem that a script can have carries a code by which its author can
look it up.  The letter tells errors from warnings, and the first digit of an
error tells when it was found: while the text was read, while commands were
looked up, or while the script ran.
-/

namespace Skirmish.Report

/-- When a problem is found. -/
inductive Phase where
  | reading
  | lookup
  | running
  | advice
deriving DecidableEq

/-- The kinds of script problems. -/
inductive Code where
  | invalidToken
  | unclosedParentheses
  | trailingText
  | emptyArgument
  | nonFiniteNumber
  | unknownCommand
  | argumentCount
  | undefinedSymbol
  | divisionByZero
  | typeMismatch
  | integerOverflow
  | invalidArgument
  | emptyScript
deriving DecidableEq

namespace Code

/-- Every code, errors before warnings and in the order of their numbers. -/
def all : List Code :=
  [invalidToken, unclosedParentheses, trailingText, emptyArgument, nonFiniteNumber,
    unknownCommand, argumentCount, undefinedSymbol, divisionByZero, typeMismatch,
    integerOverflow, invalidArgument, emptyScript]

/-- The code as it is printed. -/
def text : Code → String
  | invalidToken => "E1001"
  | unclosedParentheses => "E1002"
  | trailingText => "E1003"
  | emptyArgument => "E1004"
  | nonFiniteNumber => "E1005"
  | unknownCommand => "E2001"
  | argumentCount => "E2002"
  | undefinedSymbol => "E6001"
  | divisionByZero => "E6002"
  | typeMismatch => "E6003"
  | integerOverflow => "E6004"
  | invalidArgument => "E6005"
  | emptyScript => "W1001"

/-- When problems with this code are found. -/
def phase : Code → Phase
  | invalidToken | unclosedParentheses | trailingText | emptyArgument | nonFiniteNumber =>
    .reading
  | unknownCommand | argumentCount => .lookup
  | undefinedSymbol | divisionByZero | typeMismatch | integerOverflow | invalidArgument =>
    .running
  | emptyScript => .advice

/-- The code printed as this text. -/
def ofText? (text : String) : Option Code := all.find? (·.text == text)

end Code

end Skirmish.Report
