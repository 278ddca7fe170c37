import Skirmish.Report.Diagnostic
import Skirmish.Script.Command
import Skirmish.Script.Value

/-!
# Faults

What can stop a script while it runs.  A unit that finds nothing to do, or may
not act any more, is no fault: the command answers `false` and the script goes on.
-/

namespace Skirmish.Script

open Report

/-- What a command takes. -/
inductive Expectation where
  | number
  | symbolName
  | nonNegativeInteger
deriving DecidableEq

/-- The expectation in words. -/
def Expectation.text : Expectation → String
  | number => "a number"
  | symbolName => "a symbol name"
  | nonNegativeInteger => "a non-negative integer"

/-- What is wrong with an argument, or with the arguments altogether. -/
inductive Objection where
  /-- The argument is an empty block. -/
  | noValue
  /-- The number of arguments is not the arity. -/
  | count (found : Nat)
  /-- The unit that gave the command is no longer on the board. -/
  | unitGone
  /-- Not an action that the board knows. -/
  | notAction
  /-- Not a question that the board knows. -/
  | notQuery
  /-- Not a number of turns to charge for. -/
  | chargeTurns (turns : Int64)
  /-- Any other reason a host may have. -/
  | other (reason : String)
deriving DecidableEq

/-- What stops a script. -/
inductive Fault where
  | undefinedSymbol (name : String)
  | divisionByZero
  | typeMismatch (command : Command) (expected : Expectation) (found : Value.Kind)
  | integerOverflow (command : Command)
  | invalidArgument (command : Command) (objection : Objection)
deriving DecidableEq

/-- The objection in words. -/
def Objection.text (command : Command) : Objection → String
  | noValue => "argument produced no value"
  | count found =>
    let arity := command.arity
    s!"expected {arity} arguments, got {found}"
  | unitGone => "the acting unit is gone"
  | notAction => "not a game action"
  | notQuery => "not a game query"
  | chargeTurns turns =>
    let n := turns.toInt
    s!"cannot charge for {n} turns"
  | other reason => reason

namespace Fault

/-- The code of the fault. -/
def code : Fault → Code
  | undefinedSymbol _ => .undefinedSymbol
  | divisionByZero => .divisionByZero
  | typeMismatch _ _ _ => .typeMismatch
  | integerOverflow _ => .integerOverflow
  | invalidArgument _ _ => .invalidArgument

/-- The fault in words. -/
def message : Fault → String
  | undefinedSymbol name => s!"undefined symbol `{name}`"
  | divisionByZero => "division by zero"
  | typeMismatch command expected found =>
    let name := command.name
    let wanted := expected.text
    let got := found.text
    s!"`{name}` expected {wanted}, got {got}"
  | integerOverflow command =>
    let name := command.name
    s!"integer overflow in `{name}`"
  | invalidArgument command objection =>
    let name := command.name
    let reason := objection.text command
    s!"invalid argument to `{name}`: {reason}"

/-- The fault as a diagnostic, with a hint where one helps. -/
def toDiagnostic (f : Fault) : Diagnostic :=
  let d := Diagnostic.error f.code f.message
  match f with
  | undefinedSymbol name =>
    (d.withNote "each unit has its own variables; they start out empty").withSuggestion
      s!"define it first, e.g. `define({name}, 0)`"
  | divisionByZero =>
    d.withSuggestion "guard the division with `if(neg(eq(divisor, 0)), ...)`"
  | _ => d

end Fault

end Skirmish.Script
