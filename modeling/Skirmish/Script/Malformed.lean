import Skirmish.Report.Diagnostic

/-!
# Malformed text

What can be wrong with a piece of script text before any command is looked up.
Each cause keeps the piece, so that it can be quoted to the author.
-/

namespace Skirmish.Script

open Report

/-- Why a piece of text cannot be read. -/
inductive Malformed where
  /-- Neither a number nor a name nor a call. -/
  | invalidToken (token : String)
  /-- The parentheses of a call do not balance. -/
  | unclosedParentheses (token : String)
  /-- Something follows the end of a call. -/
  | trailingText (token trailing : String)
  /-- An argument is blank; arguments are counted from 0. -/
  | emptyArgument (token : String) (index : Nat)
  /-- A number that is infinite or no number at all. -/
  | nonFiniteNumber (token : String)
deriving DecidableEq

namespace Malformed

/-- The code of the cause. -/
def code : Malformed → Code
  | invalidToken _ => .invalidToken
  | unclosedParentheses _ => .unclosedParentheses
  | trailingText _ _ => .trailingText
  | emptyArgument _ _ => .emptyArgument
  | nonFiniteNumber _ => .nonFiniteNumber

/-- The piece of text that is quoted. -/
def token : Malformed → String
  | invalidToken token | unclosedParentheses token | trailingText token _
  | emptyArgument token _ | nonFiniteNumber token => token

/-- The cause in words. -/
def message : Malformed → String
  | invalidToken token => s!"syntax error in expression `{token}`"
  | unclosedParentheses token => s!"unclosed parentheses in `{token}`"
  | trailingText token trailing =>
    s!"unexpected `{trailing}` after the end of call `{token}`"
  | emptyArgument token index => s!"argument {index + 1} of `{token}` is empty"
  | nonFiniteNumber token => s!"number literal `{token}` is not finite"

/-- The cause as a diagnostic, with a hint where the mistake is a common one. -/
def toDiagnostic (m : Malformed) : Diagnostic :=
  let d := Diagnostic.error m.code m.message
  match m with
  | invalidToken token =>
    if token.toList.head? = some '(' then
      (d.withNote "a command name must be followed directly by `(`").withSuggestion
        "remove the whitespace between the command name and `(`"
    else if '_' ∈ token.toList then d.withNote "symbols may only contain letters and digits"
    else d
  | unclosedParentheses _ => d.withSuggestion "check that every `(` has a matching `)`"
  | trailingText _ _ => d.withSuggestion "separate statements with whitespace"
  | emptyArgument _ _ =>
    d.withNote "every argument must be a number, a symbol or a command call"
  | nonFiniteNumber _ => d.withNote "number literals must be finite"

end Malformed

end Skirmish.Script
