import Skirmish.Report.Diagnostic

/-!
# Diagnostics on a terminal

The long form of diagnostics, each followed by an empty line, and the summary
below them.  On a terminal the parts that the eye looks for are coloured:
`Style.paint` is the only place where an escape sequence is written.
-/

namespace Skirmish.Report

/-- When colours are used. -/
inductive ColourMode where
  /-- On a terminal only. -/
  | auto
  | always
  | never
deriving DecidableEq

/-- Whether the mode asks for colours, on a terminal or elsewhere. -/
def ColourMode.wantsColours : ColourMode → (terminal : Bool) → Bool
  | auto, terminal => terminal
  | always, _ => true
  | never, _ => false

/-- The looks that a part of the output can have. -/
inductive Style where
  | error
  | warning
  | help
  | origin
  | bold
deriving DecidableEq

namespace Style

/-- What stands between the bracket and the final letter of the escape sequence. -/
def parameters : Style → String
  | error => "1;31"
  | warning => "1;33"
  | help => "1;32"
  | origin => "1;34"
  | bold => "1"

/-- The sequence that switches to a look. -/
def escape (parameters : String) : String := s!"\x1b[{parameters}m"

/-- Text in a look, or as it is when there are no colours. -/
def paint (colours : Bool) (style : Style) (text : String) : String :=
  if colours then escape style.parameters ++ text ++ escape "0" else text

@[simp] theorem paint_false (style : Style) (text : String) : style.paint false text = text := rfl

end Style

/-- The look of a severity. -/
def Severity.style : Severity → Style
  | error => .error
  | warning => .warning

namespace Terminal

open Style

/-- One diagnostic and the empty line below it. -/
def render (colours : Bool) (d : Diagnostic) : String :=
  let severity := d.severity.style.paint colours d.severity.text
  let code := bold.paint colours ("[" ++ d.code.text ++ "]")
  let place := d.origin.elim "" fun o ↦ "  --> " ++ Style.origin.paint colours o ++ "\n"
  let note (n : String) := "  = " ++ bold.paint colours "note" ++ ": " ++ n ++ "\n"
  let suggestion (s : String) := "  = " ++ help.paint colours "help" ++ ": " ++ s ++ "\n"
  severity ++ code ++ ": " ++ d.message ++ "\n" ++ place ++
    String.join (d.notes.map note) ++ String.join (d.suggestions.map suggestion) ++ "\n"

/-- Diagnostics in order. -/
def renderAll (colours : Bool) (ds : List Diagnostic) : String :=
  String.join (ds.map (render colours))

/-- The ending of a plural. -/
def pluralEnding (count : Nat) : String := if count = 1 then "" else "s"

/-- How many problems there were, nothing if there were none. -/
def summary (colours : Bool) (errors warnings : Nat) : String :=
  let emitted := s!"{warnings} warning" ++ pluralEnding warnings ++ " emitted\n"
  if errors > 0 then
    let cause := if errors = 1 then "previous error" else s!"{errors} previous errors"
    Style.error.paint colours "error" ++ ": could not load scripts due to " ++ cause ++
      if warnings > 0 then "; " ++ emitted else "\n"
  else if warnings > 0 then Style.warning.paint colours "warning" ++ ": " ++ emitted
  else ""

/-- How many of the diagnostics are errors. -/
def errorCount (ds : List Diagnostic) : Nat := ds.countP (·.isError)

/-- The diagnostics and their summary; nothing at all if there are none. -/
def report (colours : Bool) (ds : List Diagnostic) : String :=
  if ds.isEmpty then ""
  else
    let errors := errorCount ds
    renderAll colours ds ++ summary colours errors (ds.length - errors)

end Terminal

end Skirmish.Report
