import Skirmish.Report.Code

/-!
# Diagnostics

A diagnostic tells the author of a script what is wrong with it.  Scripts are
short, so it quotes the piece of text in its message instead of counting lines,
and names the script it belongs to once that is known.
-/

namespace Skirmish.Report

/-- Whether a problem stops a script from being used. -/
inductive Severity where
  | error
  | warning
deriving DecidableEq

/-- The word for a severity. -/
def Severity.text : Severity → String
  | error => "error"
  | warning => "warning"

/-- A problem of a script, with what may help to mend it. -/
structure Diagnostic where
  code : Code
  severity : Severity
  message : String
  /-- The script it belongs to. -/
  origin : Option String
  notes : List String
  suggestions : List String
deriving DecidableEq

namespace Diagnostic

/-- An error with nothing but its message. -/
def error (code : Code) (message : String) : Diagnostic :=
  ⟨code, .error, message, none, [], []⟩

/-- A warning with nothing but its message. -/
def warning (code : Code) (message : String) : Diagnostic :=
  ⟨code, .warning, message, none, [], []⟩

/-- Name the script.  The name given first stays. -/
def withOrigin (d : Diagnostic) (origin : String) : Diagnostic :=
  { d with origin := d.origin.or (some origin) }

/-- Add a note behind the others. -/
def withNote (d : Diagnostic) (note : String) : Diagnostic :=
  { d with notes := d.notes ++ [note] }

/-- Add a suggestion behind the others. -/
def withSuggestion (d : Diagnostic) (suggestion : String) : Diagnostic :=
  { d with suggestions := d.suggestions ++ [suggestion] }

/-- Whether it is an error. -/
def isError (d : Diagnostic) : Bool := d.severity == .error

/-- Naming the script a second time changes nothing. -/
@[simp] theorem withOrigin_withOrigin (d : Diagnostic) (a b : String) :
    (d.withOrigin a).withOrigin b = d.withOrigin a := by
  cases h : d.origin <;> simp [withOrigin, h]

@[simp] theorem isError_withOrigin (d : Diagnostic) (origin : String) :
    (d.withOrigin origin).isError = d.isError := rfl

/-- The diagnostic in one piece, without colours and without a final newline. -/
def text (d : Diagnostic) : String :=
  let severity := d.severity.text
  let code := d.code.text
  let message := d.message
  let origin := d.origin.elim "" fun o ↦ s!"\n  --> {o}"
  let notes := d.notes.map fun n ↦ s!"\n  = note: {n}"
  let suggestions := d.suggestions.map fun s ↦ s!"\n  = help: {s}"
  s!"{severity} [{code}]: {message}" ++ origin ++ String.join notes ++ String.join suggestions

end Diagnostic

end Skirmish.Report
