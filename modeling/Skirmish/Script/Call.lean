import Skirmish.Report.Diagnostic
import Skirmish.Script.Command
import Skirmish.Text.Closest

/-!
# Looking a call up

A call is right when its name is known and the number of its arguments is the
one that goes with the name.  Besides the names of the commands there is one
more, `if`, which is `if_else` with the last argument left out.

Main statement: exactly the right calls are accepted (`resolve_eq_ok_iff`).
-/

namespace Skirmish.Script

open Report Text

/-- The name of `if_else` without its last argument. -/
def shortIf : String := "if"

/-- Every name that a script can call. -/
def callableNames : List String := Command.all.map Command.name ++ [shortIf]

/-- The command that a name calls, and the number of arguments that go with the name. -/
def callable? (name : String) : Option (Command × Nat) :=
  if name = shortIf then some (.ifElse, Command.ifElse.arity - 1)
  else (Command.ofName? name).map fun c ↦ (c, c.arity)

/-- Why a call cannot be accepted. -/
inductive Unresolved where
  /-- No command has the name; a similar one may have been meant. -/
  | unknownCommand (name : String) (similar : Option String)
  /-- The name takes a different number of arguments. -/
  | argumentCount (name : String) (expected found : Nat)
deriving DecidableEq

namespace Unresolved

/-- The cause as a diagnostic. -/
def toDiagnostic : Unresolved → Diagnostic
  | unknownCommand name similar =>
    let d := Diagnostic.error .unknownCommand s!"unknown command `{name}`"
    match similar with
    | some other => d.withSuggestion s!"did you mean `{other}`?"
    | none => d.withNote "run `botbattle help` to list the available commands"
  | argumentCount name expected found =>
    let plural := if expected = 1 then "" else "s"
    Diagnostic.error .argumentCount
      s!"`{name}` takes {expected} argument{plural}, found {found}"

end Unresolved

/-- The command that is called by a name with so many arguments. -/
def resolve (name : String) (count : Nat) : Except Unresolved Command :=
  match callable? name with
  | none => .error (.unknownCommand name (closest? name callableNames))
  | some (c, expected) =>
    if count = expected then .ok c else .error (.argumentCount name expected count)

/-- A call is accepted if and only if its name and its number of arguments go together. -/
theorem resolve_eq_ok_iff {name : String} {count : Nat} {c : Command} :
    resolve name count = .ok c ↔ callable? name = some (c, count) := by
  unfold resolve
  cases h : callable? name with
  | none => simp
  | some p =>
    obtain ⟨d, expected⟩ := p
    by_cases he : count = expected
    · simp [he]
    · simp [he, eq_comm]

end Skirmish.Script
