import Skirmish.CommandLine.Invocation
import Skirmish.CommandLine.Usage
import Skirmish.Contest.Match
import Skirmish.Report.Terminal

/-!
# The program

What the program answers to an invocation: the text for each of its two outputs,
and whether it succeeded.  It depends on nothing but the invocation, the scripts,
the seed, and whether there are to be colours.
-/

namespace Skirmish.CommandLine

open Contest Report Script Skirmish.Random

/-- The answer of the program. -/
structure Reply where
  succeeded : Bool
  stdout : String
  stderr : String
deriving DecidableEq

namespace Reply

/-- All went well. -/
def success (stdout stderr : String) : Reply := ⟨true, stdout, stderr⟩

/-- Something went wrong. -/
def failure (stdout stderr : String) : Reply := ⟨false, stdout, stderr⟩

/-- The code with which the program ends. -/
def exitCode (r : Reply) : Nat := if r.succeeded then 0 else 1

end Reply

/-- Why a script cannot be read. -/
inductive Unreadable where
  | missing
  | forbidden
  | notDirectory
  | directory
  | nameTooLong
  /-- The file is no text in UTF-8. -/
  | notText
  | other (cause : String)
deriving DecidableEq

/-- A cause that the system has a number for. -/
def systemCause (number : Nat) (words : String) : String := s!"{words} (os error {number})"

/-- The reason in words. -/
def Unreadable.message : Unreadable → String
  | missing => systemCause 2 "No such file or directory"
  | forbidden => systemCause 13 "Permission denied"
  | notDirectory => systemCause 20 "Not a directory"
  | directory => systemCause 21 "Is a directory"
  | nameTooLong => systemCause 36 "File name too long"
  | notText => "stream did not contain valid UTF-8"
  | other cause => cause

/-- The files that scripts are read from. -/
abbrev Files := String → Except Unreadable String

/-- A line about something that stops the program. -/
def errorLine (words : String) : String := joinLines ["error: " ++ words]

/-- What is said about a script that cannot be read. -/
def unreadableLine (path : String) (reason : Unreadable) : String :=
  let cause := reason.message
  errorLine s!"cannot read script '{path}': {cause}"

/-- The entry of a script, or what is said if it cannot be read. -/
def readEntry (files : Files) (path : String) : Except String Entry :=
  match files path with
  | .ok text => .ok ⟨path, text⟩
  | .error reason => .error (unreadableLine path reason)

/-- The entries of scripts; the first that cannot be read ends the reading. -/
def readEntries (files : Files) (paths : List String) : Except String (List Entry) :=
  paths.mapM (readEntry files)

section Commands

variable (colours : Bool)

/-- What is said about a match that was stopped by the fault of a script. -/
def stoppedBy (entries : List Entry) (player : Arena.PlayerId) (unit : Arena.Serial)
    (fault : Fault) (turn : Nat) : Diagnostic :=
  let id := player.text
  let origin := (entries[player.index]?).elim s!"player {id}" Entry.origin
  (fault.toDiagnostic.withOrigin origin).withNote
    s!"raised by unit {unit} on turn {turn}, the game was stopped by --strict"

/-- Play a match to its end. -/
def playMatch (settings : Settings) (entries : List Entry) (seed : UInt64) : Reply :=
  match Match.setUp settings entries (Xoshiro.ofSeed seed) with
  | .error (.scripts diagnostics) => .failure "" (Terminal.report colours diagnostics)
  | .error e => .failure "" (errorLine e.message)
  | .ok m =>
    let warnings := Terminal.report colours m.warnings
    match m.play with
    | (.ok _, m) => .success m.commentary.text warnings
    | (.error (.script player unit fault), m) =>
      let diagnostic := stoppedBy entries player unit fault m.turns
      .failure m.commentary.text (warnings ++ Terminal.render colours diagnostic)
    | (.error e, m) => .failure m.commentary.text (warnings ++ errorLine e.message)

/-- Whether any of the diagnostics is an error of the script of this name. -/
def hasErrorIn (diagnostics : List Diagnostic) (origin : String) : Bool :=
  diagnostics.any fun d ↦ d.isError && d.origin == some origin

/-- The line about a script that compiles. -/
def compiledLine (origin : String) (block : Block) : String :=
  let statements := block.length
  let calls := blockCalls block
  s!"OK: {origin} ({statements} statements, {calls} calls)"

/-- Compile scripts and report about each of them. -/
def checkScripts (entries : List Entry) : Reply :=
  let compiled := Compiled.ofEntries entries .new
  let fine := (entries.zip compiled.scripts).filter fun e ↦
    !hasErrorIn compiled.diagnostics e.1.origin
  let lines := fine.map fun e ↦ compiledLine e.1.origin e.2
  ⟨!compiled.hasErrors, joinLines lines, Terminal.report colours compiled.diagnostics⟩

/-- Go on with the scripts, if all of them can be read. -/
def withEntries (files : Files) (paths : List String) (next : List Entry → Reply) : Reply :=
  match readEntries files paths with
  | .error line => .failure "" line
  | .ok entries => next entries

/-- The answer to an invocation. -/
def Invocation.reply (files : Files) (seed : UInt64) : Invocation → Reply
  | .usage => .success CommandLine.usage ""
  | .version => .success versionLine ""
  | .run options => withEntries files options.scripts fun entries ↦
    playMatch colours options.settings entries seed
  | .check paths => withEntries files paths (checkScripts colours)
  | .misuse reason => .failure "" (errorLine reason.message ++
    joinLines ["Run `botbattle help` for the list of options."])
  | .fewScripts => .failure "" (joinLines [
    "Usage: botbattle run <script> <script>... [options]",
    "",
    "A game needs at least two scripts, one per player."])
  | .noScripts => .failure "" (joinLines ["Usage: botbattle check <script>..."])
  | .unknownCommand command =>
    .failure CommandLine.usage (joinLines ["Unknown command: " ++ command, ""])

end Commands

end Skirmish.CommandLine
