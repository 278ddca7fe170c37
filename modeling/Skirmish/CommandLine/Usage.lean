import Skirmish.Script.Call

/-!
# Usage

What the program says about itself, with the commands that scripts can call.
-/

namespace Skirmish.CommandLine

open Script

/-- The name of the program. -/
def programName : String := "botbattle"

/-- The version of the program. -/
def version : String := "0.1.0"

/-- The names that stand for the arguments of a command. -/
def parameters : List String := ["a", "b", "c"]

/-- A command as it is called, with so many arguments. -/
def signature (name : String) (count : Nat) : String :=
  let arguments := ", ".intercalate (parameters.take count)
  s!"{name}({arguments})"

/-- Every command as it is called. -/
def signatures : List String :=
  Command.all.map (fun c ↦ signature c.name c.arity) ++
    [signature shortIf (Command.ifElse.arity - 1)]

/-- Lines above the list of commands. -/
def usageHead : List String := [
  "Bot Battle - scripted units fighting on a wrapping grid",
  "",
  "Usage: botbattle <command> [options]",
  "",
  "Commands:",
  "  run <script>...      Play a game, one script per player",
  "  check <script>...    Compile scripts and report problems",
  "  help                 Show this help message",
  "  version              Show version information",
  "",
  "Run options:",
  "  --seed=<n>           Seed for every random choice",
  "  --board=<w>x<h>      Board size (default: 20x20, minimum 3x3)",
  "  --turn-limit=<n>     Turns before the game is called (default: 10000)",
  "  --unit-limit=<pct>   Units per player as a share of the board (default: 0.05)",
  "  --no-board           Do not print the board after each turn",
  "  --quiet, -q          Print only the final result",
  "  --strict             Stop the game on the first script runtime error",
  "",
  "Script commands:"]

/-- Lines below the list of commands. -/
def usageTail : List String := [
  "",
  "Logging:",
  "  Set BOT_LOG (or RUST_LOG) to a filter such as 'debug' or 'bot_game=trace'.",
  "",
  "Examples:",
  "  botbattle run rusher.bot turtle.bot --seed=42",
  "  botbattle run a.bot b.bot c.bot --board=10x10 --quiet",
  "  botbattle check rusher.bot"]

/-- Lines of text, each with a newline. -/
def joinLines (lines : List String) : String := String.join (lines.map (· ++ "\n"))

/-- The help text. -/
def usage : String := joinLines (usageHead ++ signatures.map ("  " ++ ·) ++ usageTail)

/-- The line that tells the version. -/
def versionLine : String := joinLines [s!"{programName} {version}"]

end Skirmish.CommandLine
