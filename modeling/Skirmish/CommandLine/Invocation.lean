import Skirmish.CommandLine.Options

/-!
# Invocations

What the arguments of the program ask for.  The first argument decides; without
any, and for whoever asks for help, there is the help text.
-/

namespace Skirmish.CommandLine

/-- What is asked for. -/
inductive Invocation where
  | usage
  | version
  | run (options : Options)
  | check (paths : List String)
  /-- An option of `run` cannot be read. -/
  | misuse (reason : Misuse)
  /-- `run` has fewer than two scripts. -/
  | fewScripts
  /-- `check` has no scripts. -/
  | noScripts
  | unknownCommand (command : String)

namespace Invocation

/-- What is asked for by the arguments behind `run`. -/
def ofRunArguments (arguments : List String) : Invocation :=
  match Options.ofArguments arguments with
  | .error reason => misuse reason
  | .ok options => if options.scripts.length < 2 then fewScripts else run options

/-- What is asked for by all arguments. -/
def ofArguments : List String → Invocation
  | [] => usage
  | command :: arguments =>
    if command = "run" then ofRunArguments arguments
    else if command = "check" then
      if arguments.isEmpty then noScripts else check arguments
    else if command ∈ ["help", "--help", "-h"] then usage
    else if command ∈ ["version", "--version", "-V"] then version
    else unknownCommand command

/-- The scripts that have to be read, in this order. -/
def paths : Invocation → List String
  | run options => options.scripts
  | check paths => paths
  | _ => []

/-- What all random choices follow from, as far as it has been asked for. -/
def seed? : Invocation → Option UInt64
  | run options => options.settings.seed
  | _ => none

end Invocation

end Skirmish.CommandLine
