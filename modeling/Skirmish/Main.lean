import Skirmish.CommandLine.Program

/-!
# The command line

Reads the scripts that an invocation needs, draws a seed if none was asked for,
and writes the answer of the program.
-/

namespace Skirmish.CommandLine

/-- The cause of a failure to read a file.  Where the type of a file is wrong, the
error has its path if it could not be opened and none if it could not be read. -/
def causeOf : IO.Error → Unreadable
  | .noFileOrDirectory _ _ _ => .missing
  | .permissionDenied _ _ _ => .forbidden
  | .inappropriateType (some _) _ _ => .notDirectory
  | .inappropriateType none _ _ => .directory
  | .invalidArgument (some _) _ _ => .nameTooLong
  | e => .other e.toString

/-- Read a script. -/
def readScript (path : String) : IO (Except Unreadable String) := do
  match ← (IO.FS.readBinFile path).toBaseIO with
  | .error e => return .error (causeOf e)
  | .ok bytes => return (String.fromUTF8? bytes).elim (.error .notText) .ok

/-- The seed that was asked for, or one that nobody can know beforehand. -/
def chooseSeed : Option UInt64 → IO UInt64
  | some seed => return seed
  | none => return UInt64.ofNat (← IO.rand 0 (UInt64.size - 1))

/-- Answer an invocation. -/
def answer (arguments : List String) : IO Reply := do
  let invocation := Invocation.ofArguments arguments
  let contents ← invocation.paths.mapM fun path ↦ return (path, ← readScript path)
  let files (path : String) := (contents.lookup path).getD (.error .missing)
  let seed ← chooseSeed invocation.seed?
  let terminal ← (← IO.getStderr).isTty
  return invocation.reply (Report.ColourMode.auto.wantsColours terminal) files seed

end Skirmish.CommandLine

/-- The program. -/
def main (arguments : List String) : IO UInt32 := do
  let reply ← Skirmish.CommandLine.answer arguments
  IO.print reply.stdout
  IO.eprint reply.stderr
  return UInt32.ofNat reply.exitCode
