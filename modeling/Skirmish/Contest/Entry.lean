import Skirmish.Script.Compile

/-!
# Entries

A player enters a match with a script.  All scripts are compiled before any is
run, over one symbol table and in the order of the players, and everything that
is wrong with any of them is reported together.  A script that cannot be
compiled stands as an empty block, so that scripts and players stay in step.
-/

namespace Skirmish.Contest

open Report Script

/-- A script and where it is from. -/
structure Entry where
  /-- What diagnostics call the script. -/
  origin : String
  text : String

/-- The scripts of all players. -/
structure Compiled where
  scripts : List Block
  diagnostics : List Diagnostic
  symbols : SymbolTable

/-- The block of an entry, and what is to be said about it. -/
def Entry.compile (e : Entry) (symbols : SymbolTable) : (Block × List Diagnostic) × SymbolTable :=
  match Script.compile symbols e.text with
  | (.error d, symbols) => (([], [d.withOrigin e.origin]), symbols)
  | (.ok block, symbols) =>
    ((block, if block.isEmpty then [emptyScriptWarning.withOrigin e.origin] else []), symbols)

namespace Compiled

/-- Compile entries one after the other. -/
def ofEntries : List Entry → SymbolTable → Compiled
  | [], symbols => ⟨[], [], symbols⟩
  | e :: es, symbols =>
    let ((block, ds), symbols) := e.compile symbols
    let rest := ofEntries es symbols
    ⟨block :: rest.scripts, ds ++ rest.diagnostics, rest.symbols⟩

/-- Whether any script could not be compiled. -/
def hasErrors (c : Compiled) : Bool := c.diagnostics.any (·.isError)

end Compiled

end Skirmish.Contest
