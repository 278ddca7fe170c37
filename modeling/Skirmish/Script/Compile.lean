import Skirmish.Script.Call
import Skirmish.Script.Statement
import Skirmish.Script.Term
import Skirmish.Script.Token

/-!
# Compiling scripts

The block of a script: each statement becomes a term, and each argument of a
call is compiled as a script of its own.  Names are put into the symbol table
as they are met, from left to right; the first problem ends the work, and what
has been put into the table by then stays there.

Taking a call apart makes text shorter, which is why the work comes to an end.
-/

namespace Skirmish.Script

open Report Text

/-- Work that adds to a symbol table and ends at the first problem. -/
abbrev Compiling := ExceptT Diagnostic (StateM SymbolTable)

/-- The symbol of a name. -/
def internName (name : String) : Compiling Symbol := modifyGet fun t ↦ t.intern name

/-- The number that a token is, or its problem. -/
def compileNumber (token : List Char) : Compiling Term :=
  match numberValue token with
  | .ok v => pure (.literal v)
  | .error m => throw m.toDiagnostic

/-- The command that a call is for, or what is wrong with the call. -/
def compileHead (token : List Char) (count : Nat) : Compiling Command :=
  match resolve (String.ofList (commandName token)) count with
  | .ok c => pure c
  | .error u =>
    let call := String.ofList token
    throw (u.toDiagnostic.withNote s!"in `{call}`")

/-- The branch that `if` leaves out. -/
def missingBranch (token : List Char) : List Block :=
  if String.ofList (commandName token) = shortIf then [Block.zero] else []

mutual

/-- The term of one statement. -/
def compileToken (token : List Char) : Compiling Term :=
  match classify token with
  | .error m => throw m.toDiagnostic
  | .ok .number => compileNumber token
  | .ok .symbol => return .symbol (← internName (String.ofList token))
  | .ok .call =>
    match _h : arguments token with
    | .error m => throw m.toDiagnostic
    | .ok args => do
      let command ← compileHead token args.length
      let blocks ← compileArguments args
      return .call command (blocks ++ missingBranch token)
termination_by 2 * token.length + 1
decreasing_by
  have := pieceWeight_arguments_lt _h
  omega

/-- The terms of several statements. -/
def compileTokens (tokens : List (List Char)) : Compiling Block :=
  match tokens with
  | [] => return []
  | token :: rest => do
    let term ← compileToken token
    let terms ← compileTokens rest
    return term :: terms
termination_by 2 * pieceWeight tokens
decreasing_by all_goals simp only [pieceWeight_cons]; omega

/-- The blocks of the arguments of a call. -/
def compileArguments (args : List (List Char)) : Compiling (List Block) :=
  match args with
  | [] => return []
  | arg :: rest => do
    let block ← compileTokens (statements arg)
    let blocks ← compileArguments rest
    return block :: blocks
termination_by 2 * pieceWeight args + 1
decreasing_by
  · have := pieceWeight_statements_le arg
    simp only [pieceWeight_cons]
    omega
  · simp only [pieceWeight_cons]
    omega

end

/-- The block of a script, or the first problem in it, and the table with the
names that were met. -/
def compile (symbols : SymbolTable) (text : String) : Except Diagnostic Block × SymbolTable :=
  (compileTokens (statements text.toList)).run symbols

/-- The warning about a script without statements. -/
def emptyScriptWarning : Diagnostic :=
  (Diagnostic.warning .emptyScript "script has no statements").withNote
    "units running it will never act"

end Skirmish.Script
