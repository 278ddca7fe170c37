import Skirmish.Script.Command
import Skirmish.Script.Value

/-!
# Compiled scripts

A script compiles to a block: a row of terms that are run one after the other.
The arguments of a call are blocks again, and are run only when the command
asks for them.  A block holds no values of variables, so it can be run any
number of times.
-/

namespace Skirmish.Script

/-- One statement of a compiled script. -/
inductive Term where
  | literal (v : Value)
  | symbol (s : Symbol)
  | call (c : Command) (args : List (List Term))

/-- A compiled script, or an argument of a call. -/
abbrev Block := List Term

mutual

/-- The number of calls in a term, those in its arguments included. -/
def Term.calls : Term → Nat
  | .literal _ | .symbol _ => 0
  | .call _ args => 1 + argumentCalls args

/-- The number of calls in a block. -/
def blockCalls : List Term → Nat
  | [] => 0
  | t :: ts => t.calls + blockCalls ts

/-- The number of calls in the arguments of a call. -/
def argumentCalls : List (List Term) → Nat
  | [] => 0
  | b :: bs => blockCalls b + argumentCalls bs

end

/-- The block that a missing branch stands for: the number 0. -/
def Block.zero : Block := [.literal (.int 0)]

end Skirmish.Script
