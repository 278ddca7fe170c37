import Skirmish.Script.Arithmetic
import Skirmish.Script.Bindings
import Skirmish.Script.Term

/-!
# Running scripts

A block runs its terms in order, and its value is the value of the last one.
What it can change are the variables it is run with and the world beyond them,
which it reaches through a `Host`: printing, actions and questions.

A name stands for itself until its value is needed.  A call gets its arguments
as work that has not been done yet: the special forms decide which of them are
run, and all other commands run every one, from left to right, and work on the
values.

The first fault ends the run.  What was changed before it stays changed.
-/

namespace Skirmish.Script

/-- How a script reaches a world of type `σ`. -/
structure Host (σ : Type) where
  /-- Carry out a command for the board. -/
  perform : Command → List Value → σ → Except Fault Value × σ
  /-- Print a line. -/
  print : String → σ → σ

/-- What a run can change. -/
structure RunState (σ : Type) where
  bindings : Bindings
  world : σ

/-- Work that can change variables and world, also when it ends in a fault. -/
abbrev Run (σ : Type) := ExceptT Fault (StateM (RunState σ))

variable {σ : Type}

/-- Work on the world alone. -/
def Run.onWorld {α : Type} (work : σ → Except Fault α × σ) : Run σ α :=
  ExceptT.mk fun s ↦
    let (result, world) := work s.world
    (result, { s with world })

/-- Give a variable a value. -/
def Run.define (name : Symbol) (value : Value) : Run σ Unit :=
  modify fun s ↦ { s with bindings := s.bindings.define name value }

/-- Carry out an operator or a command for the board, on the values of its arguments. -/
def execute (host : Host σ) (symbols : SymbolTable) (c : Command) (args : List Value) (w : σ) :
    Except Fault Value × σ :=
  match c, args with
  | .add, [a, b] => (a.add b, w)
  | .sub, [a, b] => (a.sub b, w)
  | .mul, [a, b] => (a.mul b, w)
  | .div, [a, b] => (a.div b, w)
  | .equal, [a, b] => (.ok (.bool (a.equal b)), w)
  | .greater, [a, b] => (a.greater b, w)
  | .greaterEqual, [a, b] => (a.greaterEqual b, w)
  | .less, [a, b] => (a.less b, w)
  | .lessEqual, [a, b] => (a.lessEqual b, w)
  | .not, [a] => (.ok (.bool !a.isTrue), w)
  | .print, [a] => (.ok (.bool true), host.print (a.text symbols) w)
  | c, args =>
    if c.isForBoard && args.length == c.arity then host.perform c args w
    else (.error (.invalidArgument c (.count args.length)), w)

/-- The value of a name that is needed now; any other value is its own. -/
def resolveValue (symbols : SymbolTable) : Value → Run σ Value
  | .symbol s => do
    match (← get).bindings.lookup? s with
    | some v => return v
    | none => throw (.undefinedSymbol (symbols.lookup s))
  | v => return v

/-- The value of an argument, which must have one. -/
def requireValue (c : Command) : Option Value → Run σ Value
  | some v => return v
  | none => throw (.invalidArgument c .noValue)

/-- The name that a definition is for. -/
def requireName : Value → Run σ Symbol
  | .symbol s => return s
  | v => throw (.typeMismatch .define .symbolName v.kind)

/-- An argument of a call, run when the command asks for it. -/
abbrev Deferred (σ : Type) := Run σ (Option Value)

/-- The value that an argument yields, be it a name. -/
def Deferred.raw (arg : Deferred σ) (c : Command) : Run σ Value := do
  requireValue c (← arg)

/-- The value that an argument yields; that of a name is looked up. -/
def Deferred.value (arg : Deferred σ) (symbols : SymbolTable) (c : Command) : Run σ Value := do
  resolveValue symbols (← arg.raw c)

section Evaluation

variable (host : Host σ) (symbols : SymbolTable)

/-- Carry out a call.  This is where it is decided which arguments are run, in
what order, and whether names among their values are looked up. -/
def call (c : Command) (args : List (Deferred σ)) : Run σ Value :=
  match c, args with
  | .define, [name, value] => do
    let s ← requireName (← name.raw .define)
    let v ← value.value symbols .define
    Run.define s v
    return .bool true
  | .ifElse, [test, yes, no] => do
    let v ← test.value symbols .ifElse
    if v.isTrue then yes.raw .ifElse else no.raw .ifElse
  | .and, [left, right] => do
    let v ← left.value symbols .and
    if v.isTrue then
      let w ← right.value symbols .and
      return .bool w.isTrue
    else return .bool false
  | .or, [left, right] => do
    let v ← left.value symbols .or
    if v.isTrue then return .bool true
    else
      let w ← right.value symbols .or
      return .bool w.isTrue
  | c, args =>
    if c.kind = .special then throw (.invalidArgument c (.count args.length))
    else do
      let values ← args.mapM fun arg ↦ arg.value symbols c
      Run.onWorld (execute host symbols c values)

mutual

/-- The value of a term. -/
def evalTerm : Term → Run σ Value
  | .literal v => return v
  | .symbol s => return .symbol s
  | .call c args => call host symbols c (deferred args)

/-- The value of a block, that of its last term if it has any. -/
def evalBlock : List Term → Run σ (Option Value)
  | [] => return none
  | t :: ts => do
    let first ← evalTerm t
    let last ← evalBlock ts
    return some (last.getD first)

/-- The arguments of a call, not yet run. -/
def deferred : List (List Term) → List (Deferred σ)
  | [] => []
  | b :: bs => evalBlock b :: deferred bs

end

theorem deferred_eq_map (args : List (List Term)) :
    deferred host symbols args = args.map (evalBlock host symbols) := by
  induction args with
  | nil => rfl
  | cons b bs ih => rw [deferred, ih]; rfl

/-- Run a block on variables and a world. -/
def Block.run (block : Block) (bindings : Bindings) (world : σ) :
    Except Fault (Option Value) × RunState σ :=
  (evalBlock host symbols block).run ⟨bindings, world⟩

end Evaluation

end Skirmish.Script
