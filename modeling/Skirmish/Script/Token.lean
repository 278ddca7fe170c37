import Skirmish.Decimal.Reading
import Skirmish.Script.Depth
import Skirmish.Script.Malformed
import Skirmish.Script.Value
import Skirmish.Text.Alphanumeric
import Skirmish.Text.Blank

/-!
# Tokens

A statement by itself is a number, a name, or a call: the name of a command and
its arguments in parentheses, separated by commas.  What could be a number is
one, even where it could be a name as well.

`arguments` takes a call apart.  What it returns is shorter than the call
(`pieceWeight_arguments_lt`), which is why scripts can be compiled by taking
their calls apart for as long as there are any.
-/

namespace Skirmish.Script

open Text

/-- What a statement is. -/
inductive TokenClass where
  | number
  | symbol
  | call
deriving DecidableEq

/-- Written like a number, be it a finite one or not. -/
def isNumber (token : List Char) : Bool := (Decimal.float? token).isSome

/-- Made of alphanumeric characters, at least one. -/
def isName (token : List Char) : Bool := !token.isEmpty && token.all isAlphanumeric

/-- What stands before the first opening parenthesis, all of it if there is none. -/
def commandName (token : List Char) : List Char := token.takeWhile (· != '(')

/-- A name without blanks, an opening parenthesis behind it, and a closing one
at the end.  Whether they match is not looked at. -/
def isCall (token : List Char) : Bool :=
  let name := commandName token
  token.getLast? == some ')' && token.contains '(' && !name.isEmpty && !name.any isBlank

/-- What a token is. -/
def classify (token : List Char) : Except Malformed TokenClass :=
  if isNumber token then .ok .number
  else if isName token then .ok .symbol
  else if isCall token then .ok .call
  else .error (.invalidToken (String.ofList token))

/-- The value of a number. -/
def numberValue (token : List Char) : Except Malformed Value :=
  match Decimal.float? token with
  | none => .error (.invalidToken (String.ofList token))
  | some x =>
    if x.isFinite then .ok (Value.number x)
    else .error (.nonFiniteNumber (String.ofList token))

/-! ## Taking a call apart -/

/-- The text between the parentheses of a call. -/
def callBody (token : List Char) : Except Malformed (List Char) :=
  let name := commandName token
  let unclosed := Malformed.unclosedParentheses (String.ofList token)
  if name.contains ')' then .error unclosed
  else match toClosing 0 ((token.drop name.length).drop 1) with
    | none => .error unclosed
    | some (inside, []) => .ok inside
    | some (_, after) =>
      let call := token.take (token.length - after.length)
      .error (.trailingText (String.ofList call) (String.ofList after))

/-- The arguments of a call as they are written.  No argument may be blank, but
there may be none at all. -/
def arguments (token : List Char) : Except Malformed (List (List Char)) := do
  let inside ← callBody token
  let args := if inside.isEmpty then [] else cut ',' 0 inside
  match args.findIdx? allBlank with
  | some i => .error (.emptyArgument (String.ofList token) i)
  | none => .ok args

/-- At least the two parentheses are left out. -/
theorem length_callBody {token inside : List Char} (h : callBody token = .ok inside) :
    inside.length + 2 ≤ token.length := by
  unfold callBody at h
  simp only at h
  split at h
  next => simp at h
  next =>
    split at h
    next => simp at h
    next i hi =>
      simp only [Except.ok.injEq] at h
      subst h
      have he := congrArg List.length (eq_append_of_toClosing hi)
      simp only [List.length_drop, List.length_append, List.length_cons, List.length_nil] at he
      omega
    next => simp at h

/-- The arguments together are shorter than the call. -/
theorem pieceWeight_arguments_lt {token : List Char} {args : List (List Char)}
    (h : arguments token = .ok args) : pieceWeight args < token.length := by
  unfold arguments at h
  cases hb : callBody token with
  | error e => simp [hb, bind, Except.bind] at h
  | ok inside =>
    have hl := length_callBody hb
    simp only [hb, bind, Except.bind] at h
    split at h
    next => simp at h
    next =>
      simp only [Except.ok.injEq] at h
      subst h
      split
      · simp only [pieceWeight_nil]; omega
      · rw [pieceWeight_cut]; omega

end Skirmish.Script
