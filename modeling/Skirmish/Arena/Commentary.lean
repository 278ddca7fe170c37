import Skirmish.Arena.Picture

/-!
# Commentary

What is shown of a match: what units do, what their scripts print, the board
after every turn, and the result.  Each but the last can be switched off.  The
transcript is kept line by line; nothing in it is ever read again by the match.
-/

namespace Skirmish.Arena

/-- The lines shown so far, and what is to be shown. -/
structure Commentary where
  /-- Show what units do. -/
  messages : Bool
  /-- Show what scripts print. -/
  scripts : Bool
  /-- Show the board. -/
  pictures : Bool
  /-- The lines shown so far. -/
  lines : Array String

namespace Commentary

/-- The commentary before anything happens. -/
def new (messages scripts pictures : Bool) : Commentary := ⟨messages, scripts, pictures, #[]⟩

/-- Show a line in any case. -/
def announce (c : Commentary) (line : String) : Commentary := { c with lines := c.lines.push line }

/-- Show a line if a setting asks for it. -/
def announceIf (c : Commentary) (wanted : Bool) (line : String) : Commentary :=
  if wanted then c.announce line else c

/-- Show what a unit does. -/
def message (c : Commentary) (line : String) : Commentary := c.announceIf c.messages line

/-- Show what a script prints. -/
def printed (c : Commentary) (line : String) : Commentary := c.announceIf c.scripts line

/-- Show the board. -/
def picture {ρ : Type} (c : Commentary) (b : Board ρ) : Commentary :=
  if c.pictures then c.announce b.picture else c

/-- The lines from a position on as one text. -/
def textFrom (c : Commentary) (start : Nat) : String :=
  (c.lines.toList.drop start).foldl (fun text line ↦ text ++ line ++ "\n") ""

/-- The lines as one text. -/
def text (c : Commentary) : String := c.textFrom 0

@[simp] theorem lines_new (messages scripts pictures : Bool) :
    (new messages scripts pictures).lines = #[] := rfl

@[simp] theorem lines_announce (c : Commentary) (line : String) :
    (c.announce line).lines = c.lines.push line := rfl

@[simp] theorem announceIf_false (c : Commentary) (line : String) :
    c.announceIf false line = c := rfl

@[simp] theorem announceIf_true (c : Commentary) (line : String) :
    c.announceIf true line = c.announce line := rfl

end Commentary

end Skirmish.Arena
