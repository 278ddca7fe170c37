import Skirmish.Text.EditDistance

/-!
# The closest of several words

For a word that nobody knows, the known word that was probably meant: the one
fewest edits away, provided that the edits are few for a word of that length.

The tolerance goes by the length of the word in UTF-8 bytes, the distance by
characters.  A candidate whose length in bytes is too far off is passed over
without a look at its letters.
-/

namespace Skirmish.Text

/-- How many edits still count as a slip in a word of so many bytes. -/
def tolerance (bytes : Nat) : Nat :=
  if bytes = 0 then 0
  else if bytes ≤ 2 then 1
  else if bytes ≤ 5 then 2
  else if bytes ≤ 10 then 3
  else min (bytes / 2) 5

/-- The difference of two lengths in bytes. -/
def byteGap (a b : String) : Nat :=
  (a.utf8ByteSize - b.utf8ByteSize) + (b.utf8ByteSize - a.utf8ByteSize)

/-- The better of the best candidate so far and a new one; of equals, the earlier. -/
def better (name : String) (best : Option (String × Nat)) (candidate : String) :
    Option (String × Nat) :=
  let limit := tolerance name.utf8ByteSize
  if limit < byteGap name candidate then best
  else
    let distance := editDistance name candidate
    if distance ≤ limit && best.all (fun (_, least) ↦ distance < least) then
      some (candidate, distance)
    else best

/-- The closest candidate within the tolerance, if there is one. -/
def closest? (name : String) (candidates : List String) : Option String :=
  (candidates.foldl (better name) none).map (·.1)

@[simp] theorem closest?_nil (name : String) : closest? name [] = none := rfl

end Skirmish.Text
