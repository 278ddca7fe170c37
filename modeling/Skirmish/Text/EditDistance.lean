/-!
# Edit distance

The least number of insertions, deletions and substitutions of single
characters that turns one text into another.

The distances are tabulated a row at a time.  The row of a text `as` against
`bs` holds the distance from `as` to every suffix of `bs`, the longest first;
`advance` takes it to the row of `a :: as`.
-/

namespace Skirmish.Text

/-- The row of `a :: as`, from the row of `as`. -/
def advance (a : Char) : List Char → List Nat → List Nat
  | b :: bs, whole :: rest =>
    let below := advance a bs rest
    let remove := whole + 1
    let insert := below.headD 0 + 1
    let replace := rest.headD 0 + if a = b then 0 else 1
    min remove (min insert replace) :: below
  | [], whole :: _ => [whole + 1]
  | _, [] => []

/-- The row of the empty text: every suffix has to be inserted as a whole. -/
def firstRow : List Char → List Nat
  | [] => [0]
  | _ :: bs => (bs.length + 1) :: firstRow bs

/-- The row of `as` against `bs`. -/
def distanceRow (as bs : List Char) : List Nat :=
  as.foldr (fun a row ↦ advance a bs row) (firstRow bs)

/-- The least number of single-character edits that turns `a` into `b`. -/
def editDistance (a b : String) : Nat :=
  (distanceRow a.toList b.toList).headD 0

@[simp] theorem distanceRow_nil (bs : List Char) : distanceRow [] bs = firstRow bs := rfl

@[simp] theorem distanceRow_cons (a : Char) (as bs : List Char) :
    distanceRow (a :: as) bs = advance a bs (distanceRow as bs) := rfl

end Skirmish.Text
