import Skirmish.Text.Pieces

/-!
# Blank characters and words

The blanks of script text are the characters with the Unicode property
`White_Space`: more than ASCII knows, and fewer than the invisible characters,
for a zero-width space is no blank.

`words` cuts text into its maximal runs without blanks, and `normalize` puts
exactly one space between them, which makes no text longer
(`length_normalize_le`).
-/

namespace Skirmish.Text

/-- The property `White_Space`. -/
def isBlank (c : Char) : Bool :=
  let n := c.toNat
  n == 0x20 || (0x09 ≤ n && n ≤ 0x0d) || n == 0x85 || n == 0xa0 || n == 0x1680 ||
    (0x2000 ≤ n && n ≤ 0x200a) || n == 0x2028 || n == 0x2029 || n == 0x202f || n == 0x205f ||
    n == 0x3000

/-- Nothing but blanks, so also nothing at all. -/
def allBlank (cs : List Char) : Bool := cs.all isBlank

/-- The maximal runs of characters that are not blank. -/
def words (cs : List Char) : List (List Char) :=
  (cs.splitOnP isBlank).filter (!·.isEmpty)

/-- The words of a text with one space between neighbours, and no other blank. -/
def normalize (cs : List Char) : List Char :=
  [' '].intercalate (words cs)

/-- The pieces between blanks weigh one more than the text. -/
theorem pieceWeight_splitOnP (p : Char → Bool) (cs : List Char) :
    pieceWeight (cs.splitOnP p) = cs.length + 1 := by
  induction cs with
  | nil => rfl
  | cons c cs ih =>
    rw [List.splitOnP_cons_eq_if_modifyHead]
    split
    · simp [ih]; omega
    · cases h : cs.splitOnP p with
      | nil => simp [h] at ih
      | cons q qs =>
        rw [h] at ih
        simp only [List.modifyHead_cons, pieceWeight_cons, List.length_cons] at ih ⊢
        omega

/-- Putting single spaces between the words makes no text longer. -/
theorem length_normalize_le (cs : List Char) : (normalize cs).length ≤ cs.length := by
  have h := pieceWeight_filter_le (!·.isEmpty) (cs.splitOnP isBlank)
  rw [pieceWeight_splitOnP] at h
  rw [normalize, length_intercalate, words]
  omega

end Skirmish.Text
