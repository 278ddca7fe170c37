import Skirmish.Script.Depth
import Skirmish.Text.Blank

/-!
# Statements

A script is a row of statements with blanks between them.  A blank inside
parentheses separates nothing, so a call with its arguments is one statement.
Where the parentheses do not balance, no blank separates anything until they
do, and the overlong statement is left to be refused as a whole.
-/

namespace Skirmish.Script

open Text

/-- The statements of a script, their inner blanks reduced to single spaces. -/
def statements (text : List Char) : List (List Char) :=
  (cut ' ' 0 (normalize text)).filter (!·.isEmpty)

/-- Together the statements are no longer than the text. -/
theorem pieceWeight_statements_le (text : List Char) :
    pieceWeight (statements text) ≤ text.length + 1 := by
  have h := pieceWeight_filter_le (!·.isEmpty) (cut ' ' 0 (normalize text))
  rw [pieceWeight_cut] at h
  have := length_normalize_le text
  unfold statements
  omega

/-- No statement is longer than the text. -/
theorem length_le_of_mem_statements {token text : List Char} (h : token ∈ statements text) :
    token.length ≤ text.length := by
  have := length_lt_pieceWeight h
  have := pieceWeight_statements_le text
  omega

end Skirmish.Script
