/-!
# Pieces of a text

Text is cut into pieces and joined again in several ways.  `pieceWeight` counts
the characters of a list of pieces and one more for each piece; joined by a
single separator, the pieces are one shorter than that.
-/

namespace Skirmish.Text

/-- The characters of all pieces, and one for each piece. -/
def pieceWeight : List (List Char) → Nat
  | [] => 0
  | p :: ps => p.length + 1 + pieceWeight ps

@[simp] theorem pieceWeight_nil : pieceWeight [] = 0 := rfl

@[simp] theorem pieceWeight_cons (p : List Char) (ps : List (List Char)) :
    pieceWeight (p :: ps) = p.length + 1 + pieceWeight ps := rfl

/-- Leaving pieces out makes a list no heavier. -/
theorem pieceWeight_filter_le (f : List Char → Bool) (ps : List (List Char)) :
    pieceWeight (ps.filter f) ≤ pieceWeight ps := by
  induction ps with
  | nil => simp
  | cons p ps ih =>
    rw [List.filter_cons]
    split <;> simp <;> omega

/-- A member is lighter than the list. -/
theorem length_lt_pieceWeight {p : List Char} {ps : List (List Char)} (h : p ∈ ps) :
    p.length < pieceWeight ps := by
  induction ps with
  | nil => simp at h
  | cons q qs ih =>
    rcases List.mem_cons.1 h with rfl | h
    · simp only [pieceWeight_cons]; omega
    · have := ih h
      simp only [pieceWeight_cons]; omega

/-- The pieces joined by one character are as long as they weigh, less one. -/
theorem length_intercalate (sep : Char) (ps : List (List Char)) :
    ([sep].intercalate ps).length = pieceWeight ps - 1 := by
  induction ps with
  | nil => rfl
  | cons p ps ih =>
    cases ps with
    | nil => simp
    | cons q qs =>
      rw [List.intercalate_cons_cons]
      simp only [List.length_append, ih, pieceWeight_cons, List.length_singleton]
      omega

end Skirmish.Text
