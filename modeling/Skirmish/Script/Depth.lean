import Skirmish.Text.Pieces

/-!
# Parenthesis depth

The structure of script text shows in its parentheses alone.  `cut` cuts a text
at the separators that stand outside all parentheses: spaces between statements
and commas between arguments are found in this way.

Main statements: joined by the separator, the pieces are the text again
(`intercalate_cut`), and together with their separators they are no longer
(`pieceWeight_cut`); up to the closing parenthesis nothing is lost either
(`eq_append_of_toClosing`).
-/

namespace Skirmish.Script

open Text

/-- How a character changes the depth. -/
def depthStep (c : Char) : Int :=
  if c = '(' then 1 else if c = ')' then -1 else 0

/-- Put a character before the first piece. -/
def extendHead (c : Char) : List (List Char) → List (List Char)
  | [] => [[c]]
  | p :: ps => (c :: p) :: ps

/-- Cut at every separator that stands at depth 0, when the text starts at
depth `d`.  A depth below 0 is as good as one above. -/
def cut (sep : Char) (d : Int) : List Char → List (List Char)
  | [] => [[]]
  | c :: cs =>
    if c = sep ∧ d = 0 then [] :: cut sep d cs
    else extendHead c (cut sep (d + depthStep c) cs)

@[simp] theorem cut_nil (sep : Char) (d : Int) : cut sep d [] = [[]] := rfl

theorem cut_cons (sep : Char) (d : Int) (c : Char) (cs : List Char) :
    cut sep d (c :: cs) = if c = sep ∧ d = 0 then [] :: cut sep d cs
      else extendHead c (cut sep (d + depthStep c) cs) := rfl

theorem extendHead_ne_nil (c : Char) (ps : List (List Char)) : extendHead c ps ≠ [] := by
  cases ps <;> simp [extendHead]

/-- There is at least one piece. -/
theorem cut_ne_nil (sep : Char) (d : Int) (cs : List Char) : cut sep d cs ≠ [] := by
  cases cs with
  | nil => simp
  | cons c cs =>
    rw [cut_cons]
    split
    · simp
    · exact extendHead_ne_nil _ _

/-- Joining the pieces with the separator gives the text back. -/
theorem intercalate_cut (sep : Char) (d : Int) (cs : List Char) :
    [sep].intercalate (cut sep d cs) = cs := by
  induction cs generalizing d with
  | nil => rfl
  | cons c cs ih =>
    rw [cut_cons]
    split
    next h =>
      obtain ⟨p, ps, hp⟩ := List.exists_cons_of_ne_nil (cut_ne_nil sep d cs)
      have := ih d
      rw [hp] at this ⊢
      simp only [List.intercalate_cons_cons, List.nil_append, List.singleton_append, this, h.1]
    next h =>
      have := ih (d + depthStep c)
      cases hp : cut sep (d + depthStep c) cs with
      | nil => exact absurd hp (cut_ne_nil _ _ _)
      | cons p ps =>
        rw [hp] at this
        cases ps with
        | nil => simpa [extendHead] using this
        | cons q qs =>
          simp only [List.intercalate_cons_cons] at this
          simp [extendHead, List.intercalate_cons_cons, this]

/-- The pieces of a text weigh one more than its length: each separator is
made up for by a piece, and there is one piece more. -/
theorem pieceWeight_cut (sep : Char) (d : Int) (cs : List Char) :
    pieceWeight (cut sep d cs) = cs.length + 1 := by
  induction cs generalizing d with
  | nil => rfl
  | cons c cs ih =>
    rw [cut_cons]
    split
    · simp [ih]; omega
    · have := ih (d + depthStep c)
      cases hp : cut sep (d + depthStep c) cs with
      | nil => exact absurd hp (cut_ne_nil _ _ _)
      | cons p ps =>
        rw [hp] at this
        simp only [pieceWeight_cons, extendHead, List.length_cons] at this ⊢
        omega

/-- Behind an opening parenthesis: the text up to the parenthesis that closes
it, and what follows that one.  The number counts the parentheses that were
opened since. -/
def toClosing (opened : Nat) : List Char → Option (List Char × List Char)
  | [] => none
  | c :: cs =>
    if c = ')' then
      match opened with
      | 0 => some ([], cs)
      | n + 1 => (toClosing n cs).map fun (inside, after) ↦ (c :: inside, after)
    else
      (toClosing (if c = '(' then opened + 1 else opened) cs).map
        fun (inside, after) ↦ (c :: inside, after)

/-- Only the closing parenthesis itself is left out. -/
theorem eq_append_of_toClosing {opened : Nat} {cs inside after : List Char}
    (h : toClosing opened cs = some (inside, after)) : cs = inside ++ ')' :: after := by
  induction cs generalizing opened inside with
  | nil => simp [toClosing] at h
  | cons c cs ih =>
    unfold toClosing at h
    split at h
    next hc =>
      subst hc
      cases opened with
      | zero => simp_all
      | succ n =>
        obtain ⟨⟨i, a⟩, hi, he⟩ := Option.map_eq_some_iff.1 h
        simp only [Prod.mk.injEq] at he
        obtain ⟨rfl, rfl⟩ := he
        simp [ih hi]
    next hc =>
      obtain ⟨⟨i, a⟩, hi, he⟩ := Option.map_eq_some_iff.1 h
      simp only [Prod.mk.injEq] at he
      obtain ⟨rfl, rfl⟩ := he
      simp [ih hi]

end Skirmish.Script
