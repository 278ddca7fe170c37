/-!
# Random choices

A `WordSource` is a state from which uniformly distributed words of 64 bits can
be drawn, one after the other.  Nothing else is known of it here, so whatever
holds of the choices below holds for every source.

A number below `n` is the upper half of the product of `n` and a word.  For some
numbers there would be one word more than for others, so a word whose product
has a lower half beyond a limit is refused and another one drawn.  Fewer than
half of the words are refused, so a hundred refusals in a row do not happen; to
be on the safe side, the word after that is accepted as it comes.
-/

namespace Skirmish.Random

/-- A state from which words can be drawn. -/
class WordSource (ρ : Type) where
  /-- The next word, and the state after it. -/
  next : ρ → UInt64 × ρ

variable {ρ : Type} [WordSource ρ]

/-- How many words of so many bits there are. -/
def wordCount (bits : Nat) : Nat := Nat.pow 2 bits

/-- The upper bits of the next word. -/
def upperBits (bits : Nat) (g : ρ) : Nat × ρ :=
  let (word, g) := WordSource.next g
  (word.toNat / wordCount (64 - bits), g)

/-- The greatest lower half for which a word is accepted: as many multiples of
`n` as fit into the word when `n` is shifted as far up as it goes. -/
def acceptedLimit (bits n : Nat) : Nat := n * wordCount (bits - 1 - n.log2) - 1

/-- How many words may be refused for one number. -/
def patience : Nat := 128

/-- A number below `n`, when so many words may still be refused. -/
def belowWithin (bits n : Nat) : (refusals : Nat) → ρ → Nat × ρ
  | 0, g =>
    let (word, g) := upperBits bits g
    (word * n / wordCount bits, g)
  | refusals + 1, g =>
    let (word, g) := upperBits bits g
    if word * n % wordCount bits ≤ acceptedLimit bits n then (word * n / wordCount bits, g)
    else belowWithin bits n refusals g

/-- A number below `n`, drawn from words of so many bits. -/
def below (bits n : Nat) (g : ρ) : Nat × ρ := belowWithin bits n patience g

/-- A member of a list, none of the empty list, for which nothing is drawn. -/
def choose? {α : Type} (xs : List α) (g : ρ) : Option α × ρ :=
  if xs.isEmpty then (none, g)
  else
    let (i, g) := below 32 xs.length g
    (xs[i]?, g)

theorem wordCount_pos (bits : Nat) : 0 < wordCount bits := Nat.two_pow_pos bits

theorem wordCount_mul (a b : Nat) : wordCount a * wordCount b = wordCount (a + b) :=
  (Nat.pow_add 2 a b).symm

theorem upperBits_lt {bits : Nat} (h : bits ≤ 64) (g : ρ) :
    (upperBits bits g).1 < wordCount bits := by
  simp only [upperBits]
  rw [Nat.div_lt_iff_lt_mul (wordCount_pos _), wordCount_mul, Nat.add_sub_cancel' h]
  exact UInt64.toNat_lt _

theorem mul_div_lt {w n m : Nat} (hw : w < m) (hn : 0 < n) : w * n / m < n := by
  rw [Nat.div_lt_iff_lt_mul (by omega), Nat.mul_comm n m]
  exact Nat.mul_lt_mul_of_pos_right hw hn

theorem belowWithin_lt {bits n : Nat} (hb : bits ≤ 64) (hn : 0 < n) (refusals : Nat) (g : ρ) :
    (belowWithin bits n refusals g).1 < n := by
  induction refusals generalizing g with
  | zero => exact mul_div_lt (upperBits_lt hb g) hn
  | succ k ih =>
    simp only [belowWithin]
    split
    · exact mul_div_lt (upperBits_lt hb g) hn
    · exact ih _

/-- A number below `n` is below `n`. -/
theorem below_lt {bits n : Nat} (hb : bits ≤ 64) (hn : 0 < n) (g : ρ) : (below bits n g).1 < n :=
  belowWithin_lt hb hn patience g

@[simp] theorem choose?_nil {α : Type} (g : ρ) : choose? ([] : List α) g = (none, g) := rfl

/-- Nothing is chosen from the empty list only. -/
theorem choose?_eq_none_iff {α : Type} {xs : List α} {g : ρ} :
    (choose? xs g).1 = none ↔ xs = [] := by
  cases xs with
  | nil => simp
  | cons x xs =>
    have := below_lt (by decide : 32 ≤ 64) (Nat.succ_pos xs.length) g
    simp only [choose?, List.isEmpty_cons, Bool.false_eq_true, if_false, reduceCtorEq, iff_false]
    simp only [List.length_cons, List.getElem?_eq_none_iff, Nat.not_le]
    exact this

/-- What is chosen is a member. -/
theorem mem_of_choose? {α : Type} {xs : List α} {g : ρ} {x : α}
    (h : (choose? xs g).1 = some x) : x ∈ xs := by
  unfold choose? at h
  split at h
  · simp at h
  · exact List.mem_of_getElem? h

end Skirmish.Random
