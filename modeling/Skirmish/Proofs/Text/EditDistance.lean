import Mathlib.Data.List.Infix
import Mathlib.Order.Bounds.Defs
import Skirmish.Text.EditDistance

/-!
# Edit distance is the least number of edits

An `Edit` inserts, removes or replaces one character anywhere in a text, and `Edits n`
is a way of `n` edits from one text to another, not necessarily the shortest.
`fewestEdits` is the recursion on the first characters of both texts, without a table.

* A row of the table holds what the recursion says of all suffixes
  (`distanceRow_eq_map_tails`).
* There is a way of so many edits (`edits_fewestEdits`), and no edit brings a text
  closer to another one by more than one (`Edit.fewestEdits_le`), so there is no
  shorter way.

Ways can be put together and walked backwards, which makes the distance a metric.

Main statement: `editDistance_least`.
-/

namespace Skirmish.Text

/-! ## The recursion -/

/-- The fewest edits that turn one text into another: the first character is removed,
or that of the other text is put in front of it, or the one takes the place of the
other, which costs nothing if they are equal. -/
def fewestEdits : List Char → List Char → Nat
  | [], bs => bs.length
  | a :: as, [] => (a :: as).length
  | a :: as, b :: bs =>
    let remove := fewestEdits as (b :: bs) + 1
    let insert := fewestEdits (a :: as) bs + 1
    let replace := fewestEdits as bs + if a = b then 0 else 1
    min remove (min insert replace)
termination_by as bs => as.length + bs.length

@[simp] theorem fewestEdits_nil_left (bs : List Char) : fewestEdits [] bs = bs.length := by
  rw [fewestEdits]

@[simp] theorem fewestEdits_nil_right (as : List Char) : fewestEdits as [] = as.length := by
  cases as <;> rw [fewestEdits]

theorem fewestEdits_cons_cons (a : Char) (as : List Char) (b : Char) (bs : List Char) :
    fewestEdits (a :: as) (b :: bs) = min (fewestEdits as (b :: bs) + 1)
      (min (fewestEdits (a :: as) bs + 1) (fewestEdits as bs + if a = b then 0 else 1)) := by
  rw [fewestEdits]

/-! ## The table -/

theorem headD_map_tails (f : List Char → Nat) (bs : List Char) :
    (bs.tails.map f).headD 0 = f bs := by
  cases bs <;> rfl

theorem firstRow_eq_map_tails (bs : List Char) : firstRow bs = bs.tails.map (fewestEdits []) := by
  induction bs with
  | nil => simp [firstRow]
  | cons b bs ih => simp [firstRow, ih]

/-- A row of the recursion is advanced to the next one. -/
theorem advance_map_tails (a : Char) (as bs : List Char) :
    advance a bs (bs.tails.map (fewestEdits as)) = bs.tails.map (fewestEdits (a :: as)) := by
  induction bs with
  | nil => simp [advance]
  | cons b bs ih =>
    rw [List.tails_cons, List.map_cons, List.map_cons, advance, ih, headD_map_tails,
      headD_map_tails, fewestEdits_cons_cons]

/-- The row of a text holds the fewest edits to all suffixes of the other one. -/
theorem distanceRow_eq_map_tails (as bs : List Char) :
    distanceRow as bs = bs.tails.map (fewestEdits as) := by
  induction as with
  | nil => exact firstRow_eq_map_tails bs
  | cons a as ih => rw [distanceRow_cons, ih, advance_map_tails]

theorem editDistance_eq_fewestEdits (a b : String) :
    editDistance a b = fewestEdits a.toList b.toList := by
  rw [editDistance, distanceRow_eq_map_tails, headD_map_tails]

/-! ## Edits -/

/-- One character is inserted, removed or replaced. -/
inductive Edit : List Char → List Char → Prop
  | insert (u : List Char) (c : Char) (v : List Char) : Edit (u ++ v) (u ++ c :: v)
  | remove (u : List Char) (c : Char) (v : List Char) : Edit (u ++ c :: v) (u ++ v)
  | replace (u : List Char) (c d : Char) (v : List Char) : Edit (u ++ c :: v) (u ++ d :: v)

/-- So many edits lead from one text to another. -/
inductive Edits : Nat → List Char → List Char → Prop
  | none (t : List Char) : Edits 0 t t
  | cons {n : Nat} {s t u : List Char} (h : Edit s t) (hs : Edits n t u) : Edits (n + 1) s u

theorem Edit.symm {s t : List Char} (h : Edit s t) : Edit t s := by
  cases h with
  | insert u c v => exact remove u c v
  | remove u c v => exact insert u c v
  | replace u c d v => exact replace u d c v

theorem Edit.cons {s t : List Char} (h : Edit s t) (x : Char) : Edit (x :: s) (x :: t) := by
  cases h with
  | insert u c v => exact insert (x :: u) c v
  | remove u c v => exact remove (x :: u) c v
  | replace u c d v => exact replace (x :: u) c d v

theorem Edit.length_le {s t : List Char} (h : Edit s t) : s.length ≤ t.length + 1 := by
  cases h <;> simp only [List.length_append, List.length_cons] <;> omega

namespace Edits

variable {m n : Nat} {s t u : List Char}

theorem single (h : Edit s t) : Edits 1 s t := cons h (none t)

theorem trans (h : Edits m s t) (h' : Edits n t u) : Edits (m + n) s u := by
  induction h with
  | none t => rwa [Nat.zero_add]
  | cons h _ ih =>
    rw [Nat.succ_add]
    exact cons h (ih h')

theorem symm (h : Edits n s t) : Edits n t s := by
  induction h with
  | none t => exact none t
  | cons h _ ih => exact ih.trans (single h.symm)

theorem both (h : Edits n s t) (x : Char) : Edits n (x :: s) (x :: t) := by
  induction h with
  | none t => exact none (x :: t)
  | cons h _ ih => exact cons (h.cons x) ih

theorem zero_iff : Edits 0 s t ↔ s = t := by
  constructor
  · rintro ⟨⟩
    rfl
  · rintro rfl
    exact none s

/-- Of two ways the shorter one is a way. -/
theorem min (h : Edits m s t) (h' : Edits n s t) : Edits (Nat.min m n) s t := by
  rcases Nat.le_total m n with hmn | hmn
  · rwa [show Nat.min m n = m from Nat.min_eq_left hmn]
  · rwa [show Nat.min m n = n from Nat.min_eq_right hmn]

/-- An edit makes a text longer or shorter by one character at most. -/
theorem length_le (h : Edits n s t) : s.length ≤ t.length + n := by
  induction h with
  | none t => exact Nat.le_refl _
  | cons h _ ih =>
    have := h.length_le
    omega

/-- Everything can be removed. -/
theorem removeAll (s : List Char) : Edits s.length s [] := by
  induction s with
  | nil => exact none []
  | cons c s ih => exact cons (.remove [] c s) ih

end Edits

/-- There is a way of as many edits as the recursion says. -/
theorem edits_fewestEdits (as bs : List Char) : Edits (fewestEdits as bs) as bs := by
  induction as, bs using fewestEdits.induct with
  | case1 bs =>
    rw [fewestEdits_nil_left]
    exact (Edits.removeAll bs).symm
  | case2 a as =>
    rw [fewestEdits_nil_right]
    exact Edits.removeAll (a :: as)
  | case3 a as b bs ihremove ihinsert ihreplace =>
    rw [fewestEdits_cons_cons]
    have hremove : Edits (fewestEdits as (b :: bs) + 1) (a :: as) (b :: bs) :=
      .cons (.remove [] a as) ihremove
    have hinsert : Edits (fewestEdits (a :: as) bs + 1) (a :: as) (b :: bs) :=
      ihinsert.trans (.single (.insert [] b bs))
    have hreplace : Edits (fewestEdits as bs + if a = b then 0 else 1) (a :: as) (b :: bs) := by
      split
      next h => exact h ▸ ihreplace.both a
      next => exact .cons (.replace [] a b as) (ihreplace.both b)
    exact hremove.min (hinsert.min hreplace)

/-! ## No way is shorter -/

theorem fewestEdits_self (s : List Char) : fewestEdits s s = 0 := by
  induction s with
  | nil => simp
  | cons c s ih => simp [fewestEdits_cons_cons, ih]

section

variable (c : Char) (as bs : List Char)

theorem fewestEdits_cons_left_le : fewestEdits (c :: as) bs ≤ fewestEdits as bs + 1 := by
  cases bs with
  | nil => simp
  | cons b bs =>
    rw [fewestEdits_cons_cons]
    exact Nat.min_le_left _ _

theorem fewestEdits_cons_right_le : fewestEdits as (c :: bs) ≤ fewestEdits as bs + 1 := by
  cases as with
  | nil => simp
  | cons a as =>
    rw [fewestEdits_cons_cons]
    omega

theorem fewestEdits_le_cons_left : fewestEdits as bs ≤ fewestEdits (c :: as) bs + 1 := by
  induction bs with
  | nil => simp; omega
  | cons b bs ih =>
    have := fewestEdits_cons_right_le b as bs
    rw [fewestEdits_cons_cons]
    omega

theorem fewestEdits_replace_le (d : Char) :
    fewestEdits (c :: as) bs ≤ fewestEdits (d :: as) bs + 1 := by
  induction bs with
  | nil => simp
  | cons b bs ih =>
    have hcost : (if c = b then 0 else 1) ≤ 1 := by split <;> decide
    rw [fewestEdits_cons_cons, fewestEdits_cons_cons]
    omega

end

/-- What one text has ahead of another one, it keeps behind a common character. -/
theorem fewestEdits_cons_le {s t : List Char} (h : ∀ u, fewestEdits s u ≤ fewestEdits t u + 1)
    (x : Char) (u : List Char) : fewestEdits (x :: s) u ≤ fewestEdits (x :: t) u + 1 := by
  induction u with
  | nil => simpa using h []
  | cons c u ih =>
    have := h u
    have := h (c :: u)
    rw [fewestEdits_cons_cons, fewestEdits_cons_cons]
    omega

theorem fewestEdits_append_le {s t : List Char} (h : ∀ u, fewestEdits s u ≤ fewestEdits t u + 1)
    (w u : List Char) : fewestEdits (w ++ s) u ≤ fewestEdits (w ++ t) u + 1 := by
  induction w generalizing u with
  | nil => exact h u
  | cons x w ih => exact fewestEdits_cons_le ih x u

/-- One edit takes a text closer to any other one by one edit at most. -/
theorem Edit.fewestEdits_le {s t : List Char} (h : Edit s t) (u : List Char) :
    fewestEdits s u ≤ fewestEdits t u + 1 := by
  cases h with
  | insert w c v => exact fewestEdits_append_le (fewestEdits_le_cons_left c v) w u
  | remove w c v => exact fewestEdits_append_le (fewestEdits_cons_left_le c v) w u
  | replace w c d v =>
    exact fewestEdits_append_le (fun u ↦ fewestEdits_replace_le c v u d) w u

theorem Edits.fewestEdits_le {n : Nat} {s t : List Char} (h : Edits n s t) :
    fewestEdits s t ≤ n := by
  induction h with
  | none t => exact Nat.le_of_eq (fewestEdits_self t)
  | cons h _ ih => exact Nat.le_trans (h.fewestEdits_le _) (Nat.succ_le_succ ih)

theorem fewestEdits_isLeast (s t : List Char) : IsLeast {n | Edits n s t} (fewestEdits s t) :=
  ⟨edits_fewestEdits s t, fun _ h ↦ h.fewestEdits_le⟩

/-- The edit distance of two texts is what the recursion says, and it is the least
number of edits by which one is turned into the other.  So it is 0 for equal texts
only, is the same in both directions, and is no longer than the way by a third text. -/
theorem editDistance_least :
    (∀ a b : String, editDistance a b = fewestEdits a.toList b.toList ∧
      IsLeast {n | Edits n a.toList b.toList} (editDistance a b)) ∧
    (∀ a b : String, editDistance a b = 0 ↔ a = b) ∧
    (∀ a b : String, editDistance a b = editDistance b a) ∧
    ∀ a b c : String, editDistance a c ≤ editDistance a b + editDistance b c := by
  simp only [editDistance_eq_fewestEdits]
  refine ⟨fun a b ↦ ⟨trivial, fewestEdits_isLeast _ _⟩, fun a b ↦ ?_, fun a b ↦ ?_, fun a b c ↦ ?_⟩
  · constructor
    · intro h
      have := edits_fewestEdits a.toList b.toList
      rw [h] at this
      exact String.toList_inj.1 (Edits.zero_iff.1 this)
    · rintro rfl
      exact fewestEdits_self _
  · exact Nat.le_antisymm (edits_fewestEdits _ _).symm.fewestEdits_le
      (edits_fewestEdits _ _).symm.fewestEdits_le
  · exact ((edits_fewestEdits a.toList b.toList).trans (edits_fewestEdits _ _)).fewestEdits_le

example : editDistance "kitten" "sitting" = 3 := by decide

end Skirmish.Text
