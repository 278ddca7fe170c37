import Mathlib.Data.List.MinMax
import Skirmish.Proofs.Text.EditDistance
import Skirmish.Text.Closest

/-!
# The closest candidate and lengths in bytes

`nearest?` is the search that looks at every candidate: the first of those that are
the fewest edits away, if that is within the tolerance.  `closest?` is the same search
among the candidates that are near enough in bytes
(`closest?_eq_nearest?_filter`).

Edits are counted in characters.  In texts of one-byte characters a candidate within
the tolerance is near enough in bytes as well (`byteGap_le_editDistance`), so nothing
is missed; a character of four bytes in the place of one of one byte is a single edit
and puts the candidate three bytes off.

Main statement: when the two searches agree (`closest?_eq_nearest?_iff`), with a word
for which they do not (`closest?_misses`).
-/

namespace Skirmish.Text

/-- The first of the candidates that are the fewest edits away from a word, if those
are few enough for a slip. -/
def nearest? (name : String) (candidates : List String) : Option String :=
  (candidates.argmin (editDistance name)).filter fun c ↦
    editDistance name c ≤ tolerance name.utf8ByteSize

/-- A candidate that is not passed over for its length. -/
def inReach (name candidate : String) : Bool :=
  byteGap name candidate ≤ tolerance name.utf8ByteSize

/-! ## The search that looks at every candidate -/

section Earliest

variable {α : Type} {f : α → Nat} {xs : List α} {x : α}

/-- A least member is the first of its kind if whatever stands before it is greater. -/
theorem argmin_eq_some_iff_append :
    xs.argmin f = some x ↔ ∃ before after, xs = before ++ x :: after ∧
      (∀ y ∈ before, f x < f y) ∧ ∀ y ∈ after, f x ≤ f y := by
  classical
  rw [List.argmin_eq_some_iff]
  constructor
  · rintro ⟨hx, hmin, hfirst⟩
    obtain ⟨before, after, rfl, hnot⟩ := List.eq_append_cons_of_mem hx
    refine ⟨before, after, rfl, fun y hy ↦ ?_, fun y hy ↦ hmin y (by simp [hy])⟩
    by_contra hle
    have hidx := hfirst y (by simp [hy]) (Nat.le_of_not_lt hle)
    rw [List.idxOf_append_of_notMem hnot, List.idxOf_append_of_mem hy] at hidx
    have := List.idxOf_lt_length_of_mem hy
    omega
  · rintro ⟨before, after, rfl, hbefore, hafter⟩
    have hnot : ∀ y, f y ≤ f x → y ∉ before := fun y hle hy ↦
      absurd (hbefore y hy) (Nat.not_lt.2 hle)
    refine ⟨by simp, fun y hy ↦ ?_, fun y _ hle ↦ ?_⟩
    · rcases List.mem_append.1 hy with hy | hy
      · exact Nat.le_of_lt (hbefore y hy)
      · rcases List.mem_cons.1 hy with rfl | hy
        · exact Nat.le_refl _
        · exact hafter y hy
    · rw [List.idxOf_append_of_notMem (hnot x (Nat.le_refl _)),
        List.idxOf_append_of_notMem (hnot y hle), List.idxOf_cons_self]
      omega

end Earliest

variable {name c : String} {candidates : List String}

theorem nearest?_eq_some_iff : nearest? name candidates = some c ↔
    editDistance name c ≤ tolerance name.utf8ByteSize ∧
      ∃ before after, candidates = before ++ c :: after ∧
        (∀ x ∈ before, editDistance name c < editDistance name x) ∧
        ∀ x ∈ after, editDistance name c ≤ editDistance name x := by
  rw [nearest?, Option.filter_eq_some_iff, argmin_eq_some_iff_append, decide_eq_true_iff, and_comm]

theorem nearest?_eq_none_iff : nearest? name candidates = none ↔
    ∀ c ∈ candidates, tolerance name.utf8ByteSize < editDistance name c := by
  rw [nearest?, Option.filter_eq_none_iff]
  constructor
  · intro h c hc
    obtain ⟨m, hm⟩ : ∃ m, candidates.argmin (editDistance name) = some m := by
      rw [← Option.ne_none_iff_exists', Ne, List.argmin_eq_none]
      exact List.ne_nil_of_mem hc
    have hfar := h m hm
    have hle := List.le_of_mem_argmin hc hm
    rw [decide_eq_true_iff] at hfar
    omega
  · intro h m hm
    rw [decide_eq_true_iff, Nat.not_le]
    exact h m (List.argmin_mem hm)

/-- One more candidate is taken if it is close enough and closer than all before. -/
theorem nearest?_concat (name : String) (candidates : List String) (c : String) :
    nearest? name (candidates ++ [c]) =
      if editDistance name c ≤ tolerance name.utf8ByteSize ∧
        ∀ best, nearest? name candidates = some best →
          editDistance name c < editDistance name best
      then some c else nearest? name candidates := by
  unfold nearest?
  rw [List.argmin_concat]
  cases h : candidates.argmin (editDistance name) with
  | none =>
    by_cases hc : editDistance name c ≤ tolerance name.utf8ByteSize <;>
      simp [Option.filter_some, hc]
  | some best =>
    by_cases hlt : editDistance name c < editDistance name best
    · by_cases hc : editDistance name c ≤ tolerance name.utf8ByteSize
      · simp [Option.filter_some, hlt, hc]
      · have hbest : ¬ editDistance name best ≤ tolerance name.utf8ByteSize := by omega
        simp [Option.filter_some, hlt, hc, hbest]
    · by_cases hc : editDistance name best ≤ tolerance name.utf8ByteSize
      · simp [Option.filter_some, hlt, hc]
      · have hfar : ¬ editDistance name c ≤ tolerance name.utf8ByteSize := by omega
        simp [Option.filter_some, hlt, hc, hfar]

/-- Leaving candidates out changes the answer if and only if the answer is left out. -/
theorem nearest?_filter_eq_iff (p : String → Bool) :
    nearest? name (candidates.filter p) = nearest? name candidates ↔
      ∀ c, nearest? name candidates = some c → p c = true := by
  constructor
  · intro h c hc
    rw [hc, nearest?_eq_some_iff] at h
    obtain ⟨-, before, after, e, -⟩ := h
    have hmem : c ∈ candidates.filter p := e ▸ List.mem_append_right _ List.mem_cons_self
    exact (List.mem_filter.1 hmem).2
  · intro h
    cases hc : nearest? name candidates with
    | none =>
      rw [nearest?_eq_none_iff] at hc ⊢
      exact fun x hx ↦ hc x (List.mem_filter.1 hx).1
    | some c =>
      have hp := h c hc
      rw [nearest?_eq_some_iff] at hc ⊢
      obtain ⟨htolerance, before, after, rfl, hbefore, hafter⟩ := hc
      refine ⟨htolerance, before.filter p, after.filter p, ?_, ?_, ?_⟩
      · rw [List.filter_append, List.filter_cons_of_pos hp]
      · exact fun x hx ↦ hbefore x (List.mem_filter.1 hx).1
      · exact fun x hx ↦ hafter x (List.mem_filter.1 hx).1

/-! ## The search that passes candidates over -/

/-- The best candidate so far is the nearest one of those in reach, and it is kept
together with its distance. -/
theorem foldl_better (name : String) (candidates : List String) :
    candidates.foldl (better name) none =
      (nearest? name (candidates.filter (inReach name))).map fun c ↦ (c, editDistance name c) := by
  induction candidates using List.reverseRecOn with
  | nil => rfl
  | append_singleton candidates c ih =>
    rw [List.foldl_append, List.foldl_cons, List.foldl_nil, ih, better]
    by_cases hfar : tolerance name.utf8ByteSize < byteGap name c
    · have hreach : inReach name c = false := by simpa [inReach] using hfar
      simp [hfar, hreach]
    · have hreach : inReach name c = true := by simpa [inReach] using hfar
      rw [List.filter_append, List.filter_cons_of_pos hreach, List.filter_nil, nearest?_concat]
      cases nearest? name (candidates.filter (inReach name)) with
      | none => by_cases hc : editDistance name c ≤ tolerance name.utf8ByteSize <;> simp [hfar, hc]
      | some best =>
        by_cases hc : editDistance name c ≤ tolerance name.utf8ByteSize ∧
          editDistance name c < editDistance name best <;> simp [hfar, hc]

theorem closest?_eq_nearest?_filter (name : String) (candidates : List String) :
    closest? name candidates = nearest? name (candidates.filter (inReach name)) := by
  rw [closest?, foldl_better, Option.map_map]
  exact congrFun Option.map_id _

/-! ## One-byte characters -/

/-- Texts of one-byte characters are no further apart in length than in edits. -/
theorem byteGap_le_editDistance {a b : String} (ha : a.utf8ByteSize = a.length)
    (hb : b.utf8ByteSize = b.length) : byteGap a b ≤ editDistance a b := by
  have hedits := edits_fewestEdits a.toList b.toList
  have hle := hedits.length_le
  have hge := hedits.symm.length_le
  rw [← editDistance_eq_fewestEdits, String.length_toList, String.length_toList] at hle hge
  rw [byteGap, ha, hb]
  omega

/-- The search is the one that looks at every candidate, held among those that are near
enough in bytes.  So it comes to the same answer if and only if the nearest candidate,
should there be one within the tolerance, is near enough in bytes.  It always is if all
texts are of one-byte characters. -/
theorem closest?_eq_nearest?_iff (name : String) (candidates : List String) :
    closest? name candidates = nearest? name (candidates.filter (inReach name)) ∧
    (closest? name candidates = nearest? name candidates ↔
      ∀ c, nearest? name candidates = some c →
        byteGap name c ≤ tolerance name.utf8ByteSize) ∧
    (name.utf8ByteSize = name.length → (∀ c ∈ candidates, c.utf8ByteSize = c.length) →
      closest? name candidates = nearest? name candidates) := by
  have hagree : closest? name candidates = nearest? name candidates ↔
      ∀ c, nearest? name candidates = some c → byteGap name c ≤ tolerance name.utf8ByteSize := by
    rw [closest?_eq_nearest?_filter, nearest?_filter_eq_iff]
    simp only [inReach, decide_eq_true_eq]
  refine ⟨closest?_eq_nearest?_filter name candidates, hagree, fun hname hall ↦ ?_⟩
  rw [hagree]
  intro c hc
  obtain ⟨htolerance, before, after, rfl, -⟩ := nearest?_eq_some_iff.1 hc
  have hbytes := hall c (List.mem_append_right _ List.mem_cons_self)
  exact (byteGap_le_editDistance hname hbytes).trans htolerance

/-- A slip in a word of one-byte characters. -/
theorem closest?_eq_nearest?_slip :
    closest? "atack" ["move", "attack"] = some "attack" ∧
      closest? "atack" ["move", "attack"] = nearest? "atack" ["move", "attack"] :=
  ⟨by decide, (closest?_eq_nearest?_iff _ _).2.2 (by decide) (by decide)⟩

/-- One edit away, which is within the tolerance of two for a word of five bytes, and
passed over for being three bytes shorter. -/
theorem closest?_misses :
    editDistance "i😀" "if" = 1 ∧ tolerance "i😀".utf8ByteSize = 2 ∧ byteGap "i😀" "if" = 3 ∧
      nearest? "i😀" ["if"] = some "if" ∧ closest? "i😀" ["if"] = none := by
  decide

end Skirmish.Text
