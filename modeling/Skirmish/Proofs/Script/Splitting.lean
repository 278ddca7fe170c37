import Skirmish.Proofs.Script.Concatenation

/-!
# Where texts are cut

What `cut` finds is told by the text alone: joined by the separator, the pieces are
the text again; each of them but the last leads back to depth 0; and no separator
stands at depth 0 inside a piece.  No other list of pieces is like that, however
the parentheses of the text are placed (`cut_eq_iff`).

Statements are found in the normal form of a text.  It has no blanks where a piece
could come out empty, so nothing has to be left out.

Main statement: what the statements of a text are, and what its normal form is
(`statements_lose_nothing`).
-/

namespace Skirmish.Script

open Text

/-! ## Pieces -/

/-- No separator stands at depth 0 in a piece that begins at depth `d`. -/
def Unbroken (sep : Char) (d : Int) (p : List Char) : Prop :=
  ∀ q r, p = q ++ sep :: r → d + depth q ≠ 0

theorem unbroken_nil (sep : Char) (d : Int) : Unbroken sep d [] := by
  rintro q r h
  simp at h

theorem unbroken_cons_iff {sep c : Char} {d : Int} {p : List Char} :
    Unbroken sep d (c :: p) ↔ ¬(c = sep ∧ d = 0) ∧ Unbroken sep (d + depthStep c) p := by
  constructor
  · intro h
    refine ⟨?_, ?_⟩
    · rintro ⟨rfl, rfl⟩
      exact h [] p rfl rfl
    · rintro q r rfl
      have := h (c :: q) r rfl
      rwa [depth_cons, ← Int.add_assoc] at this
  · rintro ⟨hc, h⟩ q r hp
    cases q with
    | nil =>
      obtain ⟨rfl, rfl⟩ := List.cons.inj hp
      rw [depth_nil, Int.add_zero]
      exact fun hd ↦ hc ⟨rfl, hd⟩
    | cons e q =>
      obtain ⟨rfl, rfl⟩ := List.cons.inj hp
      rw [depth_cons, ← Int.add_assoc]
      exact h q r rfl

/-- An unbroken piece is not cut. -/
theorem Unbroken.cut_eq {sep : Char} {d : Int} {p : List Char} (h : Unbroken sep d p) :
    cut sep d p = [p] := by
  induction p generalizing d with
  | nil => rfl
  | cons c p ih =>
    obtain ⟨hc, hp⟩ := unbroken_cons_iff.1 h
    rw [cut_cons, if_neg hc, ih hp]
    rfl

/-- Pieces of a text that begins at depth `d`: all of them are unbroken, and all but
the last lead back to depth 0. -/
inductive CutsAt (sep : Char) : Int → List (List Char) → Prop
  | last {d : Int} {p : List Char} (h : Unbroken sep d p) : CutsAt sep d [p]
  | cons {d : Int} {p : List Char} {ps : List (List Char)} (h : Unbroken sep d p)
    (hd : d + depth p = 0) (hr : CutsAt sep 0 ps) : CutsAt sep d (p :: ps)

namespace CutsAt

variable {sep : Char} {d : Int} {ps : List (List Char)}

theorem ne_nil (h : CutsAt sep d ps) : ps ≠ [] := by cases h <;> simp

theorem extendHead {c : Char} (hc : ¬(c = sep ∧ d = 0)) (h : CutsAt sep (d + depthStep c) ps) :
    CutsAt sep d (extendHead c ps) := by
  cases h with
  | last h => exact last (unbroken_cons_iff.2 ⟨hc, h⟩)
  | cons h hd hr =>
    refine cons (unbroken_cons_iff.2 ⟨hc, h⟩) ?_ hr
    rwa [depth_cons, ← Int.add_assoc]

/-- What is cut off is unbroken and leads back to depth 0. -/
theorem of_cut (sep : Char) (d : Int) (text : List Char) : CutsAt sep d (cut sep d text) := by
  induction text generalizing d with
  | nil => exact last (unbroken_nil sep d)
  | cons c text ih =>
    rw [cut_cons]
    split
    next h =>
      obtain ⟨-, rfl⟩ := h
      exact cons (unbroken_nil sep 0) rfl (ih 0)
    next h => exact (ih (d + depthStep c)).extendHead h

/-- Pieces that are put together with separators are found again. -/
theorem cut_intercalate (hsep : depthStep sep = 0) (h : CutsAt sep d ps) :
    cut sep d ([sep].intercalate ps) = ps := by
  induction h with
  | last h => rw [List.intercalate_singleton, h.cut_eq]
  | @cons d p ps h hd hr ih =>
    obtain ⟨q, qs, rfl⟩ := List.exists_cons_of_ne_nil hr.ne_nil
    rw [List.intercalate_cons_cons, List.append_assoc, List.singleton_append,
      cut_append_cons hsep hd, h.cut_eq, ih, List.singleton_append]

/-- From depth 0 on, all pieces begin at the same depth. -/
theorem zero_iff : CutsAt sep 0 ps ↔
    ps ≠ [] ∧ (∀ p ∈ ps.dropLast, depth p = 0) ∧ ∀ p ∈ ps, Unbroken sep 0 p := by
  induction ps with
  | nil => exact iff_of_false (fun h ↦ h.ne_nil rfl) fun h ↦ h.1 rfl
  | cons p ps ih =>
    cases ps with
    | nil =>
      constructor
      · rintro (h | ⟨-, -, hr⟩)
        · simpa using h
        · exact absurd rfl hr.ne_nil
      · rintro ⟨-, -, h⟩
        exact last (h p (by simp))
    | cons q qs =>
      rw [List.dropLast_cons_cons, List.forall_mem_cons, List.forall_mem_cons]
      constructor
      · rintro (- | ⟨h, hd, hr⟩)
        obtain ⟨-, hdepth, hall⟩ := ih.1 hr
        exact ⟨by simp, ⟨by rwa [Int.zero_add] at hd, hdepth⟩, h, hall⟩
      · rintro ⟨-, ⟨hd, hdepth⟩, h, hall⟩
        exact cons h (by rwa [Int.zero_add]) (ih.2 ⟨by simp, hdepth, hall⟩)

end CutsAt

/-- The pieces of a text are the only ones of their kind. -/
theorem cut_eq_iff {sep : Char} (hsep : depthStep sep = 0) {d : Int} {text : List Char}
    {ps : List (List Char)} :
    cut sep d text = ps ↔ [sep].intercalate ps = text ∧ CutsAt sep d ps := by
  constructor
  · rintro rfl
    exact ⟨intercalate_cut sep d text, .of_cut sep d text⟩
  · rintro ⟨rfl, h⟩
    exact h.cut_intercalate hsep

theorem cut_zero_eq_iff {sep : Char} (hsep : depthStep sep = 0) {text : List Char}
    {ps : List (List Char)} (ht : text ≠ []) : cut sep 0 text = ps ↔
      [sep].intercalate ps = text ∧ (∀ p ∈ ps.dropLast, depth p = 0) ∧
        ∀ p ∈ ps, Unbroken sep 0 p := by
  rw [cut_eq_iff hsep, CutsAt.zero_iff]
  refine and_congr_right fun hjoin ↦ and_iff_right ?_
  rintro rfl
  exact ht hjoin.symm

theorem depth_eq_zero_iff {p : List Char} : depth p = 0 ↔ p.count '(' = p.count ')' := by
  rw [depth_eq_count_sub_count]
  omega

theorem unbroken_zero_iff {sep : Char} {p : List Char} :
    Unbroken sep 0 p ↔ ∀ q r, p = q ++ sep :: r → q.count '(' ≠ q.count ')' := by
  simp only [Unbroken, Int.zero_add, ne_eq, depth_eq_zero_iff]

/-! ## The normal form -/

/-- Words with one space between neighbours, and no other blank. -/
structure IsNormal (text : List Char) : Prop where
  /-- The only blanks are spaces. -/
  blank : ∀ c ∈ text, isBlank c = true → c = ' '
  /-- There are none at the beginning. -/
  head : ∀ c, text.head? = some c → isBlank c = false
  /-- There are none at the end. -/
  last : ∀ c, text.getLast? = some c → isBlank c = false
  /-- There are no two in a row. -/
  single : ¬[' ', ' '] <:+: text

/-- The normal form of a text is built from its end: in front there is put a
character that is no blank, with a space behind it only if there is something behind
the space. -/
theorem normalize_induction {P : List Char → Prop} (nil : P [])
    (cons : ∀ c s t, isBlank c = false → s = [] ∨ s = [' '] ∧ t ≠ [] → P t → P (c :: (s ++ t)))
    (text : List Char) : P (Text.normalize text) := by
  induction text with
  | nil => exact nil
  | cons c text ih =>
    cases hc : isBlank c with
    | true => rwa [normalize_cons_of_isBlank hc]
    | false =>
      rw [normalize_cons hc]
      split
      next h => exact cons c [] [] hc (.inl rfl) nil
      next h =>
        refine cons c _ _ hc ?_ ih
        exact (leadingSpace_eq text).imp_right fun hs ↦ ⟨hs, h⟩

namespace IsNormal

theorem nil : IsNormal [] := ⟨nofun, nofun, nofun, by decide⟩

theorem cons {c : Char} {s t : List Char} (hc : isBlank c = false)
    (hs : s = [] ∨ s = [' '] ∧ t ≠ []) (h : IsNormal t) : IsNormal (c :: (s ++ t)) where
  blank := by
    refine List.forall_mem_cons.2 ⟨fun hb ↦ absurd hb (by simp [hc]), fun d hd hb ↦ ?_⟩
    rcases List.mem_append.1 hd with hd | hd
    · rcases hs with rfl | ⟨rfl, -⟩
      · cases hd
      · exact List.mem_singleton.1 hd
    · exact h.blank d hd hb
  head := by
    rintro _ ⟨⟩
    exact hc
  last := by
    rcases hs with rfl | ⟨rfl, ht⟩
    · rw [List.nil_append]
      cases t with
      | nil =>
        rintro _ ⟨⟩
        exact hc
      | cons d t => exact h.last
    · obtain ⟨d, t, rfl⟩ := List.exists_cons_of_ne_nil ht
      exact h.last
  single := by
    have hne : ' ' ≠ c := by
      rintro rfl
      exact absurd hc (by decide)
    have hbegin : ∀ r, t ≠ ' ' :: r := by
      rintro r rfl
      exact absurd (h.head ' ' rfl) (by decide)
    have hspace : ¬[' ', ' '] <:+: s ++ t := by
      rcases hs with rfl | ⟨rfl, -⟩
      · exact h.single
      · rw [List.singleton_append, List.infix_cons_iff, List.cons_prefix_cons]
        rintro (⟨-, r, hr⟩ | hi)
        · exact hbegin r hr.symm
        · exact h.single hi
    rw [List.infix_cons_iff, List.cons_prefix_cons]
    rintro (⟨hc', -⟩ | hi)
    · exact hne hc'
    · exact hspace hi

/-- The normal form of a text in normal form is the text. -/
theorem normalize_cons_eq {c : Char} {s t : List Char} (hc : isBlank c = false)
    (hs : s = [] ∨ s = [' '] ∧ t ≠ []) (h : IsNormal t) (ht : Text.normalize t = t) :
    Text.normalize (c :: (s ++ t)) = c :: (s ++ t) := by
  rw [normalize_cons hc]
  rcases hs with rfl | ⟨rfl, hne⟩
  · cases t with
    | nil => rfl
    | cons d t =>
      rw [List.nil_append, ht, if_neg (List.cons_ne_nil d t), leadingSpace_cons,
        if_neg (by simp [h.head d rfl]), List.nil_append]
  · rw [List.singleton_append, normalize_cons_of_isBlank (by decide), ht, if_neg hne]
    rfl

end IsNormal

theorem isNormal_normalize (text : List Char) : IsNormal (Text.normalize text) :=
  normalize_induction .nil (fun _ _ _ ↦ .cons) text

theorem normalize_normalize (text : List Char) :
    Text.normalize (Text.normalize text) = Text.normalize text := by
  have hboth : IsNormal (Text.normalize text) ∧
      Text.normalize (Text.normalize text) = Text.normalize text := by
    refine normalize_induction (P := fun t ↦ IsNormal t ∧ Text.normalize t = t) ⟨.nil, rfl⟩ ?_ text
    rintro c s t hc hs ⟨h, ht⟩
    exact ⟨h.cons hc hs, h.normalize_cons_eq hc hs ht⟩
  exact hboth.2

/-- Characters that are no blanks stay, in their order. -/
theorem filter_normalize (text : List Char) :
    (Text.normalize text).filter (!isBlank ·) = text.filter (!isBlank ·) := by
  induction text with
  | nil => rfl
  | cons c text ih =>
    cases hc : isBlank c with
    | true => rw [normalize_cons_of_isBlank hc, ih, List.filter_cons_of_neg (by simp [hc])]
    | false =>
      have hspace : (leadingSpace text).filter (!isBlank ·) = [] := by
        rcases leadingSpace_eq text with h | h <;> rw [h] <;> rfl
      rw [normalize_cons hc, List.filter_cons_of_pos (by simp [hc]),
        List.filter_cons_of_pos (by simp [hc]), ← ih]
      split
      next h => rw [h]
      next => rw [List.filter_append, hspace, List.nil_append]

/-! ## Statements -/

theorem nil_notMem_extendHead_iff {c : Char} {ps : List (List Char)} :
    [] ∉ extendHead c ps ↔ [] ∉ ps.tail := by
  cases ps <;> simp [extendHead]

theorem tail_extendHead (c : Char) (ps : List (List Char)) : (extendHead c ps).tail = ps.tail := by
  cases ps <;> rfl

/-- No piece of a text in normal form is empty. -/
theorem nil_notMem_cut_normalize {text : List Char} (h : Text.normalize text ≠ []) (d : Int) :
    [] ∉ cut ' ' d (Text.normalize text) := by
  refine normalize_induction (P := fun t ↦ t ≠ [] → ∀ d, [] ∉ cut ' ' d t) (absurd rfl) ?_ text h d
  intro c s t hc hs ih _ d
  have hspace : ¬(c = ' ' ∧ d = 0) := by
    rintro ⟨rfl, -⟩
    exact absurd hc (by decide)
  rw [cut_cons, if_neg hspace, nil_notMem_extendHead_iff]
  rcases hs with rfl | ⟨rfl, ht⟩
  · cases t with
    | nil => simp
    | cons e t => exact fun hm ↦ ih (List.cons_ne_nil e t) _ (List.mem_of_mem_tail hm)
  · rw [List.singleton_append, cut_cons]
    split
    · exact ih ht _
    · rw [tail_extendHead]
      exact fun hm ↦ ih ht _ (List.mem_of_mem_tail hm)

theorem statements_eq_cut {text : List Char} (h : Text.normalize text ≠ []) :
    statements text = cut ' ' 0 (Text.normalize text) := by
  refine List.filter_eq_self.2 fun p hp ↦ ?_
  have : p ≠ [] := fun hn ↦ nil_notMem_cut_normalize h 0 (hn ▸ hp)
  simpa using this

theorem eq_nil_of_intercalate {sep : Char} {items : List (List Char)} (hne : ∀ p ∈ items, p ≠ [])
    (h : [sep].intercalate items = []) : items = [] := by
  cases items with
  | nil => rfl
  | cons p ps =>
    have hp := hne p List.mem_cons_self
    cases ps with
    | nil => exact absurd (by simpa using h) hp
    | cons q qs => simp [List.intercalate_cons_cons] at h

/-- Statements are the pieces of the normal form; only where this is empty, there are
no statements. -/
theorem statements_eq_iff {text : List Char} {items : List (List Char)} :
    items = statements text ↔
      (∀ p ∈ items, p ≠ []) ∧ [' '].intercalate items = Text.normalize text ∧
        (∀ p ∈ items.dropLast, depth p = 0) ∧ ∀ p ∈ items, Unbroken ' ' 0 p := by
  by_cases hn : Text.normalize text = []
  · have hnone : statements text = [] := by rw [statements_eq_tokens, hn]; rfl
    rw [hnone, hn]
    constructor
    · rintro rfl
      exact ⟨nofun, rfl, nofun, nofun⟩
    · rintro ⟨hne, hjoin, -, -⟩
      exact eq_nil_of_intercalate hne hjoin
  · rw [statements_eq_cut hn, eq_comm, ← cut_zero_eq_iff rfl hn]
    refine ⟨fun h ↦ ⟨?_, h⟩, fun h ↦ h.2⟩
    rintro p hp rfl
    exact nil_notMem_cut_normalize hn 0 (h ▸ hp)

/-- The statements of a text are the only list of texts such that

* none of them is empty, and joined by single spaces they are the normal form of
  the text;
* each but the last has as many opening as closing parentheses;
* no space in any of them has as many opening as closing parentheses before it.

The normal form has all characters of the text that are no blanks, in their order,
single spaces between them and no other blanks, and is its own normal form. -/
theorem statements_lose_nothing (text : List Char) :
    (∀ items, items = statements text ↔
      (∀ p ∈ items, p ≠ []) ∧ [' '].intercalate items = Text.normalize text ∧
      (∀ p ∈ items.dropLast, p.count '(' = p.count ')') ∧
      ∀ p ∈ items, ∀ q r, p = q ++ ' ' :: r → q.count '(' ≠ q.count ')') ∧
    Text.normalize (Text.normalize text) = Text.normalize text ∧
    (Text.normalize text).filter (!isBlank ·) = text.filter (!isBlank ·) ∧
    IsNormal (Text.normalize text) := by
  refine ⟨fun items ↦ ?_, normalize_normalize text, filter_normalize text, isNormal_normalize text⟩
  simp only [statements_eq_iff, depth_eq_zero_iff, unbroken_zero_iff]

/-- The first statement goes below depth 0 and comes back; the last one is left open. -/
example : statements "b) a( \n c d(e f".toList = ["b) a(".toList, "c".toList, "d(e f".toList] := by
  decide

end Skirmish.Script
