import Skirmish.Proofs.Script.Grammar

/-!
# Parentheses in scripts

The functions that take a script apart count parentheses and know nothing else
about a script.  What they need to know of a text is that it is `Sealed`: its
parentheses match, and outside of them there are only characters of some class.
Such a text is passed over as a whole (`Sealed.cut_append`,
`Sealed.toClosing_append`).

Every text of the grammar is sealed: a statement shows neither blanks nor
commas, and a script no commas.
-/

namespace Skirmish.Script

open Text

/-- Texts whose parentheses match, with nothing but characters of a class
outside all parentheses. -/
inductive Sealed : (Char → Bool) → List Char → Prop
  | nil {shown : Char → Bool} : Sealed shown []
  | char {shown : Char → Bool} {c : Char} {s : List Char} (hc : shown c = true) (ho : c ≠ '(')
    (hcl : c ≠ ')') (h : Sealed shown s) : Sealed shown (c :: s)
  | group {shown : Char → Bool} {body s : List Char} (hb : Sealed (fun _ ↦ true) body)
    (h : Sealed shown s) : Sealed shown ('(' :: (body ++ ')' :: s))

namespace Sealed

variable {shown : Char → Bool} {s t : List Char}

theorem append (hs : Sealed shown s) (ht : Sealed shown t) : Sealed shown (s ++ t) := by
  induction hs with
  | nil => exact ht
  | char hc ho hcl _ ih => exact char hc ho hcl (ih ht)
  | group hb _ _ ih =>
    rw [List.cons_append, List.append_assoc, List.cons_append]
    exact group hb (ih ht)

theorem mono {more : Char → Bool} (h : ∀ c, shown c = true → more c = true)
    (hs : Sealed shown s) : Sealed more s := by
  induction hs with
  | nil => exact nil
  | char hc ho hcl _ ih => exact char (h _ hc) ho hcl (ih h)
  | group hb _ _ ih => exact group hb (ih h)

theorem balanced (hs : Sealed shown s) : Sealed (fun _ ↦ true) s := hs.mono fun _ _ ↦ rfl

theorem of_forall (h : ∀ c ∈ s, shown c = true ∧ c ≠ '(' ∧ c ≠ ')') : Sealed shown s := by
  induction s with
  | nil => exact nil
  | cons c s ih =>
    obtain ⟨⟨hc, ho, hcl⟩, hs⟩ := List.forall_mem_cons.1 h
    exact char hc ho hcl (ih hs)

/-! ### Passing over a sealed text -/

/-- No cut is made in a sealed text, if the separator is not shown or the text
stands in parentheses. -/
theorem cut_append {sep : Char} (hsep : sep ≠ '(') {d : Int} (hd : 0 ≤ d)
    (hshown : d = 0 → shown sep = false) (hs : Sealed shown s) (rest : List Char) :
    cut sep d (s ++ rest) = s.foldr extendHead (cut sep d rest) := by
  induction hs generalizing d rest with
  | nil => rfl
  | @char shown c s hc ho hcl _ ih =>
    have hcut : ¬(c = sep ∧ d = 0) := by
      rintro ⟨rfl, rfl⟩
      rw [hshown rfl] at hc
      contradiction
    have hstep : depthStep c = 0 := by simp [depthStep, ho, hcl]
    rw [List.cons_append, cut_cons, if_neg hcut, hstep, Int.add_zero, ih hd hshown]
    rfl
  | @group shown body s hb _ ihb ih =>
    have hopen : ¬('(' = sep ∧ d = 0) := fun h ↦ hsep h.1.symm
    have hclose : ¬(')' = sep ∧ d + 1 = 0) := by omega
    have hback : d + depthStep '(' + depthStep ')' = d := by
      show d + 1 + -1 = d
      omega
    have hin : d + depthStep '(' = d + 1 := rfl
    rw [List.cons_append, List.append_assoc, List.cons_append, cut_cons, if_neg hopen,
      ihb (by omega) (by omega), cut_cons, if_neg (hin ▸ hclose), hback, ih hd hshown]
    simp

/-- Looking for the closing parenthesis, a sealed text is passed over. -/
theorem toClosing_append (hs : Sealed shown s) (opened : Nat) (rest : List Char) :
    toClosing opened (s ++ rest) =
      (toClosing opened rest).map fun (inside, after) ↦ (s ++ inside, after) := by
  induction hs generalizing opened rest with
  | nil => simp
  | char _ ho hcl _ ih => simp [toClosing, ho, hcl, ih, Function.comp_def]
  | group _ _ ihb ih =>
    rw [List.cons_append, List.append_assoc, List.cons_append]
    simp [toClosing, ihb, ih, Function.comp_def]

end Sealed

/-- Put in front of pieces, a text becomes part of the first one. -/
theorem foldr_extendHead_cons (s p : List Char) (ps : List (List Char)) :
    s.foldr extendHead (p :: ps) = (s ++ p) :: ps := by
  induction s with
  | nil => rfl
  | cons c s ih => rw [List.foldr_cons, ih]; rfl

/-! ## The texts of the grammar -/

/-- What a statement shows outside parentheses. -/
def isInStatement (c : Char) : Bool := !isBlank c && c != ','

/-- What a script shows outside parentheses. -/
def isInScript (c : Char) : Bool := c != ','

theorem Sealed.of_isPlain {t : List Char} (h : ∀ c ∈ t, isPlain c = true) :
    Sealed isInStatement t := by
  refine Sealed.of_forall fun c hc ↦ ?_
  obtain ⟨hb, ho, hcl, hcomma⟩ := isPlain_iff.1 (h c hc)
  exact ⟨by simp [isInStatement, hb, hcomma], ho, hcl⟩

theorem Sealed.of_allBlank {w : List Char} (h : allBlank w = true) : Sealed isInScript w := by
  refine Sealed.of_forall fun c hc ↦ ?_
  have hb : isBlank c = true := List.all_eq_true.1 h c hc
  refine ⟨?_, ?_, ?_⟩
  · by_cases hcomma : c = ','
    · subst hcomma
      contradiction
    · simp [isInScript, hcomma]
  · rintro rfl
    contradiction
  · rintro rfl
    contradiction

theorem isInScript_of_isInStatement {c : Char} (h : isInStatement c = true) :
    isInScript c = true := by
  simp only [isInStatement, Bool.and_eq_true] at h
  exact h.2

mutual

theorem IsStatement.isSealed {t : List Char} {p : Phrase} :
    IsStatement t p → Sealed isInStatement t
  | .number hx _ => .of_isPlain (all_isPlain_of_float? hx)
  | .name _ ha _ => .of_isPlain fun c hc ↦ isPlain_of_isAlphanumeric (ha c hc)
  | .call _ h _ =>
    (Sealed.of_isPlain fun _ hd ↦ isPlain_of_mem_name hd).append (.group h.balanced .nil)
  | .shortIf h _ =>
    (Sealed.of_isPlain fun _ hd ↦ isPlain_of_mem_shortIf hd).append (.group h.balanced .nil)

theorem IsArguments.balanced {t : List Char} {args : List (List Phrase)} :
    IsArguments t args → Sealed (fun _ ↦ true) t
  | .none => .nil
  | .some h => h.balanced

theorem IsArgumentRow.balanced {t : List Char} {args : List (List Phrase)} :
    IsArgumentRow t args → Sealed (fun _ ↦ true) t
  | .last h _ => h.isSealed.balanced
  | .cons h _ hr => h.isSealed.balanced.append (.char rfl (by decide) (by decide) hr.balanced)

theorem IsScript.isSealed {t : List Char} {ps : List Phrase} : IsScript t ps → Sealed isInScript t
  | .blank hw => .of_allBlank hw
  | .statements hw h hv => (Sealed.of_allBlank hw).append (h.isSealed.append (.of_allBlank hv))

theorem IsStatementRow.isSealed {t : List Char} {ps : List Phrase} :
    IsStatementRow t ps → Sealed isInScript t
  | .last h => h.isSealed.mono fun _ ↦ isInScript_of_isInStatement
  | .cons h hv _ hr =>
    (h.isSealed.mono fun _ ↦ isInScript_of_isInStatement).append
      ((Sealed.of_allBlank hv).append hr.isSealed)

end

end Skirmish.Script
