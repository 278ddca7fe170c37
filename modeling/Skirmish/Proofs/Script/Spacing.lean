import Skirmish.Proofs.Script.Grammar

/-!
# How much blank there is does not matter

`normalize` leaves one space where there were blanks, inside calls as well as
between statements.  That this changes nothing is said of the grammar: two texts
are `Respaced` when they differ in the kind and number of blanks only, and then
they say the same.

Main statement: a text says what its normal form says (`isScript_normalize`).
-/

namespace Skirmish.Script

open Text

@[simp] theorem allBlank_nil : allBlank [] = true := rfl

@[simp] theorem allBlank_cons (c : Char) (w : List Char) :
    allBlank (c :: w) = (isBlank c && allBlank w) := rfl

@[simp] theorem allBlank_append (v w : List Char) :
    allBlank (v ++ w) = (allBlank v && allBlank w) := List.all_append

/-- Texts with the same characters, but for the kind and number of blanks in
places where both have some. -/
inductive Respaced : List Char → List Char → Prop
  | nil : Respaced [] []
  | char {c : Char} {s t : List Char} (hc : isBlank c = false) (h : Respaced s t) :
    Respaced (c :: s) (c :: t)
  | blanks {v w s t : List Char} (hv : allBlank v = true) (hvne : v ≠ []) (hw : allBlank w = true)
    (hwne : w ≠ []) (h : Respaced s t) : Respaced (v ++ s) (w ++ t)

namespace Respaced

theorem symm {s t : List Char} (h : Respaced s t) : Respaced t s := by
  induction h with
  | nil => exact nil
  | char hc _ ih => exact char hc ih
  | blanks hv hvne hw hwne _ ih => exact blanks hw hwne hv hvne ih

theorem refl (s : List Char) : Respaced s s := by
  induction s with
  | nil => exact nil
  | cons c s ih =>
    cases hc : isBlank c with
    | false => exact char hc ih
    | true =>
      exact blanks (v := [c]) (w := [c]) (by simp [hc]) (by simp) (by simp [hc]) (by simp) ih

theorem append {s t s' t' : List Char} (h : Respaced s t) (h' : Respaced s' t') :
    Respaced (s ++ s') (t ++ t') := by
  induction h with
  | nil => exact h'
  | char hc _ ih => exact char hc ih
  | blanks hv hvne hw hwne _ ih =>
    rw [List.append_assoc, List.append_assoc]
    exact blanks hv hvne hw hwne ih

theorem append_char {s t : List Char} {c : Char} (hc : isBlank c = false) {s' t' : List Char}
    (h : Respaced s t) (h' : Respaced s' t') : Respaced (s ++ c :: s') (t ++ c :: t') :=
  h.append (char hc h')

/-- Where a text has a character that is no blank, a respaced text has it too. -/
theorem exists_of_append_char {s s' t : List Char} {c : Char} (hc : isBlank c = false)
    (h : Respaced (s ++ c :: s') t) :
    ∃ r r', t = r ++ c :: r' ∧ Respaced s r ∧ Respaced s' r' := by
  generalize hx : s ++ c :: s' = x at h
  induction h generalizing s with
  | nil => simp at hx
  | @char d y t hd h ih =>
    cases s with
    | nil =>
      obtain ⟨rfl, rfl⟩ := List.cons.inj hx
      exact ⟨[], t, rfl, nil, h⟩
    | cons e s =>
      obtain ⟨rfl, hy⟩ := List.cons.inj hx
      obtain ⟨r, r', rfl, hr, hr'⟩ := ih hy
      exact ⟨e :: r, r', rfl, char hd hr, hr'⟩
  | @blanks v w y t hv hvne hw hwne h ih =>
    obtain ⟨s₀, rfl, hy⟩ : ∃ s₀, s = v ++ s₀ ∧ s₀ ++ c :: s' = y := by
      rcases List.append_eq_append_iff.1 hx with ⟨a, rfl, ha⟩ | ⟨a, ha, hy⟩
      · cases a with
        | nil => exact ⟨[], by simp, by simpa using ha⟩
        | cons d a =>
          obtain ⟨rfl, -⟩ := List.cons.inj ha
          simp [hc] at hv
      · exact ⟨a, ha, hy.symm⟩
    obtain ⟨r, r', rfl, hr, hr'⟩ := ih hy
    exact ⟨w ++ r, r', by simp, blanks hv hvne hw hwne hr, hr'⟩

/-- Before a character that is no blank, a respaced text can be cut. -/
theorem exists_of_append_cons {w t s : List Char} (ht : ∃ c r, t = c :: r ∧ isBlank c = false)
    (h : Respaced (w ++ t) s) : ∃ w' t', s = w' ++ t' ∧ Respaced w w' ∧ Respaced t t' := by
  obtain ⟨c, r, rfl, hc⟩ := ht
  obtain ⟨w', r', rfl, hw, hr⟩ := h.exists_of_append_char hc
  exact ⟨w', c :: r', rfl, hw, char hc hr⟩

/-- Behind a character that is no blank, a respaced text can be cut. -/
theorem exists_of_concat_append {t v s : List Char} (ht : ∃ r c, t = r ++ [c] ∧ isBlank c = false)
    (h : Respaced (t ++ v) s) : ∃ t' v', s = t' ++ v' ∧ Respaced t t' ∧ Respaced v v' := by
  obtain ⟨r, c, rfl, hc⟩ := ht
  rw [List.append_assoc] at h
  obtain ⟨r', v', rfl, hr, hv⟩ := h.exists_of_append_char hc
  exact ⟨r' ++ [c], v', by simp, hr.append_char hc nil, hv⟩

theorem eq_nil {t : List Char} (h : Respaced [] t) : t = [] := by
  generalize hx : ([] : List Char) = x at h
  cases h with
  | nil => rfl
  | char hc _ => contradiction
  | blanks hv hvne _ _ _ => exact absurd (List.append_eq_nil_iff.1 hx.symm).1 hvne

theorem ne_nil {s t : List Char} (h : Respaced s t) (hs : s ≠ []) : t ≠ [] := fun ht ↦
  hs (Respaced.eq_nil (ht ▸ h.symm))

theorem allBlank {s t : List Char} (h : Respaced s t) (hs : allBlank s = true) :
    Text.allBlank t = true := by
  induction h with
  | nil => rfl
  | char hc _ _ => simp [hc] at hs
  | blanks hv hvne hw hwne _ ih =>
    simp only [allBlank_append, Bool.and_eq_true] at hs ⊢
    exact ⟨hw, ih hs.2⟩

/-- A text without blanks cannot be respaced. -/
theorem eq_of_no_blank {s t : List Char} (h : Respaced s t) (hs : ∀ c ∈ s, isBlank c = false) :
    t = s := by
  induction h with
  | nil => rfl
  | char _ _ ih => rw [ih fun c hc ↦ hs c (List.mem_cons_of_mem _ hc)]
  | @blanks v _ _ _ hv hvne _ _ _ _ =>
    obtain ⟨c, v, rfl⟩ := List.exists_cons_of_ne_nil hvne
    simp [hs c (by simp)] at hv

/-- A blank more at the beginning, where both texts begin with blanks. -/
theorem cons_blank {c d : Char} {s t : List Char} (h : Respaced s (d :: t)) (hc : isBlank c = true)
    (hd : isBlank d = true) : Respaced (c :: s) (d :: t) := by
  generalize hx : d :: t = x at h
  cases h with
  | nil => contradiction
  | char he _ =>
    obtain ⟨rfl, -⟩ := List.cons.inj hx
    simp [hd] at he
  | @blanks v _ _ _ hv _ hw hwne h =>
    exact blanks (v := c :: v) (by simp [hc, hv]) (by simp) hw hwne h

end Respaced

/-! ## The grammar does not count blanks -/

theorem isBlank_of_mem_name {c : Command} {d : Char} (h : d ∈ c.name.toList) : isBlank d = false :=
  (isPlain_iff.1 (isPlain_of_mem_name h)).1

theorem isBlank_of_mem_shortIf {d : Char} (h : d ∈ shortIf.toList) : isBlank d = false :=
  (isPlain_iff.1 (isPlain_of_mem_shortIf h)).1

/-- In a call only what stands between the parentheses can be respaced. -/
theorem Respaced.exists_of_call {name t s : List Char} (hname : ∀ c ∈ name, isBlank c = false)
    (h : Respaced (name ++ '(' :: (t ++ [')'])) s) :
    ∃ r, s = name ++ '(' :: (r ++ [')']) ∧ Respaced t r := by
  obtain ⟨n, r, rfl, hn, hr⟩ := h.exists_of_append_char (by decide)
  obtain ⟨b, e, rfl, hb, he⟩ := hr.exists_of_append_char (by decide)
  rw [hn.eq_of_no_blank hname, he.eq_nil]
  exact ⟨b, rfl, hb⟩

mutual

theorem IsStatement.respaced {t s : List Char} {p : Phrase} :
    IsStatement t p → Respaced t s → IsStatement s p
  | .number hx hf, h => by
    rw [h.eq_of_no_blank fun c hc ↦ (isPlain_iff.1 (all_isPlain_of_float? hx c hc)).1]
    exact .number hx hf
  | .name hne ha hx, h => by
    rw [h.eq_of_no_blank fun c hc ↦ (isPlain_iff.1 (isPlain_of_isAlphanumeric (ha c hc))).1]
    exact .name hne ha hx
  | .call c ha hn, h => by
    obtain ⟨r, rfl, hr⟩ := h.exists_of_call fun d hd ↦ isBlank_of_mem_name hd
    exact .call c (ha.respaced hr) hn
  | .shortIf ha hn, h => by
    obtain ⟨r, rfl, hr⟩ := h.exists_of_call fun d hd ↦ isBlank_of_mem_shortIf hd
    exact .shortIf (ha.respaced hr) hn

theorem IsArguments.respaced {t s : List Char} {args : List (List Phrase)} :
    IsArguments t args → Respaced t s → IsArguments s args
  | .none, h => h.eq_nil ▸ .none
  | .some hr, h => .some (hr.respaced h)

theorem IsArgumentRow.respaced {t s : List Char} {args : List (List Phrase)} :
    IsArgumentRow t args → Respaced t s → IsArgumentRow s args
  | .last ht hne, h => .last (ht.respaced h) hne
  | .cons ht hne hr, h => by
    obtain ⟨r, r', rfl, h₁, h₂⟩ := h.exists_of_append_char (by decide)
    exact .cons (ht.respaced h₁) hne (hr.respaced h₂)

theorem IsScript.respaced {t s : List Char} {ps : List Phrase} :
    IsScript t ps → Respaced t s → IsScript s ps
  | .blank hw, h => .blank (h.allBlank hw)
  | @IsScript.statements _ t v _ hw ht hv, h => by
    have hbegin : ∃ c r, t ++ v = c :: r ∧ isBlank c = false := by
      obtain ⟨c, r, rfl, hc⟩ := ht.exists_cons
      exact ⟨c, r ++ v, rfl, hc⟩
    obtain ⟨w', s', rfl, hww, hs⟩ := h.exists_of_append_cons hbegin
    obtain ⟨t', v', rfl, htt, hvv⟩ := hs.exists_of_concat_append ht.exists_append
    exact .statements (hww.allBlank hw) (ht.respaced htt) (hvv.allBlank hv)

theorem IsStatementRow.respaced {t s : List Char} {ps : List Phrase} :
    IsStatementRow t ps → Respaced t s → IsStatementRow s ps
  | .last ht, h => .last (ht.respaced h)
  | .cons ht hv hne hr, h => by
    obtain ⟨t', s', rfl, htt, hs⟩ := h.exists_of_concat_append ht.exists_append
    obtain ⟨v', r', rfl, hvv, hrr⟩ := hs.exists_of_append_cons hr.exists_cons
    exact .cons (ht.respaced htt) (hvv.allBlank hv) (hvv.ne_nil hne) (hr.respaced hrr)

end

/-! ## Blanks around a script -/

theorem isScript_cons_iff {c : Char} (hc : isBlank c = true) {t : List Char} {ps : List Phrase} :
    IsScript (c :: t) ps ↔ IsScript t ps := by
  constructor
  · generalize hx : c :: t = x
    rintro (⟨hw⟩ | @⟨w, t', v, _, hw, ht, hv⟩)
    · subst hx
      exact .blank (by simpa [hc] using hw)
    · cases w with
      | nil =>
        obtain ⟨d, r, rfl, hd⟩ := ht.exists_cons
        obtain ⟨rfl, -⟩ := List.cons.inj hx
        rw [hc] at hd
        contradiction
      | cons d w =>
        obtain ⟨rfl, rfl⟩ := List.cons.inj hx
        exact .statements (by simpa [hc] using hw) ht hv
  · rintro (⟨hw⟩ | @⟨w, t', v, _, hw, ht, hv⟩)
    · exact .blank (by simp [hc, hw])
    · exact .statements (w := c :: w) (by simp [hc, hw]) ht hv

theorem isScript_concat_iff {c : Char} (hc : isBlank c = true) {t : List Char} {ps : List Phrase} :
    IsScript (t ++ [c]) ps ↔ IsScript t ps := by
  constructor
  · generalize hx : t ++ [c] = x
    rintro (⟨hw⟩ | @⟨w, t', v, _, hw, ht, hv⟩)
    · subst hx
      exact .blank (by simpa [hc] using hw)
    · rcases List.eq_nil_or_concat v with rfl | ⟨v, d, rfl⟩
      · obtain ⟨r, d, rfl, hd⟩ := ht.exists_append
        rw [List.append_nil, ← List.append_assoc] at hx
        obtain ⟨-, rfl⟩ := List.append_singleton_inj.1 hx
        rw [hc] at hd
        contradiction
      · rw [List.concat_eq_append, ← List.append_assoc, ← List.append_assoc] at hx
        obtain ⟨rfl, rfl⟩ := List.append_singleton_inj.1 hx
        rw [List.append_assoc]
        exact .statements hw ht (by simpa [hc] using hv)
  · rintro (⟨hw⟩ | @⟨w, t', v, _, hw, ht, hv⟩)
    · exact .blank (by simp [hc, hw])
    · rw [List.append_assoc, List.append_assoc]
      exact .statements hw ht (by simp [hc, hv])

/-- A script says the same with blanks around it. -/
theorem isScript_append_iff {w t v : List Char} {ps : List Phrase} (hw : allBlank w = true)
    (hv : allBlank v = true) : IsScript (w ++ (t ++ v)) ps ↔ IsScript t ps := by
  induction w with
  | nil =>
    induction v generalizing t with
    | nil => simp
    | cons c v ih =>
      simp only [allBlank_cons, Bool.and_eq_true] at hv
      have := ih (t := t ++ [c]) hv.2
      simp only [List.nil_append, List.append_assoc, List.cons_append] at this ⊢
      exact this.trans (isScript_concat_iff hv.1)
  | cons c w ih =>
    simp only [allBlank_cons, Bool.and_eq_true] at hw
    exact (isScript_cons_iff hw.1).trans (ih hw.2)

/-! ## The normal form -/

/-- One space in place of the blanks that a text begins with. -/
def leadingSpace : List Char → List Char
  | [] => []
  | c :: _ => if isBlank c then [' '] else []

theorem leadingSpace_cons (c : Char) (cs : List Char) :
    leadingSpace (c :: cs) = if isBlank c then [' '] else [] := rfl

theorem leadingSpace_eq (cs : List Char) : leadingSpace cs = [] ∨ leadingSpace cs = [' '] := by
  cases cs with
  | nil => exact .inl rfl
  | cons c cs =>
    rw [leadingSpace_cons]
    split
    · exact .inr rfl
    · exact .inl rfl

theorem allBlank_leadingSpace (cs : List Char) : allBlank (leadingSpace cs) = true := by
  rcases leadingSpace_eq cs with h | h
  · rw [h]; rfl
  · rw [h]; decide

theorem words_cons_of_isBlank {c : Char} (hc : isBlank c = true) (cs : List Char) :
    words (c :: cs) = words cs := by
  simp [words, List.splitOnP_cons_eq_if_modifyHead, hc]

theorem ne_nil_of_mem_words {w cs : List Char} (h : w ∈ words cs) : w ≠ [] := by
  have := (List.mem_filter.1 h).2
  simpa using this

theorem normalize_eq_nil_iff {cs : List Char} : Text.normalize cs = [] ↔ words cs = [] := by
  unfold Text.normalize
  constructor
  · intro h
    cases hw : words cs with
    | nil => rfl
    | cons w ws =>
      have hne := ne_nil_of_mem_words (hw ▸ List.mem_cons_self : w ∈ words cs)
      cases ws with
      | nil => simp_all
      | cons v vs => simp [hw, List.intercalate_cons_cons] at h
  · intro h
    rw [h]
    rfl

theorem normalize_cons_of_isBlank {c : Char} (hc : isBlank c = true) (cs : List Char) :
    Text.normalize (c :: cs) = Text.normalize cs := by
  rw [Text.normalize, words_cons_of_isBlank hc, Text.normalize]

/-- A character that is no blank stays, and behind it a space if there was a
blank and there are more words. -/
theorem normalize_cons {c : Char} (hc : isBlank c = false) (cs : List Char) :
    Text.normalize (c :: cs) =
      c :: if Text.normalize cs = [] then [] else leadingSpace cs ++ Text.normalize cs := by
  cases cs with
  | nil => simp [Text.normalize, words, List.splitOnP_cons_eq_if_modifyHead, hc]
  | cons d ds =>
    cases hd : isBlank d with
    | true =>
      have hwords : words (c :: d :: ds) = [c] :: words ds := by
        simp [words, List.splitOnP_cons_eq_if_modifyHead, hc, hd]
      rw [normalize_cons_of_isBlank hd, leadingSpace_cons, if_pos hd]
      simp only [normalize_eq_nil_iff]
      rw [Text.normalize, hwords, Text.normalize]
      cases hw : words ds with
      | nil => simp
      | cons w ws => simp [List.intercalate_cons_cons]
    | false =>
      obtain ⟨q, qs, hq⟩ := List.exists_cons_of_ne_nil (List.splitOnP_ne_nil isBlank ds)
      have hd' : words (d :: ds) = (d :: q) :: qs.filter (!·.isEmpty) := by
        simp [words, List.splitOnP_cons_eq_if_modifyHead, hd, hq]
      have hc' : words (c :: d :: ds) = (c :: d :: q) :: qs.filter (!·.isEmpty) := by
        simp [words, List.splitOnP_cons_eq_if_modifyHead, hc, hd, hq]
      rw [if_neg (by simp [normalize_eq_nil_iff, hd']), Text.normalize, hc', Text.normalize, hd']
      cases qs.filter (!·.isEmpty) with
      | nil => simp [leadingSpace, hd]
      | cons r rs => simp [List.intercalate_cons_cons, leadingSpace, hd]

/-- But for blanks at the end, the normal form is the text with other blanks. -/
theorem exists_respaced_normalize (text : List Char) :
    ∃ v, allBlank v = true ∧ Respaced text (leadingSpace text ++ (Text.normalize text ++ v)) := by
  induction text with
  | nil => exact ⟨[], rfl, .nil⟩
  | cons c cs ih =>
    obtain ⟨v, hv, h⟩ := ih
    cases hc : isBlank c with
    | true =>
      refine ⟨v, hv, ?_⟩
      rw [normalize_cons_of_isBlank hc, leadingSpace_cons, if_pos hc]
      rcases leadingSpace_eq cs with hl | hl
      · rw [hl] at h
        exact .blanks (v := [c]) (w := [' ']) (by simp [hc]) (by simp) (by decide) (by simp) h
      · rw [hl] at h
        exact h.cons_blank hc (by decide)
    | false =>
      rw [normalize_cons hc, leadingSpace_cons, if_neg (by simp [hc])]
      split
      next hn =>
        rw [hn, List.nil_append] at h
        exact ⟨leadingSpace cs ++ v, by simp [allBlank_leadingSpace, hv], .char hc h⟩
      next =>
        refine ⟨v, hv, ?_⟩
        simpa using Respaced.char hc h

/-- A text says what its normal form says. -/
theorem isScript_normalize {text : List Char} {ps : List Phrase} :
    IsScript (Text.normalize text) ps ↔ IsScript text ps := by
  obtain ⟨v, hv, h⟩ := exists_respaced_normalize text
  have htrim : IsScript (leadingSpace text ++ (Text.normalize text ++ v)) ps ↔
      IsScript (Text.normalize text) ps := isScript_append_iff (allBlank_leadingSpace text) hv
  exact ⟨fun hn ↦ (htrim.2 hn).respaced h.symm, fun ht ↦ htrim.1 (ht.respaced h)⟩

end Skirmish.Script
