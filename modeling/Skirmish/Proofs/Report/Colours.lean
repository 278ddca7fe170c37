import Skirmish.Report.Terminal

/-!
# Colours and plain text

`withoutEscapes` deletes the escape sequences of colours from a text, from left to right,
and leaves everything else where it is.  What is written with colours is what is written
without them once that is done.

Whether a sequence ends, and where, depends on what comes after it, so deleting does not
go through two texts that follow each other one by one: `"\x1b[1"` has no sequence in it and
neither has `"m"`, but both together are one.  `IsColouring` therefore looks at a text with
all that may follow.  Texts without escape characters are colourings of themselves, painted
ones of what is painted, and texts that follow each other of texts that do
(`IsColouring.append`); the rest goes along the parts of the output.

Main statement: `withoutEscapes_renderAll_append_summary`.
-/

namespace Skirmish.Report

/-! ## Escape sequences -/

/-- The character that escape sequences begin with. -/
def escapeChar : Char := '\x1b'

/-- What may stand between the bracket and the final letter. -/
def isParameter (c : Char) : Bool := c.isDigit || c == ';'

/-- What follows the escape sequence that a text begins with. -/
def afterEscape? : List Char → Option (List Char)
  | '\x1b' :: '[' :: cs =>
    match cs.dropWhile isParameter with
    | 'm' :: rest => some rest
    | _ => none
  | _ => none

theorem length_lt_of_afterEscape?_eq_some {cs rest : List Char}
    (h : afterEscape? cs = some rest) : rest.length < cs.length := by
  unfold afterEscape? at h
  split at h
  next cs =>
    split at h
    next tail hdrop =>
      cases h
      have hle : (cs.dropWhile isParameter).length ≤ cs.length :=
        (List.dropWhile_sublist _).length_le
      rw [hdrop, List.length_cons] at hle
      rw [List.length_cons, List.length_cons]
      omega
    next => cases h
  next => cases h

/-- A text with all its escape sequences deleted. -/
def withoutEscapes (cs : List Char) : List Char :=
  match h : afterEscape? cs with
  | some rest =>
    have := length_lt_of_afterEscape?_eq_some h
    withoutEscapes rest
  | none =>
    match cs with
    | [] => []
    | c :: cs => c :: withoutEscapes cs
termination_by cs.length

theorem withoutEscapes_nil : withoutEscapes [] = [] := by
  rw [withoutEscapes]
  rfl

theorem withoutEscapes_of_afterEscape?_eq_some {cs rest : List Char}
    (h : afterEscape? cs = some rest) : withoutEscapes cs = withoutEscapes rest := by
  rw [withoutEscapes]
  split
  next tail htail =>
    cases h.symm.trans htail
    rfl
  next hnone => cases h.symm.trans hnone

theorem withoutEscapes_cons_of_ne {c : Char} (h : c ≠ escapeChar) (cs : List Char) :
    withoutEscapes (c :: cs) = c :: withoutEscapes cs := by
  have hnone : afterEscape? (c :: cs) = none := by
    unfold afterEscape?
    split
    next heq =>
      cases heq
      exact absurd rfl h
    next => rfl
  rw [withoutEscapes]
  split
  next tail htail => cases hnone.symm.trans htail
  next => rfl

/-! ## Texts without escape characters -/

/-- No escape character stands in the text. -/
def EscapeFree (text : String) : Prop := escapeChar ∉ text.toList

instance (text : String) : Decidable (EscapeFree text) :=
  inferInstanceAs (Decidable (escapeChar ∉ text.toList))

theorem EscapeFree.append {s t : String} (hs : EscapeFree s) (ht : EscapeFree t) :
    EscapeFree (s ++ t) := by
  unfold EscapeFree
  rw [String.toList_append, List.mem_append]
  exact not_or.2 ⟨hs, ht⟩

theorem escapeFree_toString (n : Nat) : EscapeFree (toString n) := by
  intro h
  have hdigits : escapeChar ∈ Nat.toDigits 10 n := by
    rw [← Nat.toList_repr]
    exact h
  exact Bool.false_ne_true (Nat.isDigit_of_mem_toDigits (by decide) (by decide) hdigits)

theorem escapeFree_code (code : Code) : EscapeFree code.text := by
  cases code <;> decide

theorem escapeFree_severity (severity : Severity) : EscapeFree severity.text := by
  cases severity <;> decide

/-- None of the texts of a diagnostic has an escape character in it. -/
structure Diagnostic.EscapeFree (d : Diagnostic) : Prop where
  message : Report.EscapeFree d.message
  origin : ∀ o ∈ d.origin, Report.EscapeFree o
  notes : ∀ n ∈ d.notes, Report.EscapeFree n
  suggestions : ∀ s ∈ d.suggestions, Report.EscapeFree s

/-! ## Colourings -/

/-- Deleting the escape sequences of the first text leaves the second, whatever follows. -/
def IsColouring (coloured plain : String) : Prop :=
  ∀ rest, withoutEscapes (coloured.toList ++ rest) = plain.toList ++ withoutEscapes rest

namespace IsColouring

variable {coloured plain coloured' plain' : String}

theorem withoutEscapes_eq (h : IsColouring coloured plain) :
    withoutEscapes coloured.toList = plain.toList := by
  have hnil := h []
  rwa [List.append_nil, withoutEscapes_nil, List.append_nil] at hnil

theorem append (h : IsColouring coloured plain) (h' : IsColouring coloured' plain') :
    IsColouring (coloured ++ coloured') (plain ++ plain') := by
  intro rest
  rw [String.toList_append, String.toList_append, List.append_assoc, List.append_assoc, h, h']

theorem of_escapeFree {text : String} (h : EscapeFree text) : IsColouring text text := by
  intro rest
  unfold EscapeFree at h
  generalize text.toList = cs at h
  induction cs with
  | nil => rfl
  | cons c cs ih =>
    rw [List.mem_cons, not_or] at h
    obtain ⟨hc, hcs⟩ := h
    rw [List.cons_append, withoutEscapes_cons_of_ne (Ne.symm hc), ih hcs, List.cons_append]

/-- The sequence that switches to a look is deleted. -/
theorem escape {parameters : String} (h : ∀ c ∈ parameters.toList, isParameter c) :
    IsColouring (Style.escape parameters) "" := by
  intro rest
  have htext : (Style.escape parameters).toList ++ rest =
      '\x1b' :: '[' :: (parameters.toList ++ 'm' :: rest) := by
    change ("\x1b[" ++ parameters ++ "m").toList ++ rest = _
    simp
  have hdrop : (parameters.toList ++ 'm' :: rest).dropWhile isParameter = 'm' :: rest := by
    rw [List.dropWhile_append_of_pos h]
    rfl
  refine withoutEscapes_of_afterEscape?_eq_some ?_
  rw [htext, afterEscape?, hdrop]
  rfl

theorem paint (style : Style) {text : String} (h : EscapeFree text) :
    IsColouring (style.paint true text) (style.paint false text) := by
  have hstyle : ∀ c ∈ style.parameters.toList, isParameter c := by
    cases style <;> simp [Style.parameters, isParameter]
  have hreset : ∀ c ∈ "0".toList, isParameter c := by simp [isParameter]
  have h' := ((escape hstyle).append (of_escapeFree h)).append (escape hreset)
  rwa [String.empty_append, String.append_empty] at h'

theorem join {α : Type} {f g : α → String} {xs : List α} (h : ∀ x ∈ xs, IsColouring (f x) (g x)) :
    IsColouring (String.join (xs.map f)) (String.join (xs.map g)) := by
  induction xs with
  | nil => exact of_escapeFree (by simp [EscapeFree])
  | cons x xs ih =>
    obtain ⟨hx, hxs⟩ := List.forall_mem_cons.1 h
    rw [List.map_cons, List.map_cons, String.join_cons, String.join_cons]
    exact hx.append (ih hxs)

end IsColouring

/-! ## The output -/

namespace Terminal

open IsColouring

theorem isColouring_colon : IsColouring ": " ": " := of_escapeFree (by decide)

theorem isColouring_newline : IsColouring "\n" "\n" := of_escapeFree (by decide)

/-- A note or a suggestion with its label. -/
theorem isColouring_remark (style : Style) (label text : String) (hlabel : EscapeFree label)
    (htext : EscapeFree text) :
    IsColouring ("  = " ++ style.paint true label ++ ": " ++ text ++ "\n")
      ("  = " ++ style.paint false label ++ ": " ++ text ++ "\n") := by
  have hbullet : IsColouring "  = " "  = " := of_escapeFree (by decide)
  have hlabelled := (hbullet.append (paint style hlabel)).append isColouring_colon
  exact (hlabelled.append (of_escapeFree htext)).append isColouring_newline

theorem isColouring_render {d : Diagnostic} (h : d.EscapeFree) :
    IsColouring (render true d) (render false d) := by
  have hcode : EscapeFree ("[" ++ d.code.text ++ "]") :=
    (EscapeFree.append (by decide) (escapeFree_code d.code)).append (by decide)
  have hlabels := (paint d.severity.style (escapeFree_severity d.severity)).append
    (paint .bold hcode)
  have hhead := ((hlabels.append isColouring_colon).append (of_escapeFree h.message)).append
    isColouring_newline
  have hplace : IsColouring
      (d.origin.elim "" fun o ↦ "  --> " ++ Style.origin.paint true o ++ "\n")
      (d.origin.elim "" fun o ↦ "  --> " ++ Style.origin.paint false o ++ "\n") := by
    cases ho : d.origin with
    | none => exact of_escapeFree (by decide)
    | some o =>
      have harrow : IsColouring "  --> " "  --> " := of_escapeFree (by decide)
      exact (harrow.append (paint .origin (h.origin o ho))).append isColouring_newline
  have hnotes := join fun n hn ↦
    isColouring_remark .bold "note" n (by decide) (h.notes n hn)
  have hsuggestions := join fun s hs ↦
    isColouring_remark .help "help" s (by decide) (h.suggestions s hs)
  exact (((hhead.append hplace).append hnotes).append hsuggestions).append isColouring_newline

theorem isColouring_renderAll {ds : List Diagnostic} (h : ∀ d ∈ ds, d.EscapeFree) :
    IsColouring (renderAll true ds) (renderAll false ds) :=
  join fun d hd ↦ isColouring_render (h d hd)

theorem isColouring_summary (errors warnings : Nat) :
    IsColouring (summary true errors warnings) (summary false errors warnings) := by
  have hplural : EscapeFree (pluralEnding warnings) := by
    unfold pluralEnding
    split <;> decide
  have hemitted : EscapeFree (s!"{warnings} warning" ++ pluralEnding warnings ++ " emitted\n") :=
    (((escapeFree_toString warnings).append (by decide)).append hplural).append (by decide)
  unfold summary
  split
  next =>
    have herror : EscapeFree "error" := by decide
    have hreason : EscapeFree ": could not load scripts due to " := by decide
    have hcause : EscapeFree
        (if errors = 1 then "previous error" else s!"{errors} previous errors") := by
      split
      · decide
      · exact (escapeFree_toString errors).append (by decide)
    have hending : EscapeFree (if warnings > 0 then
        "; " ++ (s!"{warnings} warning" ++ pluralEnding warnings ++ " emitted\n") else "\n") := by
      split
      · exact EscapeFree.append (by decide) hemitted
      · decide
    exact (paint .error herror).append (of_escapeFree hreason) |>.append (of_escapeFree hcause)
      |>.append (of_escapeFree hending)
  next =>
    split
    · have hwarning : EscapeFree "warning" := by decide
      exact ((paint .warning hwarning).append isColouring_colon).append (of_escapeFree hemitted)
    · exact of_escapeFree (by decide)

/-- Colours only add escape sequences: once they are deleted, diagnostics and their summary
are what they are without colours, to the character. -/
theorem withoutEscapes_renderAll_append_summary {ds : List Diagnostic}
    (h : ∀ d ∈ ds, d.EscapeFree) (errors warnings : Nat) :
    withoutEscapes (renderAll true ds ++ summary true errors warnings).toList =
      (renderAll false ds ++ summary false errors warnings).toList :=
  ((isColouring_renderAll h).append (isColouring_summary errors warnings)).withoutEscapes_eq

/-- Brackets and letters that only look like the rest of an escape sequence stay. -/
theorem withoutEscapes_renderAll_append_summary_lookalike :
    let d : Diagnostic := ⟨.unclosedParentheses, .error, "unclosed parentheses in '[1;31m('",
      some "a.bot", ["1 parenthesis is open"], ["add ')'"]⟩
    d.EscapeFree ∧ withoutEscapes (renderAll true [d] ++ summary true 1 2).toList =
      (renderAll false [d] ++ summary false 1 2).toList := by
  intro d
  have hd : d.EscapeFree := ⟨by decide, by decide, by decide, by decide⟩
  exact ⟨hd, withoutEscapes_renderAll_append_summary (List.forall_mem_singleton.2 hd) 1 2⟩

end Terminal

end Skirmish.Report
