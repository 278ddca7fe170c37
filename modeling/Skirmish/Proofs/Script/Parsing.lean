import Mathlib.Data.List.Forall2
import Skirmish.Proofs.Script.Nesting
import Skirmish.Proofs.Script.Spacing
import Skirmish.Script.Compile

/-!
# Taking scripts apart

One step of taking a script apart agrees with the grammar, whatever its pieces
say:

* the pieces that `statements` finds are the statements of a script
  (`forall₂_statements_iff`);
* the pieces that `arguments` finds are the arguments of a call
  (`forall₂_pieces_iff`);
* `classify`, `arguments` and `resolve` together accept what is a statement
  (`isStatement_iff`).
-/

namespace Skirmish.Script

open Text

/-! ## Statements -/

/-- The pieces between the spaces outside parentheses, but for the empty ones. -/
def tokens (text : List Char) : List (List Char) := (cut ' ' 0 text).filter (!·.isEmpty)

theorem tokens_space_cons (text : List Char) : tokens (' ' :: text) = tokens text := by
  simp [tokens, cut_cons]

theorem tokens_append_of_spaces {w : List Char} (hw : ∀ c ∈ w, c = ' ') (text : List Char) :
    tokens (w ++ text) = tokens text := by
  induction w with
  | nil => rfl
  | cons c w ih =>
    obtain ⟨rfl, hspaces⟩ := List.forall_mem_cons.1 hw
    rw [List.cons_append, tokens_space_cons, ih hspaces]

theorem IsStatement.ne_nil {t : List Char} {p : Phrase} (h : IsStatement t p) : t ≠ [] := by
  obtain ⟨c, r, rfl, -⟩ := h.exists_cons
  simp

theorem IsStatement.cut_append {t : List Char} {p : Phrase} (h : IsStatement t p)
    (rest : List Char) : cut ' ' 0 (t ++ rest) = t.foldr extendHead (cut ' ' 0 rest) :=
  h.isSealed.cut_append (by decide) (Int.le_refl 0) (fun _ ↦ rfl) rest

theorem IsStatement.tokens_append {t w : List Char} {p : Phrase} (h : IsStatement t p)
    (hw : ∀ c ∈ w, c = ' ') (hne : w ≠ []) (rest : List Char) :
    tokens (t ++ (w ++ rest)) = t :: tokens rest := by
  obtain ⟨c, w, rfl⟩ := List.exists_cons_of_ne_nil hne
  obtain ⟨rfl, hspaces⟩ := List.forall_mem_cons.1 hw
  have hcut : cut ' ' 0 (' ' :: (w ++ rest)) = [] :: cut ' ' 0 (w ++ rest) := by simp [cut_cons]
  rw [tokens, List.cons_append, h.cut_append, hcut, foldr_extendHead_cons, List.append_nil,
    List.filter_cons_of_pos (by simpa using h.ne_nil), ← tokens,
    tokens_append_of_spaces hspaces]

theorem IsStatement.tokens_eq {t : List Char} {p : Phrase} (h : IsStatement t p) :
    tokens t = [t] := by
  have := h.cut_append []
  rw [List.append_nil, cut_nil, foldr_extendHead_cons, List.append_nil] at this
  rw [tokens, this, List.filter_cons_of_pos (by simpa using h.ne_nil), List.filter_nil]

theorem eq_space_of_allBlank {w : List Char} (hw : allBlank w = true)
    (hs : ∀ c ∈ w, isBlank c = true → c = ' ') : ∀ c ∈ w, c = ' ' := fun c hc ↦
  hs c hc (List.all_eq_true.1 hw c hc)

/-- Where all blanks are spaces, the pieces of a row are its statements. -/
theorem IsStatementRow.forall₂_tokens {t : List Char} {ps : List Phrase} (h : IsStatementRow t ps)
    {v : List Char} (hv : allBlank v = true) (hs : ∀ c ∈ t ++ v, isBlank c = true → c = ' ') :
    List.Forall₂ IsStatement (tokens (t ++ v)) ps := by
  induction ps generalizing t with
  | nil => exact absurd rfl h.ne_nil
  | cons p ps ih =>
    cases h with
    | last h =>
      have hvs := eq_space_of_allBlank hv fun c hc ↦ hs c (List.mem_append_right _ hc)
      cases v with
      | nil =>
        rw [List.append_nil, h.tokens_eq]
        exact .cons h .nil
      | cons d v =>
        have := h.tokens_append hvs (by simp) []
        rw [List.append_nil] at this
        rw [this]
        exact .cons h .nil
    | @cons t w rest _ _ h hw hne hr =>
      have hws := eq_space_of_allBlank hw fun c hc ↦ hs c (by simp [hc])
      rw [List.append_assoc, List.append_assoc, h.tokens_append hws hne]
      exact .cons h (ih hr fun c hc ↦ hs c (by simp_all))

theorem IsScript.forall₂_tokens {t : List Char} {ps : List Phrase} (h : IsScript t ps)
    (hs : ∀ c ∈ t, isBlank c = true → c = ' ') : List.Forall₂ IsStatement (tokens t) ps := by
  cases h with
  | blank hw =>
    have := tokens_append_of_spaces (eq_space_of_allBlank hw hs) []
    rw [List.append_nil] at this
    rw [this]
    exact .nil
  | @statements w t v _ hw hr hv =>
    have hws := eq_space_of_allBlank hw fun c hc ↦ hs c (List.mem_append_left _ hc)
    rw [tokens_append_of_spaces hws]
    exact hr.forall₂_tokens hv fun c hc ↦ hs c (List.mem_append_right _ hc)

/-- Only spaces are left of the blanks. -/
theorem eq_space_of_mem_normalize {text : List Char} {c : Char} (hm : c ∈ Text.normalize text)
    (hc : isBlank c = true) : c = ' ' := by
  induction text with
  | nil => cases hm
  | cons d text ih =>
    cases hd : isBlank d with
    | true =>
      rw [normalize_cons_of_isBlank hd] at hm
      exact ih hm
    | false =>
      rw [normalize_cons hd] at hm
      rcases List.mem_cons.1 hm with rfl | hm
      · rw [hc] at hd
        contradiction
      · split at hm
        · cases hm
        · rcases List.mem_append.1 hm with hm | hm
          · rcases leadingSpace_eq text with hl | hl
            · rw [hl] at hm
              cases hm
            · rw [hl] at hm
              exact List.mem_singleton.1 hm
          · exact ih hm

/-- A statement more in front of a script. -/
theorem IsScript.cons {t s : List Char} {c : Char} {p : Phrase} {ps : List Phrase}
    (h : IsStatement t p) (hc : isBlank c = true) (hs : IsScript s ps) :
    IsScript (t ++ c :: s) (p :: ps) := by
  cases hs with
  | blank hw => exact .statements (w := []) rfl (.last h) (by simp [hc, hw])
  | @statements w t' v _ hw hr hv =>
    have := IsScript.statements (w := []) rfl
      (.cons h (v := c :: w) (by simp [hc, hw]) (by simp) hr) hv
    simpa using this

theorem isScript_of_forall₂_filter {pieces : List (List Char)} {ps : List Phrase}
    (h : List.Forall₂ IsStatement (pieces.filter (!·.isEmpty)) ps) :
    IsScript ([' '].intercalate pieces) ps := by
  have hone : ∀ {q : List Char} {ps : List Phrase},
      List.Forall₂ IsStatement ([q].filter (!·.isEmpty)) ps → IsScript q ps := by
    intro q ps h
    cases q with
    | nil =>
      cases h
      exact .blank rfl
    | cons c q =>
      obtain ⟨p, _, hp, hnil, rfl⟩ := List.forall₂_cons_left_iff.1 h
      cases hnil
      simpa using IsScript.statements (w := []) (v := []) rfl (.last hp) rfl
  induction pieces generalizing ps with
  | nil =>
    cases h
    exact .blank rfl
  | cons q pieces ih =>
    cases pieces with
    | nil =>
      rw [List.intercalate_singleton]
      exact hone h
    | cons r pieces =>
      rw [List.intercalate_cons_cons]
      cases q with
      | nil => exact (isScript_cons_iff (by decide)).2 (ih h)
      | cons c q =>
        obtain ⟨p, _, hp, hps, rfl⟩ := List.forall₂_cons_left_iff.1 h
        simpa using IsScript.cons hp (c := ' ') (by decide) (ih hps)

/-- A script is read statement by statement. -/
theorem forall₂_statements_iff {text : List Char} {ps : List Phrase} :
    List.Forall₂ IsStatement (statements text) ps ↔ IsScript text ps := by
  constructor
  · intro h
    have := isScript_of_forall₂_filter h
    rw [intercalate_cut] at this
    exact isScript_normalize.1 this
  · intro h
    exact (isScript_normalize.2 h).forall₂_tokens fun c ↦ eq_space_of_mem_normalize

/-! ## Arguments -/

/-- An argument says something. -/
def IsArgument (t : List Char) (ps : List Phrase) : Prop := IsScript t ps ∧ ps ≠ []

theorem IsArgument.allBlank {t : List Char} {ps : List Phrase} (h : IsArgument t ps) :
    allBlank t = false := by
  have := h.1.eq_nil_iff.not.1 h.2
  simpa using this

/-- The pieces between the commas outside parentheses; an empty text has none. -/
def pieces (body : List Char) : List (List Char) := if body.isEmpty then [] else cut ',' 0 body

theorem IsScript.cut_append {t : List Char} {ps : List Phrase} (h : IsScript t ps)
    (rest : List Char) : cut ',' 0 (t ++ rest) = t.foldr extendHead (cut ',' 0 rest) :=
  h.isSealed.cut_append (by decide) (Int.le_refl 0) (fun _ ↦ rfl) rest

theorem IsArgumentRow.ne_nil {t : List Char} {args : List (List Phrase)}
    (h : IsArgumentRow t args) : t ≠ [] := by
  cases h with
  | last h hne =>
    rintro rfl
    exact hne (h.eq_nil_iff.2 rfl)
  | cons h hne hr => simp

theorem IsArgumentRow.forall₂_cut {t : List Char} {args : List (List Phrase)}
    (h : IsArgumentRow t args) : List.Forall₂ IsArgument (cut ',' 0 t) args := by
  induction args generalizing t with
  | nil => cases h
  | cons ps args ih =>
    cases h with
    | last h hne =>
      have hcut := h.cut_append []
      rw [List.append_nil, cut_nil, foldr_extendHead_cons, List.append_nil] at hcut
      rw [hcut]
      exact .cons ⟨h, hne⟩ .nil
    | @cons t rest _ _ h hne hr =>
      have hcomma : cut ',' 0 (',' :: rest) = [] :: cut ',' 0 rest := by simp [cut_cons]
      rw [h.cut_append, hcomma, foldr_extendHead_cons, List.append_nil]
      exact .cons ⟨h, hne⟩ (ih hr)

theorem isArgumentRow_of_forall₂ {ts : List (List Char)} {args : List (List Phrase)}
    (h : List.Forall₂ IsArgument ts args) (hne : ts ≠ []) :
    IsArgumentRow ([','].intercalate ts) args := by
  induction h with
  | nil => contradiction
  | @cons t ps ts args ht hts ih =>
    cases hts with
    | nil =>
      rw [List.intercalate_singleton]
      exact .last ht.1 ht.2
    | cons hu hus =>
      rw [List.intercalate_cons_cons, List.append_assoc]
      exact .cons ht.1 ht.2 (ih (by simp))

/-- What stands in parentheses is read argument by argument. -/
theorem forall₂_pieces_iff {body : List Char} {args : List (List Phrase)} :
    List.Forall₂ IsArgument (pieces body) args ↔ IsArguments body args := by
  unfold pieces
  constructor
  · intro h
    split at h
    next he =>
      cases h
      rw [List.isEmpty_iff.1 he]
      exact .none
    next =>
      have := isArgumentRow_of_forall₂ h (cut_ne_nil ',' 0 body)
      rw [intercalate_cut] at this
      exact .some this
  · rintro (_ | h)
    · exact .nil
    · rw [if_neg (by simpa using h.ne_nil)]
      exact h.forall₂_cut

/-! ## Calls -/

theorem callBody_eq_ok_iff {token body : List Char} :
    callBody token = .ok body ↔ ')' ∉ commandName token ∧
      toClosing 0 ((token.drop (commandName token).length).drop 1) = some (body, []) := by
  unfold callBody
  dsimp only
  split
  next h => simp_all
  next h =>
    have hname : ')' ∉ commandName token := by simpa using h
    split <;> simp_all

theorem arguments_eq_ok_iff {token : List Char} {args : List (List Char)} :
    arguments token = .ok args ↔
      ∃ body, callBody token = .ok body ∧ pieces body = args ∧ ∀ a ∈ args, allBlank a = false := by
  unfold arguments
  cases hb : callBody token with
  | error m => simp [bind, Except.bind]
  | ok body =>
    have hfind : (pieces body).findIdx? allBlank = none ↔ ∀ a ∈ pieces body, allBlank a = false :=
      List.findIdx?_eq_none_iff
    dsimp only [bind, Except.bind]
    rw [← pieces]
    constructor
    · intro h
      split at h
      next => contradiction
      next hn =>
        cases h
        exact ⟨body, rfl, rfl, hfind.1 hn⟩
    · rintro ⟨_, hbody, rfl, hall⟩
      cases hbody
      rw [hfind.2 hall]

theorem commandName_append_of_notMem {name : List Char} (h : '(' ∉ name) (rest : List Char) :
    commandName (name ++ '(' :: rest) = name := by
  have hall : ∀ c ∈ name, (c != '(') = true := fun c hc ↦ by
    simpa using fun ho : c = '(' ↦ h (ho ▸ hc)
  rw [commandName, List.takeWhile_append_of_pos hall, List.takeWhile_cons_of_neg (by simp),
    List.append_nil]

theorem commandName_append {name : List Char} (hname : ∀ c ∈ name, isPlain c = true)
    (rest : List Char) : commandName (name ++ '(' :: rest) = name :=
  commandName_append_of_notMem (fun h ↦ (isPlain_iff.1 (hname _ h)).2.1 rfl) rest

/-- A call with a plain name is taken for a call. -/
theorem classify_call {name : List Char} (hne : name ≠ []) (hname : ∀ c ∈ name, isPlain c = true)
    (body : List Char) : classify (name ++ '(' :: (body ++ [')'])) = .ok .call := by
  have hmem : '(' ∈ name ++ '(' :: (body ++ [')']) := by simp
  have hnumber : isNumber (name ++ '(' :: (body ++ [')'])) = false := by
    rw [isNumber, Option.isSome_eq_false_iff, Option.isNone_iff_eq_none,
      Option.eq_none_iff_forall_ne_some]
    intro x hx
    exact absurd (all_isPlain_of_float? hx _ hmem) (by decide)
  have hisName : isName (name ++ '(' :: (body ++ [')'])) = false := by
    rw [isName, Bool.and_eq_false_iff]
    refine .inr (List.all_eq_false.2 ⟨_, hmem, by decide⟩)
  have hcall : isCall (name ++ '(' :: (body ++ [')'])) = true := by
    have hblank : name.any isBlank = false := by
      rw [List.any_eq_false]
      intro c hc
      simpa using (isPlain_iff.1 (hname c hc)).1
    have hlast : (name ++ '(' :: (body ++ [')'])).getLast? = some ')' := by
      rw [← List.cons_append, ← List.append_assoc, List.getLast?_concat]
    simp [isCall, commandName_append hname, hblank, hlast, hne]
  simp [classify, hnumber, hisName, hcall]

/-- The text between the parentheses of a call is found. -/
theorem callBody_call {name body : List Char} {args : List (List Phrase)}
    (hname : ∀ c ∈ name, isPlain c = true) (h : IsArguments body args) :
    callBody (name ++ '(' :: (body ++ [')'])) = .ok body := by
  rw [callBody_eq_ok_iff, commandName_append hname]
  refine ⟨fun hm ↦ absurd (hname _ hm) (by decide), ?_⟩
  rw [List.drop_left, List.drop_one, List.tail_cons, h.balanced.toClosing_append]
  simp [toClosing]

theorem exists_eq_commandName_append {token : List Char} (h : '(' ∈ token) :
    ∃ r, token = commandName token ++ '(' :: r := by
  induction token with
  | nil => cases h
  | cons c cs ih =>
    by_cases hc : c = '('
    · subst hc
      exact ⟨cs, rfl⟩
    · obtain ⟨r, hr⟩ := ih ((List.mem_cons.1 h).resolve_left (Ne.symm hc))
      refine ⟨r, ?_⟩
      rw [commandName, List.takeWhile_cons_of_pos (by simpa using hc), List.cons_append,
        ← commandName, ← hr]

theorem isCall_of_classify {token : List Char} (h : classify token = .ok .call) :
    isCall token = true := by
  unfold classify at h
  split at h
  · cases h
  · split at h
    · cases h
    · split at h
      next hc => exact hc
      next => cases h

/-- A call is made of its name and the text between its parentheses. -/
theorem eq_of_callBody {token body : List Char} (hc : classify token = .ok .call)
    (h : callBody token = .ok body) :
    token = commandName token ++ '(' :: (body ++ [')']) := by
  have hmem : '(' ∈ token := by
    have := isCall_of_classify hc
    simp only [isCall, Bool.and_eq_true] at this
    simpa using this.1.1.2
  obtain ⟨r, hr⟩ := exists_eq_commandName_append hmem
  have hclose := (callBody_eq_ok_iff.1 h).2
  have hdrop := congrArg (List.drop (commandName token).length) hr
  rw [List.drop_left] at hdrop
  rw [hdrop, List.drop_one, List.tail_cons] at hclose
  rw [← eq_append_of_toClosing hclose, ← hr]

/-! ## Tokens -/

/-- What is put behind the arguments of a call, as in `missingBranch`. -/
def missingPhrases (name : String) : List (List Phrase) :=
  if name = shortIf then [Phrase.zero] else []

theorem callable?_name (c : Command) : callable? c.name = some (c, c.arity) := by
  cases c <;> decide

theorem callable?_shortIf : callable? shortIf = some (.ifElse, Command.ifElse.arity - 1) := rfl

theorem name_ne_shortIf (c : Command) : c.name ≠ shortIf := by cases c <;> decide

/-- A name can be called with so many arguments if it is that of a command with
this arity, or the short one. -/
theorem callable?_eq_some_iff {name : String} {c : Command} {n : Nat} :
    callable? name = some (c, n) ↔
      (name = c.name ∧ n = c.arity) ∨ (name = shortIf ∧ c = .ifElse ∧ n + 1 = c.arity) := by
  constructor
  · intro h
    by_cases hs : name = shortIf
    · rw [hs, callable?_shortIf] at h
      cases h
      exact .inr ⟨hs, rfl, rfl⟩
    · rw [callable?, if_neg hs] at h
      obtain ⟨d, hd, he⟩ := Option.map_eq_some_iff.1 h
      cases he
      exact .inl ⟨Command.ofName?_eq_some_iff.1 hd, rfl⟩
  · rintro (⟨rfl, rfl⟩ | ⟨rfl, rfl, hn⟩)
    · exact callable?_name c
    · rw [callable?_shortIf, ← hn, Nat.add_sub_cancel]

theorem classify_eq_symbol_iff {token : List Char} :
    classify token = .ok .symbol ↔
      Decimal.float? token = none ∧ token ≠ [] ∧ ∀ c ∈ token, isAlphanumeric c = true := by
  have hnumber : isNumber token = false ↔ Decimal.float? token = none := by simp [isNumber]
  have hname : isName token = true ↔ token ≠ [] ∧ ∀ c ∈ token, isAlphanumeric c = true := by
    simp [isName]
  rw [← hnumber, ← hname]
  unfold classify
  cases isNumber token <;> cases isName token <;> cases isCall token <;> simp

/-- The call of a plain name passes all the tests. -/
theorem arguments_call {name body : List Char} {args : List (List Phrase)} {c : Command}
    (hname : ∀ d ∈ name, isPlain d = true) (h : IsArguments body args)
    (hc : callable? (String.ofList name) = some (c, args.length)) :
    arguments (name ++ '(' :: (body ++ [')'])) = .ok (pieces body) ∧
      resolve (String.ofList name) (pieces body).length = .ok c ∧
      List.Forall₂ IsArgument (pieces body) args := by
  have hargs := forall₂_pieces_iff.2 h
  have hboth := hargs.imp fun t ps (hps : IsArgument t ps) ↦ And.intro hps.allBlank hps
  have hblank := ((List.forall₂_and_left _ _).1 hboth).1
  refine ⟨arguments_eq_ok_iff.2 ⟨body, callBody_call hname h, rfl, hblank⟩, ?_, hargs⟩
  rw [resolve_eq_ok_iff, hargs.length_eq]
  exact hc

/-- A statement is a number, a name or a call by the tests that compiling makes. -/
theorem isStatement_iff {token : List Char} {p : Phrase} :
    IsStatement token p ↔
      (∃ x, Decimal.float? token = some x ∧ x.isFinite = true ∧ p = .literal (.number x)) ∨
      (classify token = .ok .symbol ∧ p = .name (String.ofList token)) ∨
      ∃ ts c args, classify token = .ok .call ∧ arguments token = .ok ts ∧
        resolve (String.ofList (commandName token)) ts.length = .ok c ∧
        List.Forall₂ IsArgument ts args ∧
        p = .call c (args ++ missingPhrases (String.ofList (commandName token))) := by
  constructor
  · intro h
    cases h with
    | @number _ x hx hf => exact .inl ⟨x, hx, hf, rfl⟩
    | name hne ha hx => exact .inr (.inl ⟨classify_eq_symbol_iff.2 ⟨hx, hne, ha⟩, rfl⟩)
    | @call body args c h hn =>
      have hname : ∀ d ∈ c.name.toList, isPlain d = true := fun d ↦ isPlain_of_mem_name
      have hne : c.name.toList ≠ [] := by cases c <;> decide
      have hc : callable? (String.ofList c.name.toList) = some (c, args.length) := by
        rw [String.ofList_toList, hn]
        exact callable?_name c
      obtain ⟨hargs, hresolve, hall⟩ := arguments_call hname h hc
      refine .inr (.inr ⟨pieces body, c, args, classify_call hne hname body, hargs, ?_, hall, ?_⟩)
      · rw [commandName_append hname]
        exact hresolve
      · rw [commandName_append hname, String.ofList_toList, missingPhrases,
          if_neg (name_ne_shortIf c), List.append_nil]
    | @shortIf body args h hn =>
      have hname : ∀ d ∈ shortIf.toList, isPlain d = true := fun d ↦ isPlain_of_mem_shortIf
      have hc : callable? (String.ofList shortIf.toList) = some (.ifElse, args.length) := by
        rw [String.ofList_toList, callable?_shortIf, ← hn, Nat.add_sub_cancel]
      obtain ⟨hargs, hresolve, hall⟩ := arguments_call hname h hc
      refine .inr (.inr ⟨pieces body, .ifElse, args, classify_call (by decide) hname body, hargs,
        ?_, hall, ?_⟩)
      · rw [commandName_append hname]
        exact hresolve
      · rw [commandName_append hname, String.ofList_toList, missingPhrases, if_pos rfl]
  · rintro (⟨x, hx, hf, rfl⟩ | ⟨hs, rfl⟩ | ⟨ts, c, args, hcall, hargs, hresolve, hall, rfl⟩)
    · exact .number hx hf
    · obtain ⟨hx, hne, ha⟩ := classify_eq_symbol_iff.1 hs
      exact .name hne ha hx
    · obtain ⟨body, hbody, rfl, -⟩ := arguments_eq_ok_iff.1 hargs
      have htoken := eq_of_callBody hcall hbody
      have h := forall₂_pieces_iff.1 hall
      rw [resolve_eq_ok_iff, hall.length_eq] at hresolve
      generalize hn : commandName token = name at htoken hresolve
      subst htoken
      rcases callable?_eq_some_iff.1 hresolve with ⟨hname, hlen⟩ | ⟨hname, rfl, hlen⟩
      · rw [hname, missingPhrases, if_neg (name_ne_shortIf c), List.append_nil]
        have : name = c.name.toList := by rw [← hname, String.toList_ofList]
        rw [this]
        exact .call c h hlen
      · rw [hname, missingPhrases, if_pos rfl]
        have : name = shortIf.toList := by rw [← hname, String.toList_ofList]
        rw [this]
        exact .shortIf h hlen

end Skirmish.Script
