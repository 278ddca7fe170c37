import Mathlib.Data.List.TakeWhile
import Skirmish.Proofs.Script.Splitting

/-!
# Taking calls apart and putting them together

`arguments` takes a call apart if it is a name without parentheses and, between the
parentheses behind it, texts that say something, are well nested, and show no comma
outside parentheses, with commas between them.  The name and the texts are determined
by the call, so putting them together again is the inverse.

Both loops behind it, one for the closing parenthesis and one for the commas, go by
the depth alone.  The first one finds the shortest text that leads down to depth 0
(`toClosing_eq_some_iff`), and of the second one it is known what it finds
(`cut_eq_iff`); all pieces of a text that leads down to depth 0 are such texts
themselves (`leadsDown_intercalate_iff`).

Main statement: `arguments_exactly_calls`.
-/

namespace Skirmish.Script

open Text

/-! ## Nesting -/

/-- As many parentheses are closed as are opened, and nowhere more so far. -/
structure WellNested (s : List Char) : Prop where
  balanced : s.count '(' = s.count ')'
  opened : ∀ p, p <+: s → p.count ')' ≤ p.count '('

/-- From depth `d`, a text leads to depth 0, and not below it on the way. -/
structure LeadsDown (d : Int) (s : List Char) : Prop where
  back : d + depth s = 0
  above : ∀ p, p <+: s → 0 ≤ d + depth p

theorem wellNested_iff {s : List Char} : WellNested s ↔ LeadsDown 0 s := by
  constructor
  · rintro ⟨hb, ho⟩
    refine ⟨by rw [depth_eq_zero_iff.2 hb]; rfl, fun p hp ↦ ?_⟩
    have := ho p hp
    rw [depth_eq_count_sub_count]
    omega
  · rintro ⟨hb, ha⟩
    refine ⟨depth_eq_zero_iff.1 (by rwa [Int.zero_add] at hb), fun p hp ↦ ?_⟩
    have := ha p hp
    rw [depth_eq_count_sub_count] at this
    omega

section

variable {d : Int} {s t : List Char}

theorem LeadsDown.le (h : LeadsDown d s) : 0 ≤ d := by
  have := h.above [] List.nil_prefix
  rwa [depth_nil, Int.add_zero] at this

theorem leadsDown_nil_iff : LeadsDown d [] ↔ d = 0 := by
  constructor
  · intro h
    have := h.back
    rwa [depth_nil, Int.add_zero] at this
  · rintro rfl
    refine ⟨rfl, fun p hp ↦ ?_⟩
    rw [List.prefix_nil.1 hp]
    exact Int.le_refl 0

theorem leadsDown_cons_iff {c : Char} :
    LeadsDown d (c :: s) ↔ 0 ≤ d ∧ LeadsDown (d + depthStep c) s := by
  constructor
  · intro h
    refine ⟨h.le, ?_, fun p hp ↦ ?_⟩
    · have := h.back
      rwa [depth_cons, ← Int.add_assoc] at this
    · have := h.above (c :: p) (List.prefix_cons_inj c |>.2 hp)
      rwa [depth_cons, ← Int.add_assoc] at this
  · rintro ⟨hd, h⟩
    refine ⟨by rw [depth_cons, ← Int.add_assoc]; exact h.back, fun p hp ↦ ?_⟩
    rcases List.prefix_cons_iff.1 hp with rfl | ⟨q, rfl, hq⟩
    · rwa [depth_nil, Int.add_zero]
    · rw [depth_cons, ← Int.add_assoc]
      exact h.above q hq

/-- Where the first of two texts leads to depth 0, both can be looked at alone. -/
theorem leadsDown_append_iff (hd : d + depth s = 0) :
    LeadsDown d (s ++ t) ↔ LeadsDown d s ∧ LeadsDown 0 t := by
  induction s generalizing d with
  | nil =>
    obtain rfl : d = 0 := by rwa [depth_nil, Int.add_zero] at hd
    simp [leadsDown_nil_iff]
  | cons c s ih =>
    rw [depth_cons, ← Int.add_assoc] at hd
    rw [List.cons_append, leadsDown_cons_iff, leadsDown_cons_iff, ih hd, and_assoc]

/-- Joined by a separator, texts lead down to depth 0 if each of them does. -/
theorem leadsDown_intercalate_iff {sep : Char} (hsep : depthStep sep = 0)
    {ps : List (List Char)} :
    LeadsDown 0 ([sep].intercalate ps) ∧ (∀ p ∈ ps.dropLast, depth p = 0) ↔
      ∀ p ∈ ps, LeadsDown 0 p := by
  induction ps with
  | nil => simp [leadsDown_nil_iff]
  | cons p ps ih =>
    cases ps with
    | nil => simp
    | cons q qs =>
      have hskip : LeadsDown 0 (sep :: [sep].intercalate (q :: qs)) ↔
          LeadsDown 0 ([sep].intercalate (q :: qs)) := by
        rw [leadsDown_cons_iff, hsep]
        exact and_iff_right (Int.le_refl 0)
      rw [List.intercalate_cons_cons, List.append_assoc, List.singleton_append,
        List.dropLast_cons_cons, List.forall_mem_cons, List.forall_mem_cons, ← ih]
      constructor
      · rintro ⟨h, hp, hps⟩
        rw [leadsDown_append_iff (by rwa [Int.zero_add]), hskip] at h
        exact ⟨h.1, h.2, hps⟩
      · rintro ⟨hp, h, hps⟩
        have hback : depth p = 0 := by
          have := hp.back
          rwa [Int.zero_add] at this
        rw [leadsDown_append_iff hp.back, hskip]
        exact ⟨⟨hp, h⟩, hback, hps⟩

end

/-! ## The closing parenthesis -/

/-- Any other character goes to what is inside, and the search goes on at its depth. -/
theorem toClosing_cons {opened : Nat} {c : Char} (hc : ¬(c = ')' ∧ opened = 0)) (cs : List Char) :
    ∃ n : Nat, (n : Int) = opened + depthStep c ∧
      toClosing opened (c :: cs) =
        (toClosing n cs).map fun (inside, after) ↦ (c :: inside, after) := by
  by_cases hclose : c = ')'
  · obtain ⟨n, rfl⟩ := Nat.exists_eq_succ_of_ne_zero fun ho ↦ hc ⟨hclose, ho⟩
    subst hclose
    exact ⟨n, (Int.add_sub_cancel n 1).symm, rfl⟩
  · refine ⟨if c = '(' then opened + 1 else opened, ?_, ?_⟩
    · rw [depthStep, if_neg hclose]
      split <;> simp
    · simp only [toClosing, if_neg hclose]

/-- The closing parenthesis is where the depth would become negative for the first
time. -/
theorem toClosing_eq_some_iff {opened : Nat} {cs inside after : List Char} :
    toClosing opened cs = some (inside, after) ↔
      cs = inside ++ ')' :: after ∧ LeadsDown opened inside := by
  induction cs generalizing opened inside after with
  | nil => simp [toClosing]
  | cons c cs ih =>
    by_cases hc : c = ')' ∧ opened = 0
    · obtain ⟨rfl, rfl⟩ := hc
      cases inside with
      | nil => simp [toClosing, leadsDown_nil_iff]
      | cons i inside =>
        refine iff_of_false (by simp [toClosing]) ?_
        rintro ⟨hcs, hdown⟩
        obtain ⟨rfl, -⟩ := List.cons.inj hcs
        -- one step down from depth 0 is below it
        have := (leadsDown_cons_iff.1 hdown).2.le
        exact absurd this (by decide)
    · obtain ⟨n, hn, heq⟩ := toClosing_cons hc cs
      rw [heq]
      cases inside with
      | nil =>
        refine iff_of_false (by simp) ?_
        rintro ⟨hcs, hdown⟩
        have := leadsDown_nil_iff.1 hdown
        exact hc ⟨(List.cons.inj hcs).1, by omega⟩
      | cons i inside =>
        simp only [leadsDown_cons_iff, Option.map_eq_some_iff, Prod.exists, Prod.mk.injEq,
          List.cons.injEq, ih, List.cons_append]
        constructor
        · rintro ⟨_, _, ⟨rfl, hdown⟩, ⟨rfl, rfl⟩, rfl⟩
          exact ⟨⟨rfl, rfl⟩, by omega, hn ▸ hdown⟩
        · rintro ⟨⟨rfl, rfl⟩, -, hdown⟩
          exact ⟨_, _, ⟨rfl, hn ▸ hdown⟩, ⟨rfl, rfl⟩, rfl⟩

/-- Behind an opening parenthesis, what is well nested goes on to the closing one. -/
theorem toClosing_zero_eq_some_iff {cs inside after : List Char} :
    toClosing 0 cs = some (inside, after) ↔ cs = inside ++ ')' :: after ∧ WellNested inside := by
  rw [toClosing_eq_some_iff, wellNested_iff]
  rfl

/-! ## The text of a call -/

/-- A name without parentheses and a well nested body in parentheses are a call, to
which whatever is behind it does not belong. -/
theorem callBody_append {name body : List Char} (ho : '(' ∉ name) (hc : ')' ∉ name)
    (hb : WellNested body) (after : List Char) :
    callBody (name ++ '(' :: (body ++ ')' :: after)) = if after = [] then .ok body else
      .error (.trailingText (String.ofList (name ++ '(' :: (body ++ [')'])))
        (String.ofList after)) := by
  have hclose : toClosing 0 (body ++ ')' :: after) = some (body, after) :=
    toClosing_zero_eq_some_iff.2 ⟨rfl, hb⟩
  unfold callBody
  dsimp only
  rw [commandName_append_of_notMem ho, if_neg (by simpa using hc), List.drop_left, List.drop_one,
    List.tail_cons, hclose]
  cases after with
  | nil => rfl
  | cons c after =>
    have htoken : name ++ '(' :: (body ++ ')' :: c :: after) =
        (name ++ '(' :: (body ++ [')'])) ++ c :: after := by simp
    dsimp only
    rw [htoken, List.length_append, Nat.add_sub_cancel, List.take_left,
      if_neg (List.cons_ne_nil c after)]

/-- In all other texts the parentheses do not match. -/
theorem callBody_cases (token : List Char) :
    callBody token = .error (.unclosedParentheses (String.ofList token)) ∨
      ∃ name body after, '(' ∉ name ∧ ')' ∉ name ∧ WellNested body ∧
        token = name ++ '(' :: (body ++ ')' :: after) := by
  by_cases ho : '(' ∈ token
  · by_cases hc : ')' ∈ commandName token
    · left
      simp [callBody, hc]
    · obtain ⟨rest, hrest⟩ := exists_eq_commandName_append ho
      have hname : '(' ∉ commandName token := fun hm ↦ by simpa using List.mem_takeWhile_imp hm
      generalize commandName token = name at hc hrest hname
      subst hrest
      cases hclose : toClosing 0 rest with
      | none =>
        left
        unfold callBody
        dsimp only
        rw [commandName_append_of_notMem hname, if_neg (by simpa using hc), List.drop_left,
          List.drop_one, List.tail_cons, hclose]
      | some r =>
        obtain ⟨rfl, hb⟩ := toClosing_zero_eq_some_iff.1 hclose
        exact .inr ⟨name, r.1, r.2, hname, hc, hb, rfl⟩
  · left
    have hname : commandName token = token :=
      List.takeWhile_eq_self_iff.2 fun c hc ↦ by simpa using fun hco : c = '(' ↦ ho (hco ▸ hc)
    simp [callBody, hname, toClosing]

/-- The body of a call is well nested, and nothing follows its closing parenthesis. -/
theorem callBody_eq_ok_iff_wellNested {token body : List Char} :
    callBody token = .ok body ↔ ∃ name, '(' ∉ name ∧ ')' ∉ name ∧ WellNested body ∧
      token = name ++ '(' :: (body ++ [')']) := by
  constructor
  · intro h
    obtain hu | ⟨name, inside, after, ho, hc, hb, rfl⟩ := callBody_cases token
    · rw [hu] at h
      cases h
    · rw [callBody_append ho hc hb] at h
      split at h
      next hafter =>
        cases h
        exact ⟨name, ho, hc, hb, by rw [hafter]⟩
      next => cases h
  · rintro ⟨name, ho, hc, hb, rfl⟩
    rw [callBody_append ho hc hb, if_pos rfl]

/-- Trailing text is what follows the closing parenthesis of a call. -/
theorem callBody_eq_trailingText_iff {token : List Char} {call trailing : String} :
    callBody token = .error (.trailingText call trailing) ↔
      ∃ name body, '(' ∉ name ∧ ')' ∉ name ∧ WellNested body ∧ trailing ≠ "" ∧
        call.toList = name ++ '(' :: (body ++ [')']) ∧ token = call.toList ++ trailing.toList := by
  have hempty : trailing = "" ↔ trailing.toList = [] := String.toList_inj.symm
  constructor
  · intro h
    obtain hu | ⟨name, body, after, ho, hc, hb, rfl⟩ := callBody_cases token
    · rw [hu] at h
      cases h
    · rw [callBody_append ho hc hb] at h
      split at h
      next => cases h
      next hafter =>
        cases h
        rw [String.toList_ofList] at hempty
        refine ⟨name, body, ho, hc, hb, hempty.not.2 hafter, String.toList_ofList, ?_⟩
        simp [String.toList_ofList]
  · rintro ⟨name, body, ho, hc, hb, hne, hcall, rfl⟩
    have htext : call.toList ++ trailing.toList =
        name ++ '(' :: (body ++ ')' :: trailing.toList) := by
      rw [hcall]
      simp
    rw [htext, callBody_append ho hc hb, if_neg (hempty.not.1 hne), ← hcall, String.ofList_toList,
      String.ofList_toList]

/-! ## The arguments of a call -/

/-- A text that can be written as an argument: it says something, and no comma
outside its parentheses, which match, would end it. -/
structure IsArgumentText (a : List Char) : Prop where
  notBlank : allBlank a = false
  nested : WellNested a
  comma : ∀ q r, a = q ++ ',' :: r → q.count '(' ≠ q.count ')'

/-- A call as it is written, from its name and its arguments. -/
structure IsCallText (token name : List Char) (args : List (List Char)) : Prop where
  text : token = name ++ '(' :: ([','].intercalate args ++ [')'])
  opening : '(' ∉ name
  closing : ')' ∉ name
  argument : ∀ a ∈ args, IsArgumentText a

theorem pieces_eq_iff {body : List Char} {args : List (List Char)} (hne : ∀ a ∈ args, a ≠ []) :
    pieces body = args ↔ [','].intercalate args = body ∧ (∀ a ∈ args.dropLast, depth a = 0) ∧
      ∀ a ∈ args, Unbroken ',' 0 a := by
  unfold pieces
  split
  next h =>
    obtain rfl := List.isEmpty_iff.1 h
    constructor
    · rintro rfl
      exact ⟨rfl, nofun, nofun⟩
    · exact fun h ↦ (eq_nil_of_intercalate hne h.1).symm
  next h => exact cut_zero_eq_iff rfl (by simpa using h)

/-- Arguments that say something are put together by commas and found again. -/
theorem pieces_eq_iff_isArgumentText {body : List Char} {args : List (List Char)} :
    (pieces body = args ∧ (∀ a ∈ args, allBlank a = false) ∧ WellNested body) ↔
      [','].intercalate args = body ∧ ∀ a ∈ args, IsArgumentText a := by
  constructor
  · rintro ⟨hpieces, hblank, hnested⟩
    have hne : ∀ a ∈ args, a ≠ [] := by
      rintro a ha rfl
      exact absurd (hblank [] ha) (by decide)
    obtain ⟨rfl, hdepth, hcomma⟩ := (pieces_eq_iff hne).1 hpieces
    have hall := (leadsDown_intercalate_iff rfl).1 ⟨wellNested_iff.1 hnested, hdepth⟩
    exact ⟨rfl, fun a ha ↦
      ⟨hblank a ha, wellNested_iff.2 (hall a ha), unbroken_zero_iff.1 (hcomma a ha)⟩⟩
  · rintro ⟨rfl, hall⟩
    have hne : ∀ a ∈ args, a ≠ [] := by
      rintro a ha rfl
      exact absurd (hall [] ha).notBlank (by decide)
    obtain ⟨hnested, hdepth⟩ := (leadsDown_intercalate_iff (rfl : depthStep ',' = 0)).2 fun a ha ↦
      wellNested_iff.1 (hall a ha).nested
    refine ⟨(pieces_eq_iff hne).2 ⟨rfl, hdepth, fun a ha ↦ ?_⟩, fun a ha ↦ (hall a ha).notBlank, ?_⟩
    · exact unbroken_zero_iff.2 (hall a ha).comma
    · exact wellNested_iff.2 hnested

/-- Exactly the calls are taken apart, into the arguments from which they are made. -/
theorem arguments_eq_ok_iff_isCallText {token : List Char} {args : List (List Char)} :
    arguments token = .ok args ↔ ∃ name, IsCallText token name args := by
  rw [arguments_eq_ok_iff]
  constructor
  · rintro ⟨body, hbody, hpieces, hblank⟩
    obtain ⟨name, ho, hc, hnested, rfl⟩ := callBody_eq_ok_iff_wellNested.1 hbody
    obtain ⟨rfl, hall⟩ := pieces_eq_iff_isArgumentText.1 ⟨hpieces, hblank, hnested⟩
    exact ⟨name, rfl, ho, hc, hall⟩
  · rintro ⟨name, rfl, ho, hc, hall⟩
    obtain ⟨hpieces, hblank, hnested⟩ := pieces_eq_iff_isArgumentText.2 ⟨rfl, hall⟩
    exact ⟨_, callBody_eq_ok_iff_wellNested.2 ⟨name, ho, hc, hnested, rfl⟩, hpieces, hblank⟩

/-- Where there is a body, arguments are found or one of them is blank. -/
theorem arguments_of_callBody {token body : List Char} (h : callBody token = .ok body) :
    (∃ args, arguments token = .ok args) ∨
      ∃ i, arguments token = .error (.emptyArgument (String.ofList token) i) := by
  unfold arguments
  rw [h]
  dsimp only [bind, Except.bind]
  split
  next i _ => exact .inr ⟨i, rfl⟩
  next => exact .inl ⟨_, rfl⟩

/-- Everything but a blank argument is found out by looking for the body. -/
theorem callBody_of_arguments {token : List Char} {m : Malformed} (h : arguments token = .error m)
    (hm : m.code ≠ .emptyArgument) : callBody token = .error m := by
  cases hb : callBody token with
  | error e =>
    rw [arguments, hb] at h
    cases h
    rfl
  | ok body =>
    obtain ⟨args, ha⟩ | ⟨i, ha⟩ := arguments_of_callBody hb
    · rw [ha] at h
      cases h
    · rw [ha] at h
      cases h
      exact absurd rfl hm

/-- A text is taken apart into a list of arguments if and only if it is a call with
these arguments, character for character: a name without parentheses and, in
parentheses and with commas between them, texts that are not blank, are well nested,
and have no comma with as many opening as closing parentheses before it.  The name is
the one that is found.

If there is trailing text, then a call is followed by it, with nothing left out, and
this call is taken apart, unless one of its arguments is blank. -/
theorem arguments_exactly_calls (token : List Char) :
    (∀ args, arguments token = .ok args ↔ ∃ name, IsCallText token name args) ∧
    (∀ name args, IsCallText token name args → name = commandName token) ∧
    ∀ call trailing, arguments token = .error (.trailingText call trailing) →
      call.toList ++ trailing.toList = token ∧ trailing ≠ "" ∧
      ((∃ args, arguments call.toList = .ok args) ∨
        ∃ i, arguments call.toList = .error (.emptyArgument call i)) := by
  refine ⟨fun args ↦ arguments_eq_ok_iff_isCallText, ?_, ?_⟩
  · rintro name args ⟨rfl, ho, -, -⟩
    exact (commandName_append_of_notMem ho _).symm
  · intro call trailing h
    obtain ⟨name, body, ho, hc, hnested, hne, hcall, rfl⟩ :=
      callBody_eq_trailingText_iff.1 (callBody_of_arguments h nofun)
    have hbody : callBody call.toList = .ok body :=
      callBody_eq_ok_iff_wellNested.2 ⟨name, ho, hc, hnested, hcall⟩
    have hargs := arguments_of_callBody hbody
    rw [String.ofList_toList] at hargs
    exact ⟨rfl, hne, hargs⟩

/-- A call with a call as an argument, which has a comma of its own, and a call with
another one right behind it, for which a blank argument goes unnoticed. -/
theorem arguments_exactly_calls_behind :
    (∃ name, IsCallText "f(g(a, b), c)".toList name ["g(a, b)".toList, " c".toList]) ∧
      arguments "f(a,)(b)".toList = .error (.trailingText "f(a,)" "(b)") ∧
      ((∃ args, arguments "f(a,)".toList = .ok args) ∨
        ∃ i, arguments "f(a,)".toList = .error (.emptyArgument "f(a,)" i)) := by
  have htrailing : arguments "f(a,)(b)".toList = .error (.trailingText "f(a,)" "(b)") := by rfl
  refine ⟨?_, htrailing, ?_⟩
  · exact ((arguments_exactly_calls "f(g(a, b), c)".toList).1 _).1 (by rfl)
  · exact ((arguments_exactly_calls "f(a,)(b)".toList).2.2 _ _ htrailing).2.2

end Skirmish.Script
