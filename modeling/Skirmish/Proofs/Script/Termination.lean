import Mathlib.Logic.Function.Iterate
import Skirmish.Proofs.Script.Parsing

/-!
# Compiling comes to an end

Three functions compile a script in turn.  A script needs its statements, a statement
that is a call needs the call, and a call needs its arguments, which are scripts again.
There is no tree to go down: every text that is passed on has only just been cut out of
another one.  `Job.Needs` says which texts are passed on, and what they lose on the way
is at least the name of a call and its two parentheses (`length_argument_le`).

`scriptWith` is one level of the work, for any function that compiles the scripts inside.
It asks that function for nothing but what `Job.Needs` names (`scriptWith_congr` and the
two before it), and `compileScript` solves its equation (`scriptWith_compileScript`).
Unrolled once for every three characters of the text, the work is done before the
innermost level is reached, whatever stands there (`iterate_scriptWith_eq`).

Main statement: cutting makes texts shorter, no chain of calls goes on for ever, and a
third of the length bounds the depth of the recursion (`compiling_ends`).
-/

namespace Skirmish.Script

open Report Text

/-! ## What is lost by cutting -/

theorem length_flatten_le_pieceWeight (ps : List (List Char)) :
    ps.flatten.length ≤ pieceWeight ps := by
  induction ps with
  | nil => exact Nat.le_refl 0
  | cons p ps ih =>
    rw [List.flatten_cons, List.length_append, pieceWeight_cons]
    omega

theorem length_flatten_arguments_lt {token : List Char} {args : List (List Char)}
    (h : arguments token = .ok args) : args.flatten.length < token.length :=
  Nat.lt_of_le_of_lt (length_flatten_le_pieceWeight args) (pieceWeight_arguments_lt h)

theorem pieceWeight_pieces_le (body : List Char) :
    pieceWeight (pieces body) ≤ body.length + 1 := by
  unfold pieces
  split
  · exact Nat.zero_le _
  · exact Nat.le_of_eq (pieceWeight_cut ..)

theorem commandName_ne_nil_of_classify {token : List Char} (h : classify token = .ok .call) :
    commandName token ≠ [] := by
  have hcall := isCall_of_classify h
  simp only [isCall, Bool.and_eq_true] at hcall
  simpa using hcall.1.2

/-- A call is longer than any of its arguments by its name and the two parentheses. -/
theorem length_argument_le {token arg : List Char} {args : List (List Char)}
    (hc : classify token = .ok .call) (h : arguments token = .ok args) (harg : arg ∈ args) :
    arg.length + 3 ≤ token.length := by
  obtain ⟨body, hbody, rfl, -⟩ := arguments_eq_ok_iff.1 h
  have hname := List.length_pos_of_ne_nil (commandName_ne_nil_of_classify hc)
  have htoken := congrArg List.length (eq_of_callBody hc hbody)
  simp only [List.length_append, List.length_cons, List.length_nil] at htoken
  have hpieces := pieceWeight_pieces_le body
  have hlt := length_lt_pieceWeight harg
  omega

/-! ## What calls for what -/

/-- A text, and the function that is at work on it. -/
inductive Job where
  | script (text : List Char)
  | statement (token : List Char)
  | call (token : List Char)

namespace Job

/-- One job has another one done on its way. -/
inductive Needs : Job → Job → Prop
  | statement {text token : List Char} (h : token ∈ statements text) :
    Needs (script text) (statement token)
  | call {token : List Char} (h : classify token = .ok .call) :
    Needs (statement token) (call token)
  | argument {token arg : List Char} {args : List (List Char)} (h : arguments token = .ok args)
    (harg : arg ∈ args) : Needs (call token) (script arg)

/-- The length of the text, and between texts of one length the place of the function. -/
def size : Job → Nat
  | script text => 3 * text.length + 2
  | statement token => 3 * token.length + 1
  | call token => 3 * token.length

theorem Needs.size_lt {outer inner : Job} (h : outer.Needs inner) : inner.size < outer.size := by
  cases h with
  | statement h =>
    have hle := length_le_of_mem_statements h
    simp only [size]
    omega
  | call h => exact Nat.lt_succ_self _
  | argument h harg =>
    have hlt := length_lt_pieceWeight harg
    have hle := pieceWeight_arguments_lt h
    simp only [size]
    omega

/-- No job has another one done, that one yet another, and so on for ever. -/
theorem wellFounded_needs : WellFounded fun inner outer : Job ↦ outer.Needs inner :=
  Subrelation.wf Needs.size_lt (measure size).wf

end Job

/-! ## One level of the work -/

section Level

variable (inner : List Char → Compiling Block)

/-- The term of a call, with another function at work on its arguments. -/
def callWith (token : List Char) : Compiling Term :=
  match arguments token with
  | .error m => throw m.toDiagnostic
  | .ok args => do
    let command ← compileHead token args.length
    let blocks ← args.mapM inner
    return .call command (blocks ++ missingBranch token)

/-- The term of a statement, with another function at work on the scripts inside. -/
def statementWith (token : List Char) : Compiling Term :=
  match classify token with
  | .error m => throw m.toDiagnostic
  | .ok .number => compileNumber token
  | .ok .symbol => return .symbol (← internName (String.ofList token))
  | .ok .call => callWith inner token

/-- The block of a script, with another function at work on the scripts inside. -/
def scriptWith (text : List Char) : Compiling Block :=
  (statements text).mapM (statementWith inner)

end Level

/-- The block of a script. -/
def compileScript (text : List Char) : Compiling Block := compileTokens (statements text)

section Congruence

variable {f g : List Char → Compiling Block}

theorem mapM_congr_of_mem {α β : Type} {f g : α → Compiling β} {xs : List α}
    (h : ∀ x ∈ xs, f x = g x) : xs.mapM f = xs.mapM g := by
  induction xs with
  | nil => rfl
  | cons x xs ih =>
    rw [List.mapM_cons, List.mapM_cons, h x List.mem_cons_self,
      ih fun y hy ↦ h y (List.mem_cons_of_mem x hy)]

theorem callWith_congr {token : List Char}
    (h : ∀ arg, (Job.call token).Needs (.script arg) → f arg = g arg) :
    callWith f token = callWith g token := by
  unfold callWith
  split
  next => rfl
  next args hargs => rw [mapM_congr_of_mem fun arg harg ↦ h arg (.argument hargs harg)]

theorem statementWith_congr {token : List Char}
    (h : (Job.statement token).Needs (.call token) → callWith f token = callWith g token) :
    statementWith f token = statementWith g token := by
  unfold statementWith
  split
  next => rfl
  next => rfl
  next => rfl
  next hc => exact h (.call hc)

theorem scriptWith_congr {text : List Char}
    (h : ∀ token, (Job.script text).Needs (.statement token) →
      statementWith f token = statementWith g token) :
    scriptWith f text = scriptWith g text :=
  mapM_congr_of_mem fun token htoken ↦ h token (.statement htoken)

/-- The work on a script is settled by what becomes of the scripts inside, and they are
shorter by three characters. -/
theorem scriptWith_congr_of_shorter {text : List Char}
    (h : ∀ arg : List Char, arg.length + 3 ≤ text.length → f arg = g arg) :
    scriptWith f text = scriptWith g text := by
  refine scriptWith_congr fun token hstatement ↦ statementWith_congr fun hcall ↦
    callWith_congr fun arg hargument ↦ h arg ?_
  cases hstatement with
  | statement hmem =>
    cases hcall with
    | call hc =>
      cases hargument with
      | argument hargs harg =>
        exact Nat.le_trans (length_argument_le hc hargs harg) (length_le_of_mem_statements hmem)

end Congruence

/-! ## The recursion and its equation -/

theorem compileTokens_eq_mapM (tokens : List (List Char)) :
    compileTokens tokens = tokens.mapM compileToken := by
  induction tokens with
  | nil => rw [compileTokens, List.mapM_nil]
  | cons token tokens ih => rw [compileTokens, List.mapM_cons, ih]

theorem compileArguments_eq_mapM (args : List (List Char)) :
    compileArguments args = args.mapM compileScript := by
  induction args with
  | nil => rw [compileArguments, List.mapM_nil]
  | cons arg args ih => rw [compileArguments, List.mapM_cons, ih, compileScript]

theorem statementWith_compileScript (token : List Char) :
    statementWith compileScript token = compileToken token := by
  rw [compileToken, statementWith]
  -- Compiling takes the call apart under the name of the equation, so both sides are split.
  cases classify token with
  | error m => rfl
  | ok kind =>
    cases kind with
    | number => rfl
    | symbol => rfl
    | call =>
      dsimp only
      unfold callWith
      split
      next m hm =>
        split
        next m' hm' =>
          cases hm.symm.trans hm'
          rfl
        next args hargs => cases hm.symm.trans hargs
      next args hargs =>
        split
        next m hm => cases hargs.symm.trans hm
        next args' hargs' =>
          cases hargs.symm.trans hargs'
          rw [compileArguments_eq_mapM]

theorem scriptWith_compileScript : scriptWith compileScript = compileScript := by
  funext text
  rw [scriptWith, funext statementWith_compileScript, compileScript, compileTokens_eq_mapM]

/-- Unrolled so far that there is a level for every three characters of the text, and one
more, the work does not depend on what stands at the innermost level. -/
theorem iterate_scriptWith_eq (f : List Char → Compiling Block) {depth : Nat} {text : List Char}
    (h : text.length < 3 * depth) : scriptWith^[depth] f text = compileScript text := by
  induction depth generalizing text with
  | zero => exact absurd h (Nat.not_lt_zero _)
  | succ depth ih =>
    rw [Function.iterate_succ_apply']
    have hinner : ∀ arg : List Char, arg.length + 3 ≤ text.length →
        scriptWith^[depth] f arg = compileScript arg := fun arg harg ↦ ih (by omega)
    exact (scriptWith_congr_of_shorter hinner).trans (congrFun scriptWith_compileScript text)

/-- The equation of the recursion has one solution. -/
theorem scriptWith_eq_self_iff {f : List Char → Compiling Block} :
    scriptWith f = f ↔ f = compileScript := by
  constructor
  · intro h
    funext text
    have hdepth : text.length < 3 * (text.length + 1) := by omega
    rw [← iterate_scriptWith_eq f hdepth, Function.iterate_fixed h]
  · rintro rfl
    exact scriptWith_compileScript

/-- Every text is compiled in the end:

* no statement of a text is longer than the text, and the arguments of a call are
  together shorter than the call;
* so there is no endless chain in which a script needs a statement, a statement a call, a
  call an argument, and so on, each of them found in the one before;
* a text of fewer characters than three times a number is compiled by so many levels of
  the recursion, as nothing depends on what stands below them;
* nothing but compiling solves the equation of the recursion. -/
theorem compiling_ends :
    (∀ text : List Char, ∀ token ∈ statements text, token.length ≤ text.length) ∧
    (∀ (token : List Char) (args : List (List Char)), arguments token = .ok args →
      args.flatten.length < token.length) ∧
    (WellFounded fun inner outer : Job ↦ outer.Needs inner) ∧
    (∀ (below : List Char → Compiling Block) (depth : Nat) (text : String),
      text.length < 3 * depth → ∀ symbols : SymbolTable,
        (scriptWith^[depth] below text.toList).run symbols = compile symbols text) ∧
    ∀ f : List Char → Compiling Block, scriptWith f = f ↔ f = compileScript := by
  refine ⟨fun _ _ ↦ length_le_of_mem_statements, fun _ _ ↦ length_flatten_arguments_lt,
    Job.wellFounded_needs, fun below depth text h symbols ↦ ?_, fun _ ↦ scriptWith_eq_self_iff⟩
  rw [← String.length_toList] at h
  rw [iterate_scriptWith_eq below h]
  rfl

/-- A call is taken apart, and one that is never closed is refused within six levels, although
there is another refusal below them. -/
theorem compiling_ends_unclosed :
    arguments "not(or(1, x))".toList = .ok ["or(1, x)".toList] ∧
      ["or(1, x)".toList].flatten.length < "not(or(1, x))".toList.length ∧
      (scriptWith^[6] (fun _ ↦ throw emptyScriptWarning) "not(or(1, and(x)".toList).run .new =
        compile .new "not(or(1, and(x)" := by
  have hargs : arguments "not(or(1, x))".toList = .ok ["or(1, x)".toList] := by rfl
  obtain ⟨-, hshorter, -, hlevels, -⟩ := compiling_ends
  exact ⟨hargs, hshorter _ _ hargs, hlevels _ 6 _ (by decide) _⟩

end Skirmish.Script
