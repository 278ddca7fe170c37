import Mathlib.Data.List.Forall2
import Mathlib.Data.List.Perm.Basic
import Skirmish.CommandLine.Options

/-!
# Options in any order

Every argument of a match is read without a look at the others, so a row of arguments is
read if each of them is, and the first one that cannot be read is to blame if not
(`exists_mapM_eq_ok_iff`, `mapM_eq_error_iff`).  `Argument.Spelled` says how arguments are
written, `Setting.sets?` what they set.

What an option sets stays set unless a later one sets it again, so each `Setting` is in the
end what the last option that names it sets it to (`Setting.get_foldl_apply`).  Options that
have a value have to keep their order among those of the same name; all others set a
setting to the same whenever they set it, so their order does not matter
(`Setting.filterMap_setBy?_eq`).

Main statement: `ofArguments_one_by_one`.
-/

namespace Skirmish.CommandLine

open Contest Decimal

/-! ## Work on a list that can fail -/

section

variable {α β ε : Type} {f : α → Except ε β} {xs : List α}

theorem mapM_eq_ok_iff {ys : List β} :
    xs.mapM f = .ok ys ↔ List.Forall₂ (fun x y ↦ f x = .ok y) xs ys := by
  induction xs generalizing ys with
  | nil =>
    rw [List.mapM_nil, List.forall₂_nil_left_iff]
    exact ⟨fun h ↦ (Except.ok.inj h).symm, fun h ↦ congrArg Except.ok h.symm⟩
  | cons x xs ih =>
    rw [List.mapM_cons, List.forall₂_cons_left_iff]
    cases hx : f x with
    | error e => exact iff_of_false nofun fun ⟨_, _, h, _, _⟩ ↦ nomatch h
    | ok y =>
      cases hxs : xs.mapM f with
      | error e =>
        refine iff_of_false nofun ?_
        rintro ⟨_, ys, -, h, -⟩
        cases hxs.symm.trans (ih.2 h)
      | ok zs =>
        constructor
        · intro h
          cases h
          exact ⟨y, zs, rfl, ih.1 hxs, rfl⟩
        · rintro ⟨_, ys, hy, h, rfl⟩
          cases hy
          cases hxs.symm.trans (ih.2 h)
          rfl

theorem exists_mapM_eq_ok_iff : (∃ ys, xs.mapM f = .ok ys) ↔ ∀ x ∈ xs, ∃ y, f x = .ok y := by
  simp only [mapM_eq_ok_iff]
  induction xs with
  | nil => exact iff_of_true ⟨[], .nil⟩ nofun
  | cons x xs ih =>
    rw [List.forall_mem_cons, ← ih]
    constructor
    · rintro ⟨_, h⟩
      cases h with
      | cons hx hxs => exact ⟨⟨_, hx⟩, _, hxs⟩
    · rintro ⟨⟨y, hx⟩, ys, hxs⟩
      exact ⟨y :: ys, .cons hx hxs⟩

/-- The work ends with the first failure. -/
theorem mapM_eq_error_iff {e : ε} : xs.mapM f = .error e ↔
    ∃ before x after, xs = before ++ x :: after ∧ (∀ b ∈ before, ∃ y, f b = .ok y) ∧
      f x = .error e := by
  induction xs with
  | nil => exact iff_of_false nofun (by simp)
  | cons x xs ih =>
    rw [List.mapM_cons]
    cases hx : f x with
    | error d =>
      constructor
      · intro h
        cases h
        exact ⟨[], x, xs, rfl, nofun, hx⟩
      · rintro ⟨before, z, after, hxs, hbefore, hz⟩
        cases before with
        | nil =>
          cases hxs
          cases hx.symm.trans hz
          rfl
        | cons b before =>
          cases hxs
          obtain ⟨y, hy⟩ := hbefore x List.mem_cons_self
          cases hx.symm.trans hy
    | ok y =>
      have hrest : (do let ys ← xs.mapM f; pure (y :: ys)) = Except.error e ↔
          xs.mapM f = .error e := by
        cases xs.mapM f with
        | error d => exact Iff.rfl
        | ok ys => exact iff_of_false nofun nofun
      refine hrest.trans (ih.trans ?_)
      constructor
      · rintro ⟨before, z, after, rfl, hbefore, hz⟩
        exact ⟨x :: before, z, after, rfl, List.forall_mem_cons.2 ⟨⟨y, hx⟩, hbefore⟩, hz⟩
      · rintro ⟨before, z, after, hxs, hbefore, hz⟩
        cases before with
        | nil =>
          cases hxs
          cases hx.symm.trans hz
        | cons b before =>
          cases hxs
          exact ⟨before, z, after, rfl, (List.forall_mem_cons.1 hbefore).2, hz⟩

theorem exists_eq_ok_iff_isOk {x : Except ε β} : (∃ y, x = .ok y) ↔ x.isOk = true := by
  cases x with
  | error e => exact iff_of_false nofun Bool.false_ne_true
  | ok y => exact iff_of_true ⟨y, rfl⟩ rfl

theorem mapM_eq_error_iff_find? {e : ε} : xs.mapM f = .error e ↔
    ∃ x, xs.find? (fun x ↦ !(f x).isOk) = some x ∧ f x = .error e := by
  simp only [mapM_eq_error_iff, exists_eq_ok_iff_isOk, List.find?_eq_some_iff_append, Bool.not_not]
  constructor
  · rintro ⟨before, x, after, rfl, hbefore, hx⟩
    exact ⟨x, ⟨by rw [hx]; rfl, before, after, rfl, hbefore⟩, hx⟩
  · rintro ⟨x, ⟨-, before, after, rfl, hbefore⟩, hx⟩
    exact ⟨before, x, after, rfl, hbefore, hx⟩

end

/-! ## Single arguments -/

/-- An argument that begins with a hyphen is an option, be it one that is known or not. -/
def isOption (argument : String) : Bool := argument.toList.head? == some '-'

/-- The options that have a value. -/
def valuedOptions : List String := ["--seed", "--board", "--turn-limit", "--unit-limit"]

/-- Whether an argument is the option of this name with a value, be it one that can be
read or not. -/
def isValued (name argument : String) : Bool := (valueOf? name argument).isSome

/-- Whether an argument cannot be read. -/
def isUnreadable (argument : String) : Bool := !(Argument.read argument).isOk

/-- How arguments are written. -/
inductive Argument.Spelled : String → Argument → Prop
  | seed {text : String} {n : Nat} (h : readNumber "seed" text = .ok n) :
    Spelled ("--seed=" ++ text) (.seed (UInt64.ofNat n))
  | boardSize {text : String} {width height : Nat} (h : readBoardSize text = .ok (width, height)) :
    Spelled ("--board=" ++ text) (.boardSize width height)
  | turnLimit {text : String} {n : Nat} (h : readNumber "turn limit" text = .ok n) :
    Spelled ("--turn-limit=" ++ text) (.turnLimit n)
  | unitFraction {text : String} {x : Float} (h : readFraction text = .ok x) :
    Spelled ("--unit-limit=" ++ text) (.unitFraction x)
  | quiet : Spelled "--quiet" .quiet
  | quietShort : Spelled "-q" .quiet
  | noBoard : Spelled "--no-board" .noBoard
  | strict : Spelled "--strict" .strict
  | script {path : String} (h : isOption path = false) : Spelled path (.script path)

theorem valueOf?_eq_some_iff {name argument text : String} :
    valueOf? name argument = some text ↔ argument = name ++ "=" ++ text := by
  unfold valueOf?
  rw [Option.map_eq_some_iff]
  constructor
  · rintro ⟨cs, hcs, rfl⟩
    rw [List.isPrefixOf?_eq_some_iff_append_eq] at hcs
    rw [← String.toList_inj, ← hcs, String.toList_append (s := name ++ "="), String.toList_ofList]
  · rintro rfl
    refine ⟨text.toList, ?_, String.ofList_toList⟩
    rw [List.isPrefixOf?_eq_some_iff_append_eq, ← String.toList_append]

theorem exists_of_map_eq_ok {ε α β : Type} {x : Except ε α} {f : α → β} {b : β}
    (h : x.map f = .ok b) : ∃ a, x = .ok a ∧ f a = b := by
  cases x with
  | error e => cases h
  | ok a => exact ⟨a, rfl, Except.ok.inj h⟩

theorem map_eq_error_iff {ε α β : Type} {x : Except ε α} {f : α → β} {e : ε} :
    x.map f = .error e ↔ x = .error e := by
  cases x with
  | error d =>
    constructor <;>
    · intro h
      cases h
      rfl
  | ok a => exact iff_of_false nofun nofun

namespace Argument

/-- What is read is written like that. -/
theorem spelled_of_read {argument : String} {a : Argument} (h : Argument.read argument = .ok a) :
    Spelled argument a := by
  unfold Argument.read at h
  split at h
  next text htext =>
    obtain rfl := valueOf?_eq_some_iff.1 htext
    obtain ⟨n, hn, rfl⟩ := exists_of_map_eq_ok h
    exact .seed hn
  split at h
  next text htext =>
    obtain rfl := valueOf?_eq_some_iff.1 htext
    obtain ⟨size, hsize, rfl⟩ := exists_of_map_eq_ok h
    exact .boardSize hsize
  split at h
  next text htext =>
    obtain rfl := valueOf?_eq_some_iff.1 htext
    obtain ⟨n, hn, rfl⟩ := exists_of_map_eq_ok h
    exact .turnLimit hn
  split at h
  next text htext =>
    obtain rfl := valueOf?_eq_some_iff.1 htext
    obtain ⟨x, hx, rfl⟩ := exists_of_map_eq_ok h
    exact .unitFraction hx
  split at h
  next hquiet =>
    cases h
    obtain rfl | rfl := hquiet
    · exact .quiet
    · exact .quietShort
  split at h
  next hboard =>
    cases h
    exact hboard ▸ .noBoard
  split at h
  next hstrict =>
    cases h
    exact hstrict ▸ .strict
  split at h
  next => cases h
  next hscript =>
    cases h
    exact .script (beq_eq_false_iff_ne.2 hscript)

/-- The path of a script, if the argument is one. -/
def path? : Argument → Option String
  | script path => some path
  | _ => none

/-- The scripts are the arguments that are no options. -/
theorem Spelled.path?_eq {argument : String} {a : Argument} (h : Spelled argument a) :
    a.path? = if isOption argument then none else some argument := by
  cases h with
  | script h => rw [h]; rfl
  | quiet => rfl
  | quietShort => rfl
  | noBoard => rfl
  | strict => rfl
  | seed h => simp [isOption, path?]
  | boardSize h => simp [isOption, path?]
  | turnLimit h => simp [isOption, path?]
  | unitFraction h => simp [isOption, path?]

/-- The name of an option that has a value. -/
def name? : Argument → Option String
  | seed _ => some "--seed"
  | boardSize .. => some "--board"
  | turnLimit _ => some "--turn-limit"
  | unitFraction _ => some "--unit-limit"
  | _ => none

theorem isValued_append (name text : String) : isValued name (name ++ "=" ++ text) = true :=
  Option.isSome_iff_exists.2 ⟨text, valueOf?_eq_some_iff.2 rfl⟩

/-- An option that has a value is written with its name in front. -/
theorem Spelled.isValued_of_name? {argument name : String} {a : Argument}
    (h : Spelled argument a) (hname : a.name? = some name) : isValued name argument = true := by
  cases h with
  | @seed text =>
    cases hname
    exact isValued_append "--seed" text
  | @boardSize text =>
    cases hname
    exact isValued_append "--board" text
  | @turnLimit text =>
    cases hname
    exact isValued_append "--turn-limit" text
  | @unitFraction text =>
    cases hname
    exact isValued_append "--unit-limit" text
  | _ => cases hname

end Argument

/-! ## Settings -/

/-- What a match is played with, but for the scripts. -/
inductive Setting where
  | width
  | height
  | turnLimit
  | unitFraction
  | unitHp
  | messages
  | pictures
  | seed
  | strict

namespace Setting

/-- What a setting can be. -/
def Value : Setting → Type
  | width | height | turnLimit => Nat
  | unitFraction => Float
  | unitHp => Int64
  | messages | pictures | strict => Bool
  | seed => Option UInt64

/-- What a setting is. -/
def get : (f : Setting) → Settings → f.Value
  | width, s => s.width
  | height, s => s.height
  | turnLimit, s => s.turnLimit
  | unitFraction, s => s.unitFraction
  | unitHp, s => s.unitHp
  | messages, s => s.messages
  | pictures, s => s.pictures
  | seed, s => s.seed
  | strict, s => s.strict

/-- What an argument sets a setting to, if it is an option that names it. -/
def sets? : (f : Setting) → Argument → Option f.Value
  | width, .boardSize w _ => some w
  | height, .boardSize _ h => some h
  | turnLimit, .turnLimit turns => some turns
  | unitFraction, .unitFraction x => some x
  | messages, .quiet | pictures, .quiet | pictures, .noBoard => some false
  | seed, .seed n => some (some n)
  | strict, .strict => some true
  | _, _ => none

/-- Settings are the same if each of them is. -/
theorem get_inj {s t : Settings} (h : ∀ f : Setting, f.get s = f.get t) : s = t := by
  cases s
  cases t
  rw [Settings.mk.injEq]
  exact ⟨h width, h height, h turnLimit, h unitFraction, h unitHp, h messages, h pictures, h seed,
    h strict⟩

/-- An argument that names a setting sets it, and any other leaves it as it is. -/
theorem get_apply (f : Setting) (o : Options) (a : Argument) :
    f.get (o.apply a).settings = (f.sets? a).getD (f.get o.settings) := by
  cases a <;> cases f <;> rfl

/-- A setting is what the last argument that names it has set it to. -/
theorem get_foldl_apply (f : Setting) (o : Options) (read : List Argument) :
    f.get (read.foldl Options.apply o).settings =
      ((read.filterMap f.sets?).getLast?).getD (f.get o.settings) := by
  induction read generalizing o with
  | nil => rfl
  | cons a read ih =>
    rw [List.foldl_cons, ih, get_apply]
    cases h : f.sets? a with
    | none => rw [List.filterMap_cons_none h, Option.getD_none]
    | some v => rw [List.filterMap_cons_some h, List.getLast?_cons, Option.getD_some,
        Option.getD_some]

/-- What an argument sets a setting to, as it is written. -/
def setBy? (f : Setting) (argument : String) : Option f.Value :=
  (Argument.read argument).toOption.bind f.sets?

theorem exists_of_setBy?_eq_some {f : Setting} {argument : String} {v : f.Value}
    (h : f.setBy? argument = some v) : ∃ a, Argument.Spelled argument a ∧ f.sets? a = some v := by
  obtain ⟨a, ha, hv⟩ := Option.bind_eq_some_iff.1 h
  refine ⟨a, Argument.spelled_of_read ?_, hv⟩
  cases hread : Argument.read argument with
  | error e => rw [hread] at ha; cases ha
  | ok b => rw [hread] at ha; exact congrArg Except.ok (Option.some.inj ha)

/-- Either it is always the option of one name, with its value, that sets a setting, or
whatever sets it sets it to the same. -/
theorem sets?_cases (f : Setting) :
    (∃ name ∈ valuedOptions, ∀ a v, f.sets? a = some v → a.name? = some name) ∨
      ∃ v, ∀ a w, f.sets? a = some w → w = v := by
  cases f with
  | width | height =>
    refine .inl ⟨"--board", by decide, fun a v h ↦ ?_⟩
    cases a <;> cases h
    rfl
  | turnLimit =>
    refine .inl ⟨"--turn-limit", by decide, fun a v h ↦ ?_⟩
    cases a <;> cases h
    rfl
  | unitFraction =>
    refine .inl ⟨"--unit-limit", by decide, fun a v h ↦ ?_⟩
    cases a <;> cases h
    rfl
  | seed =>
    refine .inl ⟨"--seed", by decide, fun a v h ↦ ?_⟩
    cases a <;> cases h
    rfl
  | unitHp =>
    refine .inr ⟨unitHp.get .default, fun a w h ↦ ?_⟩
    cases a <;> cases h
  | messages | pictures =>
    refine .inr ⟨false, fun a w h ↦ ?_⟩
    cases a <;> cases h <;> rfl
  | strict =>
    refine .inr ⟨true, fun a w h ↦ ?_⟩
    cases a <;> cases h
    rfl

theorem setBy?_cases (f : Setting) :
    (∃ name ∈ valuedOptions, ∀ argument v, f.setBy? argument = some v → isValued name argument) ∨
      ∃ v, ∀ argument w, f.setBy? argument = some w → w = v := by
  obtain ⟨name, hname, hnamed⟩ | ⟨v, hv⟩ := f.sets?_cases
  · refine .inl ⟨name, hname, fun argument v h ↦ ?_⟩
    obtain ⟨a, hspelled, hsets⟩ := exists_of_setBy?_eq_some h
    exact hspelled.isValued_of_name? (hnamed a v hsets)
  · refine .inr ⟨v, fun argument w h ↦ ?_⟩
    obtain ⟨a, -, hsets⟩ := exists_of_setBy?_eq_some h
    exact hv a w hsets

end Setting

/-! ## All arguments -/

section

variable {args args' : List String} {read : List Argument}

theorem filterMap_eq_of_forall₂ {α β γ : Type} {R : α → β → Prop} {g : α → Option γ}
    {h : β → Option γ} (hR : ∀ x y, R x y → h y = g x) {xs : List α} {ys : List β}
    (hxs : List.Forall₂ R xs ys) : ys.filterMap h = xs.filterMap g := by
  induction hxs with
  | nil => rfl
  | cons hxy _ ih => rw [List.filterMap_cons, List.filterMap_cons, hR _ _ hxy, ih]

theorem filterMap_filter_of_isSome {α β : Type} {p : α → Bool} {g : α → Option β}
    (hg : ∀ x y, g x = some y → p x = true) (xs : List α) :
    (xs.filter p).filterMap g = xs.filterMap g := by
  rw [List.filterMap_filter]
  refine congrArg (List.filterMap · xs) (funext fun x ↦ ?_)
  cases hx : g x with
  | none => exact ite_self none
  | some y => exact if_pos (hg x y hx)

theorem scripts_foldl_apply (o : Options) (read : List Argument) :
    (read.foldl Options.apply o).scripts = o.scripts ++ read.filterMap Argument.path? := by
  induction read generalizing o with
  | nil => exact (List.append_nil _).symm
  | cons a read ih =>
    rw [List.foldl_cons, ih]
    cases a with
    | script path => exact List.append_assoc _ [path] _
    | _ => rfl

/-- The same arguments in an order in which the scripts stand as before, and so do options
of the same name that have a value. -/
structure Reordered (args args' : List String) : Prop where
  perm : args'.Perm args
  scripts : args'.filter (!isOption ·) = args.filter (!isOption ·)
  valued : ∀ name ∈ valuedOptions, args'.filter (isValued name) = args.filter (isValued name)

theorem Reordered.symm (h : Reordered args args') : Reordered args' args :=
  ⟨h.perm.symm, h.scripts.symm, fun name hname ↦ (h.valued name hname).symm⟩

/-- A setting is set to the same, in the same order, unless the order does not matter. -/
theorem Reordered.filterMap_setBy?_eq (h : Reordered args args') (f : Setting) :
    args'.filterMap f.setBy? = args.filterMap f.setBy? := by
  obtain ⟨name, hname, hvalued⟩ | ⟨v, hv⟩ := f.setBy?_cases
  · rw [← filterMap_filter_of_isSome hvalued args', h.valued name hname,
      filterMap_filter_of_isSome hvalued args]
  · have hall : ∀ args : List String, ∀ w ∈ args.filterMap f.setBy?, w = v := by
      intro args w hw
      obtain ⟨argument, -, hsets⟩ := List.mem_filterMap.1 hw
      exact hv argument w hsets
    rw [List.eq_replicate_of_mem (hall args'), List.eq_replicate_of_mem (hall args),
      (h.perm.filterMap f.setBy?).length_eq]

namespace Options

theorem ofArguments_eq_ok_iff_forall₂ {o : Options} : ofArguments args = .ok o ↔
    ∃ read, List.Forall₂ (fun x a ↦ Argument.read x = .ok a) args read ∧
      read.foldl apply default = o := by
  simp only [ofArguments_eq_ok_iff, mapM_eq_ok_iff]

theorem exists_ofArguments_eq_ok_iff :
    (∃ o, ofArguments args = .ok o) ↔ ∀ x ∈ args, ∃ a, Argument.read x = .ok a := by
  rw [← exists_mapM_eq_ok_iff]
  constructor
  · rintro ⟨o, ho⟩
    obtain ⟨read, hread, -⟩ := ofArguments_eq_ok_iff.1 ho
    exact ⟨read, hread⟩
  · rintro ⟨read, hread⟩
    exact ⟨_, ofArguments_eq_ok_iff.2 ⟨read, hread, rfl⟩⟩

theorem ofArguments_eq_error_iff {reason : Misuse} :
    ofArguments args = .error reason ↔ args.mapM Argument.read = .error reason :=
  map_eq_error_iff

theorem exists_ofArguments_singleton_iff {argument : String} :
    (∃ o, ofArguments [argument] = .ok o) ↔ ∃ a, Argument.read argument = .ok a := by
  rw [exists_ofArguments_eq_ok_iff, List.forall_mem_singleton]

theorem ofArguments_singleton_eq_error_iff {argument : String} {reason : Misuse} :
    ofArguments [argument] = .error reason ↔ Argument.read argument = .error reason := by
  have hmap : [argument].mapM Argument.read = (Argument.read argument).map ([·]) := by
    rw [List.mapM_cons]
    cases Argument.read argument <;> rfl
  rw [ofArguments_eq_error_iff, hmap, map_eq_error_iff]

/-- The scripts are the arguments that are no options. -/
theorem scripts_of_ofArguments {o : Options} (h : ofArguments args = .ok o) :
    o.scripts = args.filter (!isOption ·) := by
  obtain ⟨read, hread, rfl⟩ := ofArguments_eq_ok_iff_forall₂.1 h
  have hpath : ∀ x a, Argument.read x = .ok a →
      a.path? = if isOption x then none else some x :=
    fun x a ha ↦ (Argument.spelled_of_read ha).path?_eq
  rw [scripts_foldl_apply, filterMap_eq_of_forall₂ hpath hread, ← List.filterMap_eq_filter]
  refine congrArg (List.filterMap · args) (funext fun x ↦ ?_)
  cases hx : isOption x with
  | false => rw [Option.guard, hx]; rfl
  | true => rw [Option.guard, hx]; rfl

/-- Each setting is what the last argument that names it sets it to. -/
theorem get_of_ofArguments {o : Options} (h : ofArguments args = .ok o) (f : Setting) :
    f.get o.settings = ((args.filterMap f.setBy?).getLast?).getD (f.get .default) := by
  obtain ⟨read, hread, rfl⟩ := ofArguments_eq_ok_iff_forall₂.1 h
  have hsets : ∀ x a, Argument.read x = .ok a → f.sets? a = f.setBy? x := by
    intro x a ha
    rw [Setting.setBy?, ha]
    rfl
  rw [f.get_foldl_apply, filterMap_eq_of_forall₂ hsets hread]
  rfl

/-- A reordering is read like the arguments it comes from. -/
theorem ofArguments_eq_ok_of_reordered {o : Options} (hre : Reordered args args')
    (h : ofArguments args = .ok o) : ofArguments args' = .ok o := by
  have hall : ∀ x ∈ args', ∃ a, Argument.read x = .ok a := fun x hx ↦
    exists_ofArguments_eq_ok_iff.1 ⟨o, h⟩ x (hre.perm.mem_iff.1 hx)
  obtain ⟨o', h'⟩ := exists_ofArguments_eq_ok_iff.2 hall
  have hscripts : o'.scripts = o.scripts := by
    rw [scripts_of_ofArguments h', scripts_of_ofArguments h, hre.scripts]
  have hsettings : o'.settings = o.settings := by
    refine Setting.get_inj fun f ↦ ?_
    rw [get_of_ofArguments h', get_of_ofArguments h, hre.filterMap_setBy?_eq]
  cases o
  cases o'
  cases hscripts
  cases hsettings
  exact h'

/-- If the same argument comes first of those that cannot be read, there is no difference at
all. -/
theorem ofArguments_eq_of_reordered (hre : Reordered args args')
    (hfirst : args'.find? isUnreadable = args.find? isUnreadable) :
    ofArguments args' = ofArguments args := by
  cases h : ofArguments args with
  | ok o => exact ofArguments_eq_ok_of_reordered hre h
  | error reason =>
    rw [ofArguments_eq_error_iff, mapM_eq_error_iff_find?] at h ⊢
    obtain ⟨x, hx, hread⟩ := h
    exact ⟨x, hfirst.trans hx, hread⟩

/-- Arguments are read one by one: together they can be read if each of them can be read
alone, and otherwise the first that cannot is to blame.  Those that are no options are the
scripts, and each setting is what the last option that names it has set it to.  So the
options of a match do not depend on the order of the arguments, but for the order of the
scripts and of options with the same name and a value; all that the order decides besides is
which one is to blame where several cannot be read, and if that one is the same then so is
the outcome. -/
theorem ofArguments_one_by_one (args : List String) :
    ((∃ o, ofArguments args = .ok o) ↔ ∀ x ∈ args, ∃ o, ofArguments [x] = .ok o) ∧
    (∀ reason, ofArguments args = .error reason ↔
      ∃ before x after, args = before ++ x :: after ∧
        (∀ b ∈ before, ∃ o, ofArguments [b] = .ok o) ∧ ofArguments [x] = .error reason) ∧
    (∀ o, ofArguments args = .ok o →
      o.scripts = args.filter (!isOption ·) ∧
      ∃ read, List.Forall₂ Argument.Spelled args read ∧
        ∀ f : Setting,
          f.get o.settings = ((read.filterMap f.sets?).getLast?).getD (f.get .default)) ∧
    ∀ args', Reordered args args' →
      (∀ o, ofArguments args' = .ok o ↔ ofArguments args = .ok o) ∧
      (args'.find? isUnreadable = args.find? isUnreadable →
        ofArguments args' = ofArguments args) := by
  refine ⟨?_, fun reason ↦ ?_, fun o ho ↦ ⟨scripts_of_ofArguments ho, ?_⟩,
    fun args' hre ↦ ⟨fun o ↦ ?_, ofArguments_eq_of_reordered hre⟩⟩
  · simp only [exists_ofArguments_eq_ok_iff, List.forall_mem_singleton]
  · simp only [exists_ofArguments_singleton_iff, ofArguments_singleton_eq_error_iff]
    exact ofArguments_eq_error_iff.trans mapM_eq_error_iff
  · obtain ⟨read, hread, rfl⟩ := ofArguments_eq_ok_iff_forall₂.1 ho
    exact ⟨read, hread.imp fun x a ↦ Argument.spelled_of_read,
      fun f ↦ f.get_foldl_apply default read⟩
  · exact ⟨ofArguments_eq_ok_of_reordered hre.symm, ofArguments_eq_ok_of_reordered hre⟩

/-- Two seeds, two scripts and a flag: with the flag put first and the second script
between the seeds, the outcome is the same, and the second seed is the one that counts. -/
theorem ofArguments_one_by_one_seeds :
    ∃ o, ofArguments ["a.bot", "--seed=1", "--seed=7", "b.bot", "-q"] = .ok o ∧
      ofArguments ["-q", "a.bot", "--seed=1", "b.bot", "--seed=7"] = .ok o ∧
      o.scripts = ["a.bot", "b.bot"] ∧ o.settings.seed = some 7 := by
  have hread : ∃ o, ofArguments ["a.bot", "--seed=1", "--seed=7", "b.bot", "-q"] = .ok o :=
    ⟨_, rfl⟩
  have hreordered : Reordered ["a.bot", "--seed=1", "--seed=7", "b.bot", "-q"]
      ["-q", "a.bot", "--seed=1", "b.bot", "--seed=7"] := ⟨by decide, rfl, by decide⟩
  obtain ⟨o, ho⟩ := hread
  obtain ⟨-, -, hvalues, horder⟩ :=
    ofArguments_one_by_one ["a.bot", "--seed=1", "--seed=7", "b.bot", "-q"]
  refine ⟨o, ho, ((horder _ hreordered).1 o).2 ho, (hvalues o ho).1.trans rfl, ?_⟩
  cases ho
  rfl

end Options

end

end Skirmish.CommandLine
