import Mathlib.Data.List.Forall2
import Skirmish.Proofs.Script.Sequence

/-!
# Work side by side

Two pieces of work that begin in states that are related end in related states,
and either both fail in the same way or both succeed, with results that are
related (`Alongside`).  States, results and the work itself can be of different
kinds; what is related to what is said by the parameters.
-/

namespace Skirmish.Script

variable {ε σ τ α β α' β' : Type}

/-- Both fail with the same error, or both succeed, and the results are related. -/
inductive EndsAlike (P : α → β → Prop) : Except ε α → Except ε β → Prop
  | ok {a : α} {b : β} (h : P a b) : EndsAlike P (.ok a) (.ok b)
  | error (e : ε) : EndsAlike P (.error e) (.error e)

theorem EndsAlike.imp {P Q : α → β → Prop} {x : Except ε α} {y : Except ε β}
    (h : EndsAlike P x y) (hPQ : ∀ a b, P a b → Q a b) : EndsAlike Q x y := by
  cases h with
  | ok h => exact .ok (hPQ _ _ h)
  | error e => exact .error e

theorem EndsAlike.of_option {P : α → β → Prop} {x : Option α} {y : Option β}
    (h : Option.Rel P x y) (e : ε) :
    EndsAlike P (x.elim (.error e) .ok) (y.elim (.error e) .ok) := by
  cases h with
  | some h => exact .ok h
  | none => exact .error e

theorem EndsAlike.error_iff {P : α → β → Prop} {x : Except ε α} {y : Except ε β}
    (h : EndsAlike P x y) (e : ε) : x = .error e ↔ y = .error e := by
  cases h with
  | ok h => exact iff_of_false nofun nofun
  | error e' => rw [Except.error.injEq, Except.error.injEq]

theorem endsAlike_eq_iff {x y : Except ε α} : EndsAlike Eq x y ↔ x = y := by
  constructor
  · rintro (⟨⟨⟩⟩ | e) <;> rfl
  · rintro rfl
    cases x with
    | ok a => exact .ok rfl
    | error e => exact .error e

/-- Two pieces of work that end alike when they begin in related states. -/
def Alongside (S : σ → τ → Prop) (P : α → β → Prop) (x : ExceptT ε (StateM σ) α)
    (y : ExceptT ε (StateM τ) β) : Prop :=
  ∀ s t, S s t → EndsAlike P (x.run s).1 (y.run t).1 ∧ S (x.run s).2 (y.run t).2

namespace Alongside

variable {S : σ → τ → Prop} {P : α → β → Prop} {x : ExceptT ε (StateM σ) α}
  {y : ExceptT ε (StateM τ) β}

theorem pure {a : α} {b : β} (h : P a b) :
    Alongside S P (Pure.pure a : ExceptT ε (StateM σ) α) (Pure.pure b) :=
  fun _ _ hst ↦ ⟨.ok h, hst⟩

theorem throw (e : ε) :
    Alongside S P (MonadExcept.throw e : ExceptT ε (StateM σ) α) (MonadExcept.throw e) :=
  fun _ _ hst ↦ ⟨.error e, hst⟩

theorem imp {Q : α → β → Prop} (h : Alongside S P x y) (hPQ : ∀ a b, P a b → Q a b) :
    Alongside S Q x y := fun s t hst ↦ ⟨(h s t hst).1.imp hPQ, (h s t hst).2⟩

theorem bind {Q : α' → β' → Prop} {f : α → ExceptT ε (StateM σ) α'}
    {g : β → ExceptT ε (StateM τ) β'} (hxy : Alongside S P x y)
    (hfg : ∀ a b, P a b → Alongside S Q (f a) (g b)) : Alongside S Q (x >>= f) (y >>= g) := by
  intro s t hst
  obtain ⟨hr, hst'⟩ := hxy s t hst
  rw [run_bind, run_bind]
  rcases hx : x.run s with ⟨r, s'⟩
  rcases hy : y.run t with ⟨r', t'⟩
  rw [hx, hy] at hr hst'
  cases hr with
  | ok h => exact hfg _ _ h s' t' hst'
  | error e => exact ⟨.error e, hst'⟩

theorem mapM {ι κ : Type} {f : ι → ExceptT ε (StateM σ) α} {g : κ → ExceptT ε (StateM τ) β}
    {xs : List ι} {ys : List κ}
    (h : List.Forall₂ (fun x y ↦ Alongside S P (f x) (g y)) xs ys) :
    Alongside S (List.Forall₂ P) (xs.mapM f) (ys.mapM g) := by
  induction h with
  | nil =>
    rw [List.mapM_nil, List.mapM_nil]
    exact .pure .nil
  | cons h _ ih =>
    rw [List.mapM_cons, List.mapM_cons]
    exact h.bind fun a b hab ↦ ih.bind fun as bs habs ↦ .pure (.cons hab habs)

end Alongside

end Skirmish.Script
