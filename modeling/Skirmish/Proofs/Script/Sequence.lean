/-!
# Work in sequence

Compiling and running are both work that can end early and still has its effect.
What such work comes to, when one part follows another, is said here for both.
-/

namespace Skirmish.Script

variable {ε S α β γ : Type}

/-- The second part goes on from where the first one ended, unless that failed. -/
theorem run_bind (x : ExceptT ε (StateM S) α) (f : α → ExceptT ε (StateM S) β) (s : S) :
    (x >>= f).run s =
      match x.run s with
      | (.ok a, s') => (f a).run s'
      | (.error e, s') => (.error e, s') := by
  change (match x.run s with
    | (r, s') => ExceptT.bindCont f r s') = _
  rcases x.run s with ⟨e | a, s'⟩ <;> rfl

theorem run_bind_eq_ok_iff {x : ExceptT ε (StateM S) α} {f : α → ExceptT ε (StateM S) β} {s s' : S}
    {b : β} :
    (x >>= f).run s = (.ok b, s') ↔
      ∃ a middle, x.run s = (.ok a, middle) ∧ (f a).run middle = (.ok b, s') := by
  rw [run_bind]
  rcases x.run s with ⟨e | a, middle⟩
  · constructor
    · intro h
      cases h
    · rintro ⟨a, _, h, -⟩
      cases h
  · constructor
    · intro h
      exact ⟨a, middle, rfl, h⟩
    · rintro ⟨_, _, h, hf⟩
      cases h
      exact hf

/-- Two parts of work, their results put together.  The second part goes on from
where the first one ended, and is not even begun if that failed. -/
def inSequence (first : S → Except ε α × S) (second : S → Except ε β × S) (join : α → β → γ)
    (s : S) : Except ε γ × S :=
  match first s with
  | (.error e, s') => (.error e, s')
  | (.ok a, s') =>
    match second s' with
    | (.error e, s'') => (.error e, s'')
    | (.ok b, s'') => (.ok (join a b), s'')

theorem run_eq_inSequence (x : ExceptT ε (StateM S) α) (y : ExceptT ε (StateM S) β)
    (join : α → β → γ) :
    (do let a ← x; let b ← y; return join a b : ExceptT ε (StateM S) γ).run =
      inSequence x.run y.run join := by
  funext s
  rw [run_bind, inSequence]
  rcases x.run s with ⟨e | a, s'⟩
  · rfl
  · dsimp only
    rw [run_bind]
    rcases y.run s' with ⟨e | b, s''⟩ <;> rfl

end Skirmish.Script
