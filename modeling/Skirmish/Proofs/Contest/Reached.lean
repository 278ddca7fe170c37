import Skirmish.Proofs.Contest.Opening

/-!
# Matches that can be reached

A match is set up, and then played on, turn by turn or to its end, whatever
comes of it.  What all parts of a turn keep of a board (`Lasting`) therefore
holds in every match that can be reached, if it holds of the opening
(`Lasting.of_reached`).
-/

namespace Skirmish.Contest

open Arena Script Skirmish.Random

variable {ρ : Type} [WordSource ρ]

namespace Match

/-- The matches that can be reached. -/
inductive Reached : Match ρ → Prop
  | setUp {settings : Settings} {entries : List Entry} {rng : ρ} {m : Match ρ}
    (h : setUp settings entries rng = .ok m) : Reached m
  /-- A turn is played, be it one that stops the match. -/
  | playTurn {m : Match ρ} (h : Reached m) : Reached m.playTurn.2
  | play {m : Match ρ} (h : Reached m) : Reached m.play.2

/-! ## What a turn keeps -/

section Keeps

variable {Q : Match ρ → Prop} {m : Match ρ}

/-- What a turn keeps, be it one that stops the match, any number of turns keeps. -/
theorem playTurns_keeps (hturn : ∀ m, Q m → Q m.playTurn.2) (turns : Nat) (h : Q m) :
    Q (m.playTurns turns).2 := by
  induction turns generalizing m with
  | zero => exact h
  | succ turns ih =>
    have hnext := hturn m h
    unfold playTurns
    split
    · exact h
    · split
      next hp =>
        rw [hp] at hnext
        exact hnext
      next hp =>
        rw [hp] at hnext
        exact ih hnext

/-- What a turn keeps, and the announcement of the outcome too, playing to the end
keeps. -/
theorem play_keeps (hturn : ∀ m, Q m → Q m.playTurn.2)
    (hannounce : ∀ m line, Q m → Q (m.announce line)) (h : Q m) : Q m.play.2 := by
  have hturns := playTurns_keeps hturn (m.settings.turnLimit - m.turns) h
  unfold play
  split
  next hp =>
    rw [hp] at hturns
    exact hturns
  next hp =>
    rw [hp] at hturns
    exact hannounce _ _ hturns

end Keeps

/-- What every part of a turn keeps of a board. -/
structure Lasting (P : Board ρ → Prop) : Prop where
  beginTurn : ∀ b, P b → P b.beginTurn.2
  perform : ∀ (s : Scene ρ) (id : Serial) (c : Command) (args : List Value),
    P s.board → P (s.perform id c args).2.board
  /-- The unit gets its variables back. -/
  bind : ∀ b id bindings, P b → P (b.updateUnit id fun v ↦ { v with bindings })
  endTurn : ∀ b, P b → P b.endTurn
  removeEliminated : ∀ b, P b → P b.removeEliminated.2

namespace Lasting

variable {P : Board ρ → Prop} {m : Match ρ}

theorem runScript (hP : Lasting P) (h : P m.board) (u : Fighter) : P (m.runScript u).2.board :=
  runScript_keeps (fun s ↦ hP.perform s u.serial) (fun b ↦ hP.bind b u.serial) h

theorem act (hP : Lasting P) (h : P m.board) (u : Fighter) : P (m.act u).2.board := by
  have hended : P (m.ended u).board := hP.endTurn _ (hP.runScript (m := m.ready u) h u)
  obtain ⟨m', hb, -, e | ⟨-, fault, e⟩⟩ := m.act_cases u
  · rw [e, board_sayFarewell, board_picture, hb]
    exact hP.removeEliminated _ hended
  · rw [e, hb]
    exact hended

theorem playTurn (hP : Lasting P) (h : P m.board) : P m.playTurn.2.board := by
  have hbegin := hP.beginTurn _ h
  unfold Match.playTurn
  split
  next hb =>
    rw [hb] at hbegin
    exact hbegin
  next hb =>
    rw [hb] at hbegin
    exact hbegin
  next id b hb =>
    rw [hb] at hbegin
    dsimp only
    split
    · exact hP.endTurn _ hbegin
    · exact hP.act (m := m.withBoard b) hbegin _

theorem play (hP : Lasting P) (h : P m.board) : P m.play.2.board :=
  play_keeps (Q := fun m ↦ P m.board) (fun _ ↦ hP.playTurn) (fun _ _ h ↦ h) h

/-- What every part of a turn keeps holds in every match that can be reached, if it
holds of boards on which a match can begin. -/
theorem of_reached (hP : Lasting P)
    (hopening : ∀ (settings : Settings) (torus : Torus) (n : Nat) (rng : ρ), 3 ≤ torus.rows →
      3 ≤ torus.cols → P (openingBoard settings torus n rng).2)
    (h : m.Reached) : P m.board := by
  induction h with
  | @setUp settings entries rng m h =>
    obtain ⟨-, -, hr, hb⟩ := setUp_eq_ok h
    obtain ⟨hcols, hrows⟩ := Settings.three_le_sides hr
    have := hopening settings (settings.torus hr) entries.length rng hrows hcols
    rwa [hb] at this
  | playTurn _ ih => exact hP.playTurn ih
  | play _ ih => exact hP.play ih

end Lasting

theorem lasting_coherent : Lasting (Board.Coherent (ρ := ρ)) where
  beginTurn _ h := h.beginTurn
  perform _ id c args h := Scene.coherent_perform h id c args
  bind _ id _ h := h.updateUnit id fun _ ↦ rfl
  endTurn _ h := h.endTurn
  removeEliminated _ h := h.removeEliminated

theorem lasting_rules (Q : Torus × Nat × Int64 → Prop) : Lasting fun b : Board ρ ↦ Q b.rules where
  beginTurn _ h := by rwa [Board.rules_beginTurn]
  perform _ _ _ _ h := by rwa [Scene.rules_perform]
  bind _ _ _ h := by rwa [Board.rules_updateUnit]
  endTurn _ h := by rwa [Board.rules_endTurn]
  removeEliminated _ h := by rwa [Board.rules_removeEliminated]

theorem Reached.coherent {m : Match ρ} (h : m.Reached) : m.board.Coherent :=
  lasting_coherent.of_reached (fun _ _ _ _ _ _ ↦ coherent_openingBoard _ _ _ _) h

/-- The board of a match has eight different tiles around every one. -/
theorem Reached.three_le_sides {m : Match ρ} (h : m.Reached) :
    3 ≤ m.board.torus.rows ∧ 3 ≤ m.board.torus.cols :=
  (lasting_rules fun r ↦ 3 ≤ r.1.rows ∧ 3 ≤ r.1.cols).of_reached
    (fun settings torus n rng hrows hcols ↦ by
      rw [rules_openingBoard]
      exact ⟨hrows, hcols⟩) h

end Match

end Skirmish.Contest
