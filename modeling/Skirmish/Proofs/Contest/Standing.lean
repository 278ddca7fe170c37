import Skirmish.Contest.Outcome
import Skirmish.Proofs.Arena.Acting
import Skirmish.Proofs.Arena.Counting

/-!
# How players stand

What an outcome says, in terms of the units on the board: `countOf` counts the
units of a player without looking at the lists of the players.

Main statement: judged by a settled board, the outcome names the one player who
has units, or those of several who have the most (`ofPlayers_settled`).
-/

namespace Skirmish.Arena.Board

variable {ρ : Type} {b : Board ρ}

/-- At least two players have units. -/
def HasRivals (b : Board ρ) : Prop := ∃ p q, p ≠ q ∧ 1 ≤ b.countOf p ∧ 1 ≤ b.countOf q

theorem Settled.one_le_countOf {players : List PlayerId} (h : b.Settled players) {p : Player}
    (hp : p ∈ b.players) : 1 ≤ b.countOf p.id := by
  rw [← h.coherent.length_units hp]
  exact List.length_pos_iff.2 (h.populated p hp)

/-- Where two players are left, both have units. -/
theorem Settled.hasRivals {players : List PlayerId} (h : b.Settled players)
    (hlen : 2 ≤ b.players.length) : b.HasRivals := by
  have hn := h.coherent.players_nodup
  match hp : b.players with
  | [] => simp [hp] at hlen
  | [p] => simp [hp] at hlen
  | p :: q :: rest =>
    rw [hp, List.map_cons, List.map_cons, List.nodup_cons] at hn
    refine ⟨p.id, q.id, fun e ↦ hn.1 (e ▸ List.mem_cons_self), ?_, ?_⟩
    · exact h.one_le_countOf (by simp [hp])
    · exact h.one_le_countOf (by simp [hp])

end Skirmish.Arena.Board

namespace Skirmish.Contest.Outcome

open Arena

variable {players : List Player}

/-- The most units are the number of somebody's units, and nobody has more. -/
theorem mostUnits_spec (h : players ≠ []) :
    (∃ p ∈ players, p.units.length = mostUnits players) ∧
      ∀ p ∈ players, p.units.length ≤ mostUnits players := by
  unfold mostUnits
  cases hm : (players.map (·.units.length)).max? with
  | none => exact absurd (List.map_eq_nil_iff.1 (List.max?_eq_none_iff.1 hm)) h
  | some units =>
    obtain ⟨hmem, hle⟩ := List.max?_eq_some_iff.1 hm
    exact ⟨List.mem_map.1 hmem, fun p hp ↦ hle _ (List.mem_map_of_mem hp)⟩

/-- One player has won; among several, one leads or some of them share the lead. -/
theorem ofPlayers_cases (h : players ≠ []) :
    (∃ p, players = [p] ∧ ofPlayers players = winner p.id p.units.length) ∨
    2 ≤ players.length ∧
      ((∃ id, havingUnits (mostUnits players) players = [id] ∧
          ofPlayers players = leader id (mostUnits players)) ∨
        2 ≤ (havingUnits (mostUnits players) players).length ∧
          ofPlayers players =
            tie (havingUnits (mostUnits players) players) (mostUnits players)) := by
  obtain ⟨q, hq, hmost⟩ := (mostUnits_spec h).1
  have hmem : q.id ∈ havingUnits (mostUnits players) players :=
    List.mem_map_of_mem (List.mem_filter.2 ⟨hq, by simpa using hmost⟩)
  match players with
  | [] => contradiction
  | [p] => exact .inl ⟨p, rfl, rfl⟩
  | p :: r :: rest =>
    refine .inr ⟨by simp, ?_⟩
    unfold ofPlayers
    dsimp only
    split
    next id hid => exact .inl ⟨id, hid, rfl⟩
    next hne =>
      refine .inr ⟨?_, rfl⟩
      match hl : havingUnits (mostUnits (p :: r :: rest)) (p :: r :: rest) with
      | [] =>
        rw [hl] at hmem
        cases hmem
      | [id] => exact absurd hl (hne id)
      | _ :: _ :: _ => simp

/-! ## Outcomes of boards -/

section Board

variable {ρ : Type} {b : Board ρ} {ids : List PlayerId}

/-- The players who are listed with so many units are those who have them on the
board, in the order of all players. -/
theorem havingUnits_eq (h : b.Settled ids) (hn : ids.Nodup) {units : Nat} (hu : 1 ≤ units) :
    havingUnits units b.players = ids.filter (b.countOf · == units) := by
  have hlisted : havingUnits units b.players =
      (b.players.map (·.id)).filter (b.countOf · == units) := by
    rw [havingUnits, List.filter_map]
    refine congrArg _ (List.filter_congr fun p hp ↦ ?_)
    rw [h.coherent.length_units hp, Function.comp]
  rw [hlisted, ← filter_mem_of_sublist h.players hn, List.filter_filter]
  refine List.filter_congr fun id _ ↦ ?_
  by_cases hid : b.countOf id = units
  · obtain ⟨p, hp, rfl⟩ := h.coherent.exists_player (hid ▸ hu)
    simp [hid, List.mem_map_of_mem hp]
  · simp [hid]

/-- The outcome of a settled board, in terms of the units on it. -/
theorem ofPlayers_settled (h : b.Settled ids) (hn : ids.Nodup) :
    (∃ id, ofPlayers b.players = winner id (b.countOf id) ∧ 1 ≤ b.countOf id ∧
      ∀ other, 1 ≤ b.countOf other → other = id) ∨
    (2 ≤ b.players.length ∧ ∃ units, 1 ≤ units ∧ (∀ id, b.countOf id ≤ units) ∧
      ((∃ id, ids.filter (b.countOf · == units) = [id] ∧ ofPlayers b.players = leader id units) ∨
        (2 ≤ (ids.filter (b.countOf · == units)).length ∧
          ofPlayers b.players = tie (ids.filter (b.countOf · == units)) units))) := by
  obtain ⟨p, hp, ho⟩ | ⟨hlen, hcases⟩ := ofPlayers_cases h.players_ne_nil
  · have hmem : p ∈ b.players := by simp [hp]
    refine .inl ⟨p.id, ?_, h.one_le_countOf hmem, ?_⟩
    · rw [ho, h.coherent.length_units hmem]
    · intro other hother
      obtain ⟨q, hq, rfl⟩ := h.coherent.exists_player hother
      rw [hp, List.mem_singleton] at hq
      rw [hq]
  · obtain ⟨⟨q, hq, hmost⟩, hle⟩ := mostUnits_spec h.players_ne_nil
    have hpos : 1 ≤ mostUnits b.players := by
      rw [← hmost, h.coherent.length_units hq]
      exact h.one_le_countOf hq
    refine .inr ⟨hlen, mostUnits b.players, hpos, ?_, ?_⟩
    · intro id
      by_cases hid : 1 ≤ b.countOf id
      · obtain ⟨p, hp, rfl⟩ := h.coherent.exists_player hid
        exact h.coherent.length_units hp ▸ hle p hp
      · omega
    · rw [← havingUnits_eq h hn hpos]
      exact hcases

end Board

end Skirmish.Contest.Outcome
