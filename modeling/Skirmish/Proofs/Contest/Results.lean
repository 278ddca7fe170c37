import Skirmish.Proofs.Contest.Opening
import Skirmish.Proofs.Contest.Standing

/-!
# How matches end

Main statement: a match that can be set up ends within its limit of turns, and
its outcome says what the units on the board say (`play_law`).
-/

namespace Skirmish.Contest.Match

open Arena Skirmish.Random

variable {ρ : Type}

/-- A match with rivals only ends when all turns have been played. -/
theorem turns_eq_of_isOver {players : List PlayerId} {m : Match ρ} (h : m.Underway players)
    (ho : m.isOver = true) (hlen : 2 ≤ m.board.players.length) :
    m.turns = m.settings.turnLimit := by
  have hwaiting : m.board.queue.waiting ≠ [] := by
    obtain ⟨p, -, -, hp, -⟩ := h.settled.hasRivals hlen
    obtain ⟨u, hu⟩ := List.exists_mem_of_length_pos hp
    exact List.ne_nil_of_mem
      ((h.settled.coherent.mem_waiting u.serial).2 ⟨u, (List.mem_filter.1 hu).1, rfl⟩)
  have hle := h.turns_le
  simp only [isOver, Bool.or_eq_true, decide_eq_true_eq, List.isEmpty_iff, hwaiting, or_false] at ho
  omega

variable [WordSource ρ]

/-- A match that can be set up, with players who can have units, ends within its
limit of turns.  It fails to have an outcome only through a fault of a script
where the settings are strict.  The outcome, if there is one, says the truth
about the units on the board:

* somebody has won if and only if nobody else has units;
* somebody leads, or several are tied, only when all turns have been played and
  there are rivals, and then they are those who have the most units, in the order
  of the players. -/
theorem play_law {settings : Settings} {entries : List Entry} {rng : ρ} {m : Match ρ}
    (h : setUp settings entries rng = .ok m) (hlimit : 1 ≤ settings.unitLimit) :
    (∃ turns ≤ settings.turnLimit, m.Ends turns m.play) ∧
    (∀ e, m.play.1 = .error e →
      settings.strict = true ∧ ∃ player unit fault, e = .script player unit fault) ∧
    ∀ outcome, m.play.1 = .ok outcome →
      let b := m.play.2.board
      (∀ p units, outcome = .winner p units ↔
        1 ≤ units ∧ b.countOf p = units ∧ ∀ q, 1 ≤ b.countOf q → q = p) ∧
      (∀ p units, outcome = .leader p units →
        b.queue.turns = settings.turnLimit ∧ b.HasRivals ∧ 1 ≤ units ∧
          (∀ q, b.countOf q ≤ units) ∧
          (entrants entries.length).filter (b.countOf · == units) = [p]) ∧
      (∀ ps units, outcome = .tie ps units →
        b.queue.turns = settings.turnLimit ∧ b.HasRivals ∧ 1 ≤ units ∧
          (∀ q, b.countOf q ≤ units) ∧
          (entrants entries.length).filter (b.countOf · == units) = ps ∧ 2 ≤ ps.length) ∧
      outcome ≠ .noSurvivors := by
  have hm := underway_of_setUp h hlimit
  obtain ⟨rfl, -, -⟩ := setUp_eq_ok h
  obtain ⟨hends, herror, hok⟩ := play_ends hm
  refine ⟨hends, herror, ?_⟩
  intro outcome ho
  obtain ⟨rfl, hs, hover, hu⟩ := hok outcome ho
  have hlaw := Outcome.ofPlayers_settled hu.settled (nodup_entrants entries.length)
  obtain ⟨id, hid, hpos, honly⟩ | ⟨hlen, units, hpos, hmost, hcases⟩ := hlaw
  · have hid : m.play.2.outcome = .winner id (m.play.2.board.countOf id) := hid
    rw [hid]
    refine ⟨?_, nofun, nofun, nofun⟩
    intro p units
    constructor
    · rintro ⟨⟩
      exact ⟨hpos, rfl, honly⟩
    · rintro ⟨-, rfl, hp⟩
      rw [hp id hpos]
  · have hturns : m.play.2.board.queue.turns = m.settings.turnLimit :=
      (turns_eq_of_isOver hu hover hlen).trans (by rw [hs])
    have hrivals := hu.settled.hasRivals hlen
    have hnobody : ∀ p, ¬∀ q, 1 ≤ m.play.2.board.countOf q → q = p := by
      intro p hp
      obtain ⟨q, r, hne, hq, hr⟩ := hrivals
      exact hne ((hp q hq).trans (hp r hr).symm)
    obtain ⟨id, hlead, hid⟩ | ⟨htwo, hid⟩ := hcases
    · have hid : m.play.2.outcome = .leader id units := hid
      rw [hid]
      refine ⟨?_, ?_, nofun, nofun⟩
      · intro p k
        exact iff_of_false nofun fun hw ↦ hnobody p hw.2.2
      rintro _ _ ⟨⟩
      exact ⟨hturns, hrivals, hpos, hmost, hlead⟩
    · have hid : m.play.2.outcome = .tie _ units := hid
      rw [hid]
      refine ⟨?_, nofun, ?_, nofun⟩
      · intro p k
        exact iff_of_false nofun fun hw ↦ hnobody p hw.2.2
      rintro _ _ ⟨⟩
      exact ⟨hturns, hrivals, hpos, hmost, rfl, htwo⟩

/-- Two scripts on a small board, and two turns to play. -/
def duel : Except SetupError (Match Xoshiro) :=
  setUp ⟨3, 3, 2, 0.5, 1, false, false, none, false⟩ [⟨"first", "move()"⟩, ⟨"second", "wait()"⟩]
    (Xoshiro.ofSeed 0)

/-- Nobody is hit in the duel, and both players have one unit in the end. -/
theorem play_law_duel : ∃ m, duel = .ok m ∧ (∃ turns ≤ 2, m.Ends turns m.play) ∧
    m.play.1 = .ok (.tie [.ofIndex 0, .ofIndex 1] 1) ∧ m.play.2.board.queue.turns = 2 ∧
      ∀ player, m.play.2.board.countOf player ≤ 1 := by
  have hplay : duel.toOption.bind (·.play.1.toOption) =
      some (.tie [.ofIndex 0, .ofIndex 1] 1) := by decide +kernel
  cases hm : duel with
  | error e => simp [hm, Except.toOption] at hplay
  | ok m =>
    have htie : m.play.1 = .ok (.tie [.ofIndex 0, .ofIndex 1] 1) := by
      rw [hm] at hplay
      cases hr : m.play.1 with
      | error e => simp [hr, Except.toOption] at hplay
      | ok o => simpa [hr, Except.toOption] using hplay
    obtain ⟨hends, -, hlaw⟩ := play_law hm (by decide +kernel)
    obtain ⟨hturns, -, -, hmost, -⟩ := (hlaw _ htie).2.2.1 _ _ rfl
    exact ⟨m, rfl, hends, htie, hturns, hmost⟩

end Skirmish.Contest.Match
