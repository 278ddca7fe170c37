import Skirmish.Proofs.Contest.Transcript
import Skirmish.Proofs.Contest.Turns

/-!
# Strict matches

Whether a match is strict is only asked when a script has failed.  Until then a
strict match and a lenient one are the same, turn by turn (`playTurn_ok_or_fails`);
when a script fails, the strict one stops where the lenient one goes on.

Main statement: a strict match is the lenient one cut off at the first fault of a
script (`strict_cuts_lenient`).
-/

namespace Skirmish.Contest

open Arena Script Skirmish.Random

/-- The settings with a policy for faults of scripts. -/
def Settings.withPolicy (s : Settings) (strict : Bool) : Settings := { s with strict }

namespace Match

variable {ρ : Type}

/-- The match with a policy for faults of scripts. -/
def withPolicy (m : Match ρ) (strict : Bool) : Match ρ :=
  { m with settings := m.settings.withPolicy strict }

theorem close_withPolicy (m : Match ρ) (strict : Bool) :
    (m.withPolicy strict).picture.sayFarewell = m.picture.sayFarewell.withPolicy strict := by
  rw [sayFarewell_eq, sayFarewell_eq]
  rfl

variable [WordSource ρ]

theorem setUp_withPolicy (settings : Settings) (strict : Bool) (entries : List Entry) (rng : ρ) :
    setUp (settings.withPolicy strict) entries rng =
      (setUp settings entries rng).map (·.withPolicy strict) := by
  rw [setUp_map (f := (·.withPolicy strict)) (fun s ↦ ⟨s.messages, s.pictures, strict, rfl⟩)]
  cases h : setUp settings entries rng with
  | error e => rfl
  | ok m =>
    obtain ⟨hs, -, hc⟩ := fresh_of_setUp h
    rw [← hs] at hc
    have hscene : (⟨m.board, .new m.settings.messages m.settings.messages m.settings.pictures⟩ :
        Scene ρ) = m.scene := by
      rw [← hc]
      rfl
    exact congrArg (fun scene ↦ Except.ok { m.withPolicy strict with scene }) hscene

/-! ## One turn -/

/-- The next turn is that of the unit, and its script fails. -/
structure FailsWith (m : Match ρ) (u : Fighter) (fault : Fault) : Prop where
  front : ∃ rest, m.board.queue.waiting = u.serial :: rest
  unit : m.board.unit? u.serial = some u
  fails : (m.scriptRun u).1 = .error fault

/-- When a turn is started, the unit is made ready for the run of its script. -/
theorem ready_of_front {m : Match ρ} (h : m.board.Coherent) {u : Fighter} {rest : List Serial}
    (hq : m.board.queue.waiting = u.serial :: rest) (hu : m.board.unit? u.serial = some u) :
    ∃ u' : Fighter, u'.serial = u.serial ∧ u'.owner = u.owner ∧
      m.board.beginTurn.1 = .ok (some u'.serial) ∧
      m.board.beginTurn.2.unit? u'.serial = some u' ∧
      (((m.withBoard m.board.beginTurn.2).ready u').runScript u').1 = (m.scriptRun u).1 ∧
      ((m.withBoard m.board.beginTurn.2).ended u').turns = m.turns + 1 := by
  obtain ⟨u', hits, born, -, -, -, hbindings, hbegin⟩ := h.touches_beginTurn hq hu
  obtain ⟨hok, hacting⟩ := h.acting_beginTurn hq hu
  have hu' := hbegin.after
  rw [← hbegin.serial] at hok hu' hacting
  rw [← hbegin.owner] at hacting
  have hready : (m.withBoard m.board.beginTurn.2).ready u' =
      (m.withBoard m.board.beginTurn.2).ready u := by
    simp only [ready, hbegin.serial]
  refine ⟨u', hbegin.serial, hbegin.owner, hok, hu', ?_, ?_⟩
  · rw [hready, runScript, scriptRun, hbegin.serial, hbindings]
    change ((m.scriptOf u'.owner).run _ _ _ _).1 = _
    rw [hbegin.owner]
    rfl
  · exact (acting_runScript (m := (m.withBoard _).ready u') hacting).endTurn.turns

/-- What is shown of a fault. -/
def faultMessage (u : Fighter) (fault : Fault) : String :=
  let serial := u.serial
  let words := fault.message
  s!"Unit {serial} script error: {words}"

/-- The script of the unit whose turn is next fails, a strict match is stopped, and a
lenient one goes on from there. -/
structure CutAt (m : Match ρ) (u : Fighter) (fault : Fault) (cut : Match ρ) : Prop where
  fails : m.FailsWith u fault
  turns : cut.turns = m.turns + 1
  faults : cut.faults = m.faults + 1
  continues : m.commentary.ContinuesTo cut.commentary
  line : cut.commentary.messages = true →
    cut.commentary.lines.back? = some (faultMessage u fault)
  strict : (m.withPolicy true).playTurn =
    (.error (.script u.owner u.serial fault), cut.withPolicy true)
  lenient : (m.withPolicy false).playTurn = (.ok (), cut.picture.sayFarewell.withPolicy false)

/-- A turn is the same whatever the policy, unless a script fails. -/
theorem playTurn_ok_or_fails {m : Match ρ} (h : m.board.Coherent) (ho : m.isOver = false) :
    (∃ m' : Match ρ, m'.faults = m.faults ∧ m.commentary.ContinuesTo m'.commentary ∧
      ∀ strict, (m.withPolicy strict).playTurn = (.ok (), m'.withPolicy strict)) ∨
    ∃ u fault cut, m.CutAt u fault cut := by
  simp only [isOver, Bool.or_eq_false_iff] at ho
  obtain ⟨id, rest, hq⟩ := List.exists_cons_of_ne_nil (by simpa using ho.2)
  obtain ⟨u, hmem, rfl⟩ := (h.mem_waiting id).1 (hq ▸ List.mem_cons_self)
  have hu := h.unit?_eq_some_iff.2 ⟨hmem, rfl⟩
  obtain ⟨u', hserial, howner, hok, hu', hrun, hturns⟩ := ready_of_front h hq hu
  let begun := m.withBoard m.board.beginTurn.2
  have hcontinues : m.commentary.ContinuesTo (begun.ended u').commentary :=
    begun.continuesTo_ended u'
  -- The policy is looked at last, so up to there the turn is that of `begun`.
  have hturn : ∀ strict, (m.withPolicy strict).playTurn = (begun.withPolicy strict).act u' :=
    fun strict ↦ playTurn_eq_act (m := m.withPolicy strict) (Prod.ext hok rfl) hu'
  have hresult : ∀ strict, (((begun.withPolicy strict).ready u').runScript u').1 =
      (m.scriptRun u).1 := fun _ ↦ hrun
  cases hr : (m.scriptRun u).1 with
  | ok v =>
    refine .inl ⟨(begun.ended u').picture.sayFarewell, ?_, ?_, fun strict ↦ ?_⟩
    · rw [sayFarewell_eq]
      rfl
    · exact hcontinues.trans (continuesTo_close _)
    · rw [hturn, act_of_ok ((hresult strict).trans hr)]
      exact congrArg (Prod.mk (Except.ok ())) (close_withPolicy (begun.ended u') strict)
  | error fault =>
    refine .inr ⟨u, fault, (begun.ended u').recordFault u' fault, ?_⟩
    exact
      { fails := ⟨⟨rest, hq⟩, hu, hr⟩
        turns := hturns
        faults := rfl
        continues := hcontinues.trans (continuesTo_recordFault _ u' fault)
        line := by
          intro hmessages
          have hshown : (begun.ended u').commentary.messages = true :=
            (continuesTo_recordFault _ u' fault).messages_eq.symm.trans hmessages
          change ((begun.ended u').commentary.message (faultMessage u' fault)).lines.back? = _
          rw [Commentary.message, hshown, Commentary.announceIf_true, Commentary.lines_announce,
            Array.back?_push, faultMessage, hserial]
          rfl
        strict := by
          rw [hturn, act_of_error ((hresult true).trans hr), hserial, howner]
          rfl
        lenient := by
          rw [hturn, act_of_error ((hresult false).trans hr)]
          exact congrArg (Prod.mk (Except.ok ()))
            (close_withPolicy ((begun.ended u').recordFault u' fault) false) }

/-! ## All turns -/

/-- The first turn in which a script fails comes after `n` others, and `cut` is the
match when the fault has been recorded. -/
structure FirstCut (m : Match ρ) (n : Nat) (u : Fighter) (fault : Fault) (cut : Match ρ) : Prop where
  going : ∀ k ≤ n, ((m.withPolicy false).afterTurns k).isOver = false
  spotless : ∀ k ≤ n, ((m.withPolicy false).afterTurns k).faults = m.faults
  fails : ((m.withPolicy false).afterTurns n).FailsWith u fault
  turns : cut.turns = ((m.withPolicy false).afterTurns n).turns + 1
  faults : cut.faults = m.faults + 1
  line : cut.commentary.messages = true →
    cut.commentary.lines.back? = some (faultMessage u fault)

theorem CutAt.first {m cut : Match ρ} {u : Fighter} {fault : Fault} (h : m.CutAt u fault cut)
    (ho : m.isOver = false) : m.FirstCut 0 u fault cut where
  going k hk := by
    obtain rfl := Nat.le_zero.1 hk
    exact ho
  spotless k hk := by
    obtain rfl := Nat.le_zero.1 hk
    rfl
  fails := ⟨h.fails.front, h.fails.unit, h.fails.fails⟩
  turns := h.turns
  faults := h.faults
  line := h.line

/-- A turn in which no script fails comes before the first one in which one does. -/
theorem FirstCut.later {m m' cut : Match ρ} {n : Nat} {u : Fighter} {fault : Fault}
    (h : m'.FirstCut n u fault cut) (ho : m.isOver = false)
    (ht : (m.withPolicy false).playTurn = (.ok (), m'.withPolicy false))
    (hf : m'.faults = m.faults) : m.FirstCut (n + 1) u fault cut := by
  have hafter : ∀ k, (m.withPolicy false).afterTurns (k + 1) =
      (m'.withPolicy false).afterTurns k := by
    intro k
    rw [afterTurns, ht]
  constructor
  · rintro (_ | k) hk
    · exact ho
    · rw [hafter]
      exact h.going k (Nat.le_of_succ_le_succ hk)
  · rintro (_ | k) hk
    · rfl
    · rw [hafter, h.spotless k (Nat.le_of_succ_le_succ hk), hf]
  · exact hafter n ▸ h.fails
  · exact hafter n ▸ h.turns
  · exact hf ▸ h.faults
  · exact h.line

theorem playTurns_of_ok {m m' : Match ρ} {strict : Bool} (ho : m.isOver = false)
    (ht : (m.withPolicy strict).playTurn = (.ok (), m')) (left : Nat) :
    (m.withPolicy strict).playTurns (left + 1) = m'.playTurns left := by
  have ho : (m.withPolicy strict).isOver = false := ho
  simp only [playTurns, ho, ht, Bool.false_eq_true, if_false]

theorem playTurns_of_error {m m' : Match ρ} {strict : Bool} {e : Stoppage} (ho : m.isOver = false)
    (ht : (m.withPolicy strict).playTurn = (.error e, m')) (left : Nat) :
    (m.withPolicy strict).playTurns (left + 1) = (.error e, m') := by
  have ho : (m.withPolicy strict).isOver = false := ho
  simp only [playTurns, ho, ht, Bool.false_eq_true, if_false]

/-- A lenient match is played on, and a strict one ends like it or is cut off. -/
theorem playTurns_cut (left : Nat) {m : Match ρ} (h : m.board.Coherent) :
    ∃ final : Match ρ, (m.withPolicy false).playTurns left = (.ok (), final.withPolicy false) ∧
      m.commentary.ContinuesTo final.commentary ∧
      ((final.faults = m.faults ∧
          (m.withPolicy true).playTurns left = (.ok (), final.withPolicy true)) ∨
        (m.faults < final.faults ∧ ∃ n u fault cut, m.FirstCut n u fault cut ∧
          m.commentary.ContinuesTo cut.commentary ∧ cut.commentary.ContinuesTo final.commentary ∧
          (m.withPolicy true).playTurns left =
            (.error (.script u.owner u.serial fault), cut.withPolicy true))) := by
  induction left generalizing m with
  | zero => exact ⟨m, rfl, .refl _, .inl ⟨rfl, rfl⟩⟩
  | succ left ih =>
    cases ho : m.isOver with
    | true =>
      have hstop : ∀ strict,
          (m.withPolicy strict).playTurns (left + 1) = (.ok (), m.withPolicy strict) :=
        fun strict ↦ if_pos ho
      exact ⟨m, hstop false, .refl _, .inl ⟨rfl, hstop true⟩⟩
    | false =>
      have hnext : (m.withPolicy false).playTurn.2.board.Coherent := lasting_coherent.playTurn h
      obtain ⟨m', hfaults, hcontinues, hturn⟩ | ⟨u, fault, cut, hcut⟩ := playTurn_ok_or_fails h ho
      · rw [hturn false] at hnext
        obtain ⟨final, hlenient, hfinal, hstrict⟩ := ih (m := m') hnext
        refine ⟨final, (playTurns_of_ok ho (hturn false) left).trans hlenient,
          hcontinues.trans hfinal, ?_⟩
        rw [playTurns_of_ok ho (hturn true) left, ← hfaults]
        obtain hsame | ⟨hlt, n, u, fault, cut, hfirst, hbefore, hafter, hstrict⟩ := hstrict
        · exact .inl hsame
        · exact .inr ⟨hlt, n + 1, u, fault, cut, hfirst.later ho (hturn false) hfaults,
            hcontinues.trans hbefore, hafter, hstrict⟩
      · rw [hcut.lenient] at hnext
        obtain ⟨final, hlenient, hfinal, hstrict⟩ := ih (m := cut.picture.sayFarewell) hnext
        have hclose : cut.picture.sayFarewell.faults = cut.faults := by
          rw [sayFarewell_eq]
          rfl
        have hle : m.faults < final.faults := by
          have := hcut.faults
          obtain ⟨hsame, -⟩ | ⟨hlt, -⟩ := hstrict <;> omega
        have hcontinues := (continuesTo_close cut).trans hfinal
        exact ⟨final, (playTurns_of_ok ho hcut.lenient left).trans hlenient,
          hcut.continues.trans hcontinues, .inr ⟨hle, 0, u, fault, cut, hcut.first ho,
            hcut.continues, hcontinues, playTurns_of_error ho hcut.strict left⟩⟩

/-- A match that can be set up can be played with either policy, and the lenient one
comes to an outcome.  If no script fails in it, the strict one ends like it, and all
that is shown is the same.  Else the strict one is the lenient one cut off at the
first turn in which a script fails: it is stopped with that fault, in that turn, and
what is shown up to there is what the lenient one shows first, last of all the fault
where messages are shown. -/
theorem strict_cuts_lenient {settings : Settings} {entries : List Entry} {rng : ρ} {m : Match ρ}
    (h : setUp settings entries rng = .ok m) :
    let lenient := m.withPolicy false
    let strict := m.withPolicy true
    setUp (settings.withPolicy false) entries rng = .ok lenient ∧
    setUp (settings.withPolicy true) entries rng = .ok strict ∧
    (∃ outcome, lenient.play.1 = .ok outcome) ∧
    (lenient.play.2.faults = 0 →
      strict.play.1 = lenient.play.1 ∧ strict.play.2.board = lenient.play.2.board ∧
      strict.play.2.turns = lenient.play.2.turns ∧
      strict.play.2.commentary.lines = lenient.play.2.commentary.lines) ∧
    (lenient.play.2.faults ≠ 0 → ∃ n u fault,
      (∀ k ≤ n, (lenient.afterTurns k).isOver = false ∧ (lenient.afterTurns k).faults = 0) ∧
      (lenient.afterTurns n).FailsWith u fault ∧
      strict.play.1 = .error (.script u.owner u.serial fault) ∧
      strict.play.2.turns = (lenient.afterTurns n).turns + 1 ∧
      strict.play.2.faults = 1 ∧
      strict.play.2.commentary.lines.toList <+: lenient.play.2.commentary.lines.toList ∧
      (settings.messages = true →
        strict.play.2.commentary.lines.back? = some (faultMessage u fault))) := by
  intro lenient strict
  obtain ⟨-, hfresh, hshown⟩ := fresh_of_setUp h
  have hcoherent := (Reached.setUp h).coherent
  have hsetUp : ∀ policy, setUp (settings.withPolicy policy) entries rng =
      .ok (m.withPolicy policy) := by
    intro policy
    rw [setUp_withPolicy, h]
    rfl
  obtain ⟨final, hlenient, -, hcases⟩ :=
    playTurns_cut (m.settings.turnLimit - m.turns) hcoherent
  rw [play_of_ok (m := lenient) hlenient]
  refine ⟨hsetUp false, hsetUp true, ⟨final.outcome, rfl⟩, ?_, ?_⟩
  · intro hzero
    have hzero : final.faults = 0 := hzero
    obtain ⟨-, hstrict⟩ | ⟨hlt, -⟩ := hcases
    · rw [play_of_ok (m := strict) hstrict]
      exact ⟨rfl, rfl, rfl, rfl⟩
    · omega
  · intro hfaults
    have hfaults : final.faults ≠ 0 := hfaults
    obtain ⟨hsame, -⟩ | ⟨-, n, u, fault, cut, hfirst, hbefore, hafter, hstrict⟩ := hcases
    · omega
    · rw [play_of_error (m := strict) hstrict]
      refine ⟨n, u, fault, fun k hk ↦ ⟨hfirst.going k hk, (hfirst.spotless k hk).trans hfresh⟩,
        hfirst.fails, rfl, hfirst.turns, hfirst.faults.trans (by rw [hfresh]), ?_, ?_⟩
      · exact (hafter.trans (Commentary.continuesTo_announce _ _)).isPrefix
      · intro hmessages
        refine hfirst.line ?_
        rw [hbefore.messages_eq, hshown]
        exact hmessages

/-- Three turns on a small board, in the second of which a script divides by zero. -/
def mishap : Except SetupError (Match Xoshiro) :=
  setUp ⟨3, 3, 3, 0.5, 1, true, false, none, false⟩
    [⟨"first", "wait()"⟩, ⟨"second", "div(1, 0)"⟩] (Xoshiro.ofSeed 0)

/-- One script fails in the course of the mishap, and with a strict policy that is
the end of it. -/
theorem strict_cuts_lenient_mishap : ∃ m u fault, mishap = .ok m ∧
    (m.withPolicy false).play.2.faults = 1 ∧ (m.withPolicy false).play.2.turns = 3 ∧
      (m.withPolicy true).play.1 = .error (.script u.owner u.serial fault) ∧
      (m.withPolicy true).play.2.turns = 2 ∧ (m.withPolicy true).play.2.faults = 1 ∧
      (m.withPolicy true).play.2.commentary.lines.back? = some (faultMessage u fault) := by
  have hrun : mishap.toOption.map (fun m ↦ ((m.withPolicy false).play.2.faults,
      (m.withPolicy false).play.2.turns, (m.withPolicy true).play.2.turns)) =
        some (1, 3, 2) := by decide +kernel
  cases hm : mishap with
  | error e => simp [hm, Except.toOption] at hrun
  | ok m =>
    simp only [hm, Except.toOption, Option.map_some, Option.some.injEq, Prod.mk.injEq] at hrun
    obtain ⟨hfaults, hturns, hcut⟩ := hrun
    obtain ⟨-, -, -, -, hfirst⟩ := strict_cuts_lenient hm
    obtain ⟨n, u, fault, -, -, hstop, -, hone, -, hline⟩ := hfirst (by rw [hfaults]; decide)
    exact ⟨m, u, fault, rfl, hfaults, hturns, hstop, hcut, hone, hline rfl⟩

end Match

end Skirmish.Contest
