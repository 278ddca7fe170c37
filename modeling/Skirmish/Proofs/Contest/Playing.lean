import Skirmish.Contest.Match
import Skirmish.Proofs.Arena.Acting
import Skirmish.Proofs.Script.Evaluation

/-!
# Playing a match

One turn of a match counts itself and leaves a settled board, or ends the match
with a fault of a script, which only happens where the settings are strict
(`playTurn_settled`).  So a match ends within its limit of turns, although
nothing in `Ends` bounds their number (`play_ends`).
-/

namespace Skirmish.Contest

open Arena Report Script Skirmish.Random

variable {ρ : Type}

namespace Match

/-! ## What messages leave alone -/

theorem board_picture (m : Match ρ) : m.picture.board = m.board := rfl

/-- What is shown when a unit has done its part of a turn: players without units
have left. -/
def farewells (m : Match ρ) : Commentary :=
  m.board.removeEliminated.1.foldl
    (fun c player ↦ let id := player.text; c.message s!"Player {id} eliminated") m.commentary

theorem foldl_message {α : Type} (line : α → String) (xs : List α) (m : Match ρ) :
    xs.foldl (fun m x ↦ m.message (line x)) m =
      { m with scene := ⟨m.board, xs.foldl (fun c x ↦ c.message (line x)) m.commentary⟩ } := by
  induction xs generalizing m with
  | nil => rfl
  | cons x xs ih => exact ih (m.message (line x))

theorem sayFarewell_eq (m : Match ρ) :
    m.sayFarewell = { m with scene := ⟨m.board.removeEliminated.2, m.farewells⟩ } :=
  foldl_message _ _ _

@[simp] theorem board_sayFarewell (m : Match ρ) :
    m.sayFarewell.board = m.board.removeEliminated.2 := by
  rw [sayFarewell_eq]
  rfl

@[simp] theorem settings_sayFarewell (m : Match ρ) : m.sayFarewell.settings = m.settings := by
  rw [sayFarewell_eq]

theorem turns_sayFarewell (m : Match ρ) : m.sayFarewell.turns = m.turns :=
  congrArg (·.queue.turns) (board_sayFarewell m)

variable [WordSource ρ]

/-! ## One turn -/

section Turn

variable {players : List PlayerId} {turns : Nat} {m : Match ρ}

/-- What requests for a unit keep of a board, and its getting variables too, its
script keeps. -/
theorem runScript_keeps {P : Board ρ → Prop} {u : Fighter}
    (hperform : ∀ (s : Scene ρ) (c : Command) (args : List Value), P s.board →
      P (s.perform u.serial c args).2.board)
    (hbind : ∀ b bindings, P b → P (b.updateUnit u.serial fun v ↦ { v with bindings }))
    (h : P m.board) : P (m.runScript u).2.board := by
  have hrun := Block.run_keeps (fun s : Scene ρ ↦ P s.board) (Scene.host u.serial)
    (fun c args s _ _ hs ↦ hperform s c args hs) (fun line s hs ↦ hs) m.symbols
    (m.scriptOf u.owner) u.bindings (s := m.scene) h
  exact hbind _ _ hrun

/-- Its script keeps a unit on the board. -/
theorem acting_runScript {u : Fighter} (h : m.board.Acting players turns u.serial u.owner) :
    (m.runScript u).2.board.Acting players turns u.serial u.owner :=
  runScript_keeps (fun _ c args hs ↦ Scene.acting_perform hs c args)
    (fun _ _ hb ↦ hb.updateUnit u.serial fun _ ↦ rfl) h

omit [WordSource ρ] in
/-- The match with the messages that a turn begins with. -/
def ready (m : Match ρ) (u : Fighter) : Match ρ :=
  let turn := m.turns
  let serial := u.serial
  (m.message s!"Turn number {turn}").message s!"Acting unit: {serial}"

/-- The match when the unit's part of a turn is over, before it is known what to
make of a fault. -/
def ended (m : Match ρ) (u : Fighter) : Match ρ :=
  ((m.ready u).runScript u).2.withBoard ((m.ready u).runScript u).2.board.endTurn

/-- The unit's part of a turn is over before it is known what to make of a fault. -/
theorem act_eq (m : Match ρ) (u : Fighter) :
    m.act u = match ((m.ready u).runScript u).1 with
      | .ok _ => (.ok (), (m.ended u).picture.sayFarewell)
      | .error fault =>
        if m.settings.strict then
          (.error (.script u.owner u.serial fault), (m.ended u).recordFault u fault)
        else (.ok (), ((m.ended u).recordFault u fault).picture.sayFarewell) := rfl

theorem act_of_ok {m : Match ρ} {u : Fighter} {v : Option Value}
    (h : ((m.ready u).runScript u).1 = .ok v) :
    m.act u = (.ok (), (m.ended u).picture.sayFarewell) := by rw [act_eq, h]

theorem act_of_error {m : Match ρ} {u : Fighter} {fault : Fault}
    (h : ((m.ready u).runScript u).1 = .error fault) :
    m.act u =
      if m.settings.strict then
        (.error (.script u.owner u.serial fault), (m.ended u).recordFault u fault)
      else (.ok (), ((m.ended u).recordFault u fault).picture.sayFarewell) := by rw [act_eq, h]

/-- The unit's part of a turn ends with the farewell, or with the match. -/
theorem act_cases (m : Match ρ) (u : Fighter) :
    ∃ m' : Match ρ, m'.board = (m.ended u).board ∧ m'.settings = m.settings ∧
      (m.act u = (.ok (), m'.picture.sayFarewell) ∨ m.settings.strict = true ∧
        ∃ fault, m.act u = (.error (.script u.owner u.serial fault), m')) := by
  rw [act_eq]
  split
  next => exact ⟨m.ended u, rfl, rfl, .inl rfl⟩
  next fault _ =>
    refine ⟨(m.ended u).recordFault u fault, rfl, rfl, ?_⟩
    split
    next hs => exact .inr ⟨hs, fault, rfl⟩
    next => exact .inl rfl

/-- The unit's part of a turn leaves a settled board, or ends the match. -/
theorem act_settled {u : Fighter} (h : m.board.Acting players turns u.serial u.owner) :
    (m.act u).2.settings = m.settings ∧ (m.act u).2.turns = turns ∧
      (((m.act u).1 = .ok () ∧ (m.act u).2.board.Settled players) ∨
        m.settings.strict = true ∧
          ∃ fault, (m.act u).1 = .error (.script u.owner u.serial fault)) := by
  have hended : (m.ended u).board.Acting players turns u.serial u.owner :=
    (acting_runScript (m := m.ready u) h).endTurn
  obtain ⟨m', hb, hs, e | ⟨hstrict, fault, e⟩⟩ := m.act_cases u
  · rw [e, settings_sayFarewell, turns_sayFarewell, board_sayFarewell, board_picture, hb]
    exact ⟨hs, (congrArg (·.queue.turns) hb).trans hended.turns, .inl ⟨rfl, hended.settled⟩⟩
  · rw [e]
    exact ⟨hs, (congrArg (·.queue.turns) hb).trans hended.turns, .inr ⟨hstrict, fault, rfl⟩⟩

/-- Where a turn can be started, playing it is the unit's part of it. -/
theorem playTurn_eq_act {b : Board ρ} {u : Fighter}
    (hb : m.board.beginTurn = (.ok (some u.serial), b)) (hu : b.unit? u.serial = some u) :
    m.playTurn = (m.withBoard b).act u := by
  unfold playTurn
  rw [hb]
  dsimp only
  rw [hu]

/-- A turn is counted and leaves a settled board, or it ends the match. -/
theorem playTurn_settled (h : m.board.Settled players) (ho : m.isOver = false) :
    m.playTurn.2.settings = m.settings ∧ m.playTurn.2.turns = m.turns + 1 ∧
      ((m.playTurn.1 = .ok () ∧ m.playTurn.2.board.Settled players) ∨
        m.settings.strict = true ∧
          ∃ player unit fault, m.playTurn.1 = .error (.script player unit fault)) := by
  simp only [isOver, Bool.or_eq_false_iff] at ho
  have hw : m.board.queue.waiting ≠ [] := by simpa using ho.2
  obtain ⟨id, owner, b, hb, hacting⟩ := h.coherent.beginTurn_acting hw
  obtain ⟨u, hu, rfl, rfl⟩ := hacting.actor
  have hunit : b.unit? u.serial = some u := hacting.coherent.unit?_eq_some_iff.2 ⟨hu, rfl⟩
  rw [playTurn_eq_act hb hunit]
  obtain ⟨hs, ht, ⟨hok, hsettled⟩ | ⟨hstrict, fault, he⟩⟩ :=
    act_settled (m := m.withBoard b) hacting
  · refine ⟨hs, ht, .inl ⟨hok, ?_⟩⟩
    exact ⟨hsettled.coherent, hsettled.players.trans h.players, hsettled.populated,
      hsettled.players_ne_nil⟩
  · exact ⟨hs, ht, .inr ⟨hstrict, _, _, fault, he⟩⟩

end Turn

/-! ## All turns -/

/-- The match after so many turns, whatever comes of them. -/
def afterTurns : Nat → Match ρ → Match ρ
  | 0, m => m
  | n + 1, m => afterTurns n m.playTurn.2

/-- Playing until the match is over, with no bound on the turns: so many turns
are played, and this is what comes of it. -/
inductive Ends : Match ρ → Nat → Except Stoppage Outcome × Match ρ → Prop
  | decided {m : Match ρ} (h : m.isOver = true) :
    Ends m 0 (.ok m.outcome, m.announce m.outcome.text)
  | stopped {m m' : Match ρ} {e : Stoppage} (h : m.isOver = false)
    (ht : m.playTurn = (.error e, m')) : Ends m 1 (.error e, m')
  | turn {m m' : Match ρ} {turns : Nat} {r : Except Stoppage Outcome × Match ρ}
    (h : m.isOver = false) (ht : m.playTurn = (.ok (), m')) (hr : Ends m' turns r) :
    Ends m (turns + 1) r

/-- A match in the course of which these players were let in. -/
structure Underway (players : List PlayerId) (m : Match ρ) : Prop where
  settled : m.board.Settled players
  turns_le : m.turns ≤ m.settings.turnLimit

/-- With as many turns to play as there are up to the limit, a match is played
to its end. -/
theorem playTurns_ends {players : List PlayerId} (left : Nat) {m : Match ρ}
    (h : m.Underway players) (hleft : m.settings.turnLimit - m.turns ≤ left) :
    ∃ turns ≤ left,
      (∃ m', m.playTurns left = (.ok (), m') ∧ m'.settings = m.settings ∧ m'.isOver = true ∧
        m'.Underway players ∧ m.Ends turns (.ok m'.outcome, m'.announce m'.outcome.text)) ∨
      ∃ m' player unit fault, m.playTurns left = (.error (.script player unit fault), m') ∧
        m.settings.strict = true ∧ m.Ends turns (.error (.script player unit fault), m') := by
  induction left generalizing m with
  | zero =>
    have hover : m.isOver = true := by
      have : m.settings.turnLimit ≤ m.turns := by omega
      simp [isOver, this]
    exact ⟨0, Nat.le_refl 0, .inl ⟨m, rfl, rfl, hover, h, .decided hover⟩⟩
  | succ left ih =>
    unfold playTurns
    cases hover : m.isOver with
    | true => exact ⟨0, Nat.zero_le _, .inl ⟨m, rfl, rfl, hover, h, .decided hover⟩⟩
    | false =>
      have hlt : m.turns < m.settings.turnLimit := by
        simp only [isOver, Bool.or_eq_false_iff, decide_eq_false_iff_not] at hover
        omega
      obtain ⟨hs, ht, hturn⟩ := playTurn_settled h.settled hover
      rcases hp : m.playTurn with ⟨r, m'⟩
      rw [hp] at hs ht hturn
      obtain ⟨rfl, hsettled⟩ | ⟨hstrict, player, unit, fault, rfl⟩ := hturn
      · have hnext : m'.Underway players := ⟨hsettled, by rw [ht, hs]; exact hlt⟩
        obtain ⟨turns, hle, hr⟩ := ih hnext (by rw [ht, hs]; omega)
        refine ⟨turns + 1, Nat.succ_le_succ hle, ?_⟩
        obtain ⟨m'', he, hs', ho', hu', hend⟩ | ⟨m'', player, unit, fault, he, hstrict, hend⟩ := hr
        · exact .inl ⟨m'', he, hs'.trans hs, ho', hu', .turn hover hp hend⟩
        · exact .inr ⟨m'', player, unit, fault, he, hs ▸ hstrict, .turn hover hp hend⟩
      · exact ⟨1, Nat.succ_le_succ (Nat.zero_le left),
          .inr ⟨m', player, unit, fault, rfl, hstrict, .stopped hover hp⟩⟩

theorem play_of_ok {m m' : Match ρ}
    (h : m.playTurns (m.settings.turnLimit - m.turns) = (.ok (), m')) :
    m.play = (.ok m'.outcome, m'.announce m'.outcome.text) := by
  rw [play, h]

theorem play_of_error {m m' : Match ρ} {e : Stoppage}
    (h : m.playTurns (m.settings.turnLimit - m.turns) = (.error e, m')) :
    m.play = (.error e, m') := by
  rw [play, h]

/-- A match that is played ends within its limit of turns.  Only a fault of a
script keeps it from an outcome, and that only where the settings are strict. -/
theorem play_ends {players : List PlayerId} {m : Match ρ} (h : m.Underway players) :
    (∃ turns ≤ m.settings.turnLimit, m.Ends turns m.play) ∧
      (∀ e, m.play.1 = .error e →
        m.settings.strict = true ∧ ∃ player unit fault, e = .script player unit fault) ∧
      ∀ o, m.play.1 = .ok o → o = m.play.2.outcome ∧ m.play.2.settings = m.settings ∧
        m.play.2.isOver = true ∧ m.play.2.Underway players := by
  obtain ⟨turns, hle, hends⟩ := playTurns_ends (m.settings.turnLimit - m.turns) h (Nat.le_refl _)
  have hlimit : turns ≤ m.settings.turnLimit := Nat.le_trans hle (Nat.sub_le _ _)
  obtain ⟨m', he, hs, ho, hu, hend⟩ | ⟨m', player, unit, fault, he, hstrict, hend⟩ := hends
  · rw [play_of_ok he]
    refine ⟨⟨turns, hlimit, hend⟩, (fun e h ↦ nomatch h), ?_⟩
    rintro _ ⟨⟩
    exact ⟨rfl, hs, ho, hu.settled, hu.turns_le⟩
  · rw [play_of_error he]
    refine ⟨⟨turns, hlimit, hend⟩, ?_, (fun o h ↦ nomatch h)⟩
    rintro _ ⟨⟩
    exact ⟨hstrict, player, unit, fault, rfl⟩

end Match

end Skirmish.Contest
