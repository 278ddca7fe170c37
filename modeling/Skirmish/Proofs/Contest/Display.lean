import Skirmish.Proofs.Contest.Opening

/-!
# What is shown of a match

What is to be shown, and what has been shown, is never read again by a match.
`silenced` leaves both out, of a scene and of a match, and everything that can be
done commutes with it: what a unit is told (`Scene.perform_silenced`), the run of a
script (`Scene.run_silenced`), a turn (`Match.playTurn_silenced`), and all of them
(`Match.playTurns_silenced`).

Main statement: matches that differ only in what is shown go the same way, and
where nothing is to be shown, the outcome is all that is (`display_unobserved`).
-/

namespace Skirmish.Arena.Scene

open Script Skirmish.Random

variable {ρ : Type}

/-- The scene of which nothing has been shown and nothing is to be shown. -/
def silenced (s : Scene ρ) : Scene ρ := { s with commentary := .new false false false }

@[simp] theorem board_silenced (s : Scene ρ) : s.silenced.board = s.board := rfl

variable [WordSource ρ]

theorem carryOut_silenced (s : Scene ρ) (u : Fighter) (o : Order) :
    s.silenced.carryOut u o = ((s.carryOut u o).1, (s.carryOut u o).2.silenced) := by
  cases o with
  | move =>
    simp only [carryOut, board_silenced]
    rcases s.board.move u.serial with ⟨_ | ⟨leaves, enters⟩, b⟩ <;> rfl
  | attack | charge | spawn | wait | defend | fortify => rfl

theorem obey_silenced (s : Scene ρ) (id : Serial) (o : Order) :
    s.silenced.obey id o = ((s.obey id o).1, (s.obey id o).2.silenced) := by
  simp only [obey, board_silenced]
  cases s.board.unit? id with
  | none => rfl
  | some u =>
    dsimp only
    split
    · exact carryOut_silenced { s with board := s.board.setUnit u.tryAct.2 } _ o
    · rfl

/-- What a script asks for has the same answer and does the same, whatever is shown. -/
theorem perform_silenced (s : Scene ρ) (id : Serial) (c : Command) (args : List Value) :
    s.silenced.perform id c args = ((s.perform id c args).1, (s.perform id c args).2.silenced) := by
  simp only [perform, board_silenced]
  split
  · cases Order.ofCall c args with
    | error fault => rfl
    | ok o =>
      dsimp only
      rw [obey_silenced]
  · rfl

/-- A script runs alike, whatever is shown. -/
theorem run_silenced (s : Scene ρ) (id : Serial) (symbols : SymbolTable) (block : Block)
    (bindings : Bindings) :
    let run := block.run (host id) symbols bindings s
    block.run (host id) symbols bindings s.silenced =
      (run.1, { run.2 with world := run.2.world.silenced }) := by
  have hrel : Host.Related (fun s t : Scene ρ ↦ t = s.silenced) (host id) (host id) :=
    { perform := by
        rintro c args s _ - - rfl
        have hperform := perform_silenced s id c args
        exact ⟨(congrArg Prod.fst hperform).symm, congrArg Prod.snd hperform⟩
      print := by
        rintro line s _ rfl
        rfl }
  obtain ⟨r, b, after, _, hrun, hrun', rfl⟩ := evalBlock_related hrel symbols block bindings s _ rfl
  simp only [Block.run, hrun, hrun']

end Skirmish.Arena.Scene

namespace Skirmish.Contest

open Arena Report Script Skirmish.Random

/-- The settings with other things to be shown. -/
def Settings.showing (s : Settings) (messages pictures : Bool) : Settings :=
  { s with messages, pictures }

namespace Match

variable {ρ : Type}

/-- The match with other things to be shown, and nothing shown so far. -/
def showing (m : Match ρ) (messages pictures : Bool) : Match ρ :=
  { m with
    settings := m.settings.showing messages pictures
    scene := { m.scene with commentary := .new messages messages pictures } }

/-- The match of which nothing has been shown and nothing is to be shown. -/
def silenced (m : Match ρ) : Match ρ := m.showing false false

theorem farewells_silenced (m : Match ρ) : m.silenced.farewells = .new false false false := by
  unfold farewells
  change List.foldl _ (Commentary.new false false false) m.board.removeEliminated.1 = _
  induction m.board.removeEliminated.1 with
  | nil => rfl
  | cons player gone ih => exact ih

theorem sayFarewell_silenced (m : Match ρ) : m.silenced.sayFarewell = m.sayFarewell.silenced := by
  rw [sayFarewell_eq, sayFarewell_eq, farewells_silenced]
  rfl

variable [WordSource ρ]

theorem setUp_showing (settings : Settings) (messages pictures : Bool) (entries : List Entry)
    (rng : ρ) :
    setUp (settings.showing messages pictures) entries rng =
      (setUp settings entries rng).map (·.showing messages pictures) :=
  setUp_map (f := (·.showing messages pictures)) (fun s ↦ ⟨messages, pictures, s.strict, rfl⟩)
    settings entries rng

theorem runScript_silenced (m : Match ρ) (u : Fighter) :
    m.silenced.runScript u = ((m.runScript u).1, (m.runScript u).2.silenced) := by
  have hrun : (m.silenced.scriptOf u.owner).run (Scene.host u.serial) m.silenced.symbols u.bindings
      m.silenced.scene = _ :=
    m.scene.run_silenced u.serial m.symbols (m.scriptOf u.owner) u.bindings
  unfold runScript
  rw [hrun]
  rfl

theorem ended_silenced (m : Match ρ) (u : Fighter) :
    m.silenced.ended u = (m.ended u).silenced := by
  have hrun : (m.silenced.ready u).runScript u = _ := (m.ready u).runScript_silenced u
  unfold ended
  rw [hrun]
  rfl

theorem act_silenced (m : Match ρ) (u : Fighter) :
    m.silenced.act u = ((m.act u).1, (m.act u).2.silenced) := by
  have hrun : (m.silenced.ready u).runScript u = _ := (m.ready u).runScript_silenced u
  have hpicture : ∀ m : Match ρ, m.silenced.picture = m.picture.silenced := fun _ ↦ rfl
  have hfault : ∀ (m : Match ρ) (fault : Fault),
      m.silenced.recordFault u fault = (m.recordFault u fault).silenced := fun _ _ ↦ rfl
  rw [act_eq, act_eq, hrun, ended_silenced]
  cases ((m.ready u).runScript u).1 with
  | ok _ =>
    dsimp only
    rw [hpicture, sayFarewell_silenced]
  | error fault =>
    dsimp only
    rw [hfault, hpicture, sayFarewell_silenced]
    change (if m.settings.strict = true then _ else _) = _
    split <;> rfl

/-- A turn goes the same way, whatever is shown. -/
theorem playTurn_silenced (m : Match ρ) :
    m.silenced.playTurn = (m.playTurn.1, m.playTurn.2.silenced) := by
  have hboard : m.silenced.board = m.board := rfl
  unfold playTurn
  rw [hboard]
  rcases m.board.beginTurn with ⟨_ | _ | id, b⟩
  · rfl
  · rfl
  · dsimp only
    cases b.unit? id with
    | none => rfl
    | some u => exact (m.withBoard b).act_silenced u

theorem playTurns_silenced (turns : Nat) (m : Match ρ) :
    m.silenced.playTurns turns = ((m.playTurns turns).1, (m.playTurns turns).2.silenced) := by
  induction turns generalizing m with
  | zero => rfl
  | succ turns ih =>
    have hover : m.silenced.isOver = m.isOver := rfl
    unfold playTurns
    rw [hover, playTurn_silenced]
    split
    · rfl
    · rcases m.playTurn with ⟨_ | _, m'⟩
      · rfl
      · exact ih m'

theorem afterTurns_silenced (turns : Nat) (m : Match ρ) :
    m.silenced.afterTurns turns = (m.afterTurns turns).silenced := by
  induction turns generalizing m with
  | zero => rfl
  | succ turns ih =>
    unfold afterTurns
    rw [playTurn_silenced]
    exact ih _

/-- A match ends the same way, whatever is shown. -/
theorem play_silenced (m : Match ρ) :
    m.silenced.play.1 = m.play.1 ∧ m.silenced.play.2.board = m.play.2.board := by
  have hlimit : m.silenced.settings.turnLimit - m.silenced.turns =
    m.settings.turnLimit - m.turns := rfl
  unfold play
  rw [hlimit, playTurns_silenced]
  rcases m.playTurns (m.settings.turnLimit - m.turns) with ⟨_ | _, m'⟩ <;> exact ⟨rfl, rfl⟩

/-- Where nothing is to be shown, only the outcome is. -/
theorem lines_play_silenced (m : Match ρ) :
    match m.silenced.play with
      | (.ok outcome, after) => after.commentary.lines = #[outcome.text]
      | (.error _, after) => after.commentary.lines = #[] := by
  unfold play
  rw [playTurns_silenced]
  rcases m.playTurns _ with ⟨_ | _, m'⟩ <;> rfl

/-- Two matches that differ only in what is shown of them. -/
structure Alike (m m' : Match ρ) : Prop where
  board : m'.board = m.board
  turns : m'.turns = m.turns
  faults : m'.faults = m.faults
  warnings : m'.warnings = m.warnings
  isOver : m'.isOver = m.isOver
  /-- The next turn ends alike. -/
  playTurn : m'.playTurn.1 = m.playTurn.1
  /-- The rest of the match ends alike. -/
  play : m'.play.1 = m.play.1
  board_play : m'.play.2.board = m.play.2.board

theorem alike_of_silenced {m m' : Match ρ} (h : m'.silenced = m.silenced) : m.Alike m' where
  board := (congrArg board h :)
  turns := (congrArg turns h :)
  faults := (congrArg faults h :)
  warnings := (congrArg warnings h :)
  isOver := (congrArg isOver h :)
  playTurn := by
    have hturn := congrArg (·.playTurn.1) h
    simpa only [playTurn_silenced] using hturn
  play := by rw [← m'.play_silenced.1, h, m.play_silenced.1]
  board_play := by rw [← m'.play_silenced.2, h, m.play_silenced.2]

theorem alike_afterTurns {m m' : Match ρ} (h : m'.silenced = m.silenced) (turns : Nat) :
    (m.afterTurns turns).Alike (m'.afterTurns turns) :=
  alike_of_silenced (by rw [← afterTurns_silenced, h, afterTurns_silenced])

/-- A match is set up, with other things to be shown, if and only if it is set up as
it is, and both fail with the same error.  The two go the same way, turn by turn and
to the end.  Where nothing is to be shown, nothing but the outcome is, and not even
that if the match is stopped. -/
theorem display_unobserved (settings : Settings) (messages pictures : Bool) (entries : List Entry)
    (rng : ρ) :
    let shown := settings.showing messages pictures
    (∀ e, setUp shown entries rng = .error e ↔ setUp settings entries rng = .error e) ∧
    ∀ m, setUp settings entries rng = .ok m → ∃ m', setUp shown entries rng = .ok m' ∧
      (∀ turns, (m.afterTurns turns).Alike (m'.afterTurns turns)) ∧
      (messages = false → pictures = false → ∀ turns,
        match (m'.afterTurns turns).play with
        | (.ok outcome, after) => after.commentary.lines = #[outcome.text]
        | (.error _, after) => after.commentary.lines = #[]) := by
  intro shown
  have hsetUp := setUp_showing settings messages pictures entries rng
  refine ⟨fun e ↦ ?_, fun m hm ↦ ⟨m.showing messages pictures, ?_, ?_, ?_⟩⟩
  · rw [hsetUp]
    cases setUp settings entries rng <;> simp [Except.map]
  · rw [hsetUp, hm]
    rfl
  · exact alike_afterTurns rfl
  · rintro rfl rfl turns
    have hafter := m.afterTurns_silenced turns
    rw [silenced] at hafter
    rw [hafter]
    exact lines_play_silenced _

/-- Two turns on a small board, with everything shown. -/
def loud : Settings := ⟨3, 3, 2, 0.5, 1, true, true, none, false⟩

/-- A match in which a script prints. -/
def recital (settings : Settings) : Except SetupError (Match Xoshiro) :=
  setUp settings [⟨"first", "prnt(1)"⟩, ⟨"second", "wait()"⟩] (Xoshiro.ofSeed 0)

/-- Of the recital much is shown, and with nothing to be shown only the outcome is,
which is the same. -/
theorem display_unobserved_recital : ∃ m m' outcome,
    recital loud = .ok m ∧ recital (loud.showing false false) = .ok m' ∧
      m.play.1 = .ok outcome ∧ m'.play.1 = .ok outcome ∧
      m.play.2.commentary.lines.size = 9 ∧ m'.play.2.commentary.lines = #[outcome.text] := by
  have hrun : (recital loud).toOption.bind (fun m ↦
      m.play.1.toOption.map fun o ↦ (o, m.play.2.commentary.lines.size)) =
        some (.tie [.ofIndex 0, .ofIndex 1] 1, 9) := by decide +kernel
  obtain ⟨-, hok⟩ := display_unobserved loud false false
    [⟨"first", "prnt(1)"⟩, ⟨"second", "wait()"⟩] (Xoshiro.ofSeed 0)
  cases hm : recital loud with
  | error e => simp [hm, Except.toOption] at hrun
  | ok m =>
    obtain ⟨m', hm', halike, hquiet⟩ := hok m hm
    have hplay := (halike 0).play
    have hlines := hquiet rfl rfl 0
    simp only [afterTurns] at hplay hlines
    rw [hm] at hrun
    cases ho : m.play.1 with
    | error e => simp [ho, Except.toOption] at hrun
    | ok outcome =>
      rw [ho] at hplay
      refine ⟨m, m', outcome, rfl, hm', ho, hplay, ?_, ?_⟩
      · simp only [ho, Except.toOption, Option.bind_some, Option.map_some, Option.some.injEq,
          Prod.mk.injEq] at hrun
        exact hrun.2
      · rcases hp : m'.play with ⟨r, after⟩
        rw [hp] at hplay hlines
        cases hplay
        exact hlines

end Match

end Skirmish.Contest
