import Skirmish.Proofs.Arena.Operations

/-!
# What never changes of a board

The size of a board, how many units a player can have, and the hit points of a
new unit are settled before anybody comes.  No operation changes them, and
neither does an order to a unit (`rules_perform`).
-/

namespace Skirmish.Arena

open Script Skirmish.Random

variable {ρ : Type}

namespace Board

/-- What is settled before anybody comes. -/
def rules (b : Board ρ) : Torus × Nat × Int64 := (b.torus, b.unitLimit, b.unitHp)

theorem torus_eq_of_rules_eq {b b' : Board ρ} (h : b'.rules = b.rules) : b'.torus = b.torus :=
  congrArg (·.1) h

@[simp] theorem rules_setUnit (b : Board ρ) (u : Fighter) : (b.setUnit u).rules = b.rules := rfl

@[simp] theorem rules_updateUnit (b : Board ρ) (id : Serial) (f : Fighter → Fighter) :
    (b.updateUnit id f).rules = b.rules := by
  unfold updateUnit
  split <;> rfl

@[simp] theorem rules_add (b : Board ρ) (u : Fighter) : (b.add u).rules = b.rules := rfl

@[simp] theorem rules_despawn (b : Board ρ) (id : Serial) : (b.despawn id).2.rules = b.rules := by
  unfold despawn
  split <;> rfl

@[simp] theorem rules_removeEliminated (b : Board ρ) : b.removeEliminated.2.rules = b.rules := rfl

@[simp] theorem rules_endTurn (b : Board ρ) : b.endTurn.rules = b.rules := rfl

@[simp] theorem rules_spawn (b : Board ρ) (player : PlayerId) (l : Location) :
    (b.spawn player l).2.rules = b.rules := by
  obtain ⟨-, e⟩ | ⟨-, -, e⟩ | ⟨p, -, -, ⟨-, e⟩ | ⟨-, e⟩⟩ := b.spawn_cases player l
  all_goals exact congrArg (·.2.rules) e

@[simp] theorem rules_strike (b : Board ρ) (v : Fighter) (amount : Int64) :
    (b.strike v amount).2.rules = b.rules := by
  unfold strike
  dsimp only
  split
  · exact rules_despawn _ _
  · rfl

variable [WordSource ρ]

@[simp] theorem rules_spawnAdjacent (b : Board ρ) (player : PlayerId) (l : Location) :
    (b.spawnAdjacent player l).2.rules = b.rules := by
  obtain e | ⟨goal, g, -, -, e⟩ := b.spawnAdjacent_cases player l
  · rw [e]
  · rw [e]
    exact rules_spawn { b with rng := g } player goal

@[simp] theorem rules_spawnEach (b : Board ρ) (ps : List PlayerId) :
    (b.spawnEach ps).2.rules = b.rules :=
  spawnEach_keeps (P := (·.rules = b.rules)) (fun _ _ _ _ hb _ ↦ (rules_spawn _ _ _).trans hb) rfl
    ps

@[simp] theorem rules_move (b : Board ρ) (id : Serial) : (b.move id).2.rules = b.rules := by
  obtain e | ⟨u, goal, g, -, -, -, e⟩ := b.move_cases id
  all_goals exact congrArg (·.2.rules) e

@[simp] theorem rules_attack (b : Board ρ) (id : Serial) (amount : Int64) :
    (b.attack id amount).2.rules = b.rules := by
  obtain e | ⟨u, v, g, -, -, -, -, e⟩ := b.attack_cases id amount
  · rw [e]
  · rw [e]
    exact rules_strike { b with rng := g } v amount

@[simp] theorem rules_settle (b : Board ρ) (u : Fighter) (due : Due) :
    (b.settle u due).2.rules = b.rules := by
  have hs : (if due.spawn then b.spawnAdjacent u.owner u.location else (.ok none, b)).2.rules =
      b.rules := by
    split
    · exact rules_spawnAdjacent b u.owner u.location
    · rfl
  unfold settle
  dsimp only
  split
  · exact hs
  · exact hs
  · exact (rules_attack _ _ _).trans hs

@[simp] theorem rules_beginTurn (b : Board ρ) : b.beginTurn.2.rules = b.rules := by
  unfold beginTurn
  split
  · rfl
  · dsimp only
    split
    · rfl
    · exact rules_settle _ _ _

end Board

namespace Scene

variable [WordSource ρ]

@[simp] theorem rules_carryOut (s : Scene ρ) (u : Fighter) (o : Order) :
    (s.carryOut u o).2.board.rules = s.board.rules := by
  cases o with
  | attack => exact Board.rules_attack _ _ _
  | charge turns => exact Board.rules_updateUnit _ _ _
  | move =>
    have hm := s.board.rules_move u.serial
    simp only [carryOut]
    split <;> simp_all [message]
  | spawn => exact Board.rules_updateUnit _ _ _
  | wait => rfl
  | defend => exact Board.rules_updateUnit _ _ _
  | fortify => exact Board.rules_updateUnit _ _ _

theorem rules_obey (s : Scene ρ) (id : Serial) (o : Order) :
    (s.obey id o).2.board.rules = s.board.rules := by
  obtain ⟨-, e⟩ | ⟨u, -, -, e⟩ := s.obey_cases id o
  · rw [e]
  · rw [e, rules_carryOut, Board.rules_setUnit]

/-- Nothing that a script can ask for changes the rules. -/
theorem rules_perform (s : Scene ρ) (id : Serial) (c : Command) (args : List Value) :
    (s.perform id c args).2.board.rules = s.board.rules := by
  obtain ⟨-, e⟩ | ⟨o, -, -, e⟩ := s.perform_cases id c args
  · rw [e]
  · rw [e]
    exact rules_obey s id o

end Scene

end Skirmish.Arena
