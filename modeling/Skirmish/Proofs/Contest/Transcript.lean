import Skirmish.Proofs.Contest.Playing

/-!
# The transcript only grows

Whatever is done, what is to be shown stays as it is, and lines that have been
shown stay shown: the commentary goes on from where it was
(`Commentary.ContinuesTo`).  So it is with what a unit is told, with the run of a
script (`Match.continuesTo_runScript`), and with what ends a turn
(`Match.continuesTo_close`).
-/

namespace Skirmish.Arena

open Script Skirmish.Random

namespace Commentary

/-- More lines have been shown, and the same things are to be shown. -/
def ContinuesTo (c c' : Commentary) : Prop :=
  ∃ more : Array String, c' = { c with lines := c.lines ++ more }

theorem ContinuesTo.refl (c : Commentary) : c.ContinuesTo c := ⟨#[], by simp⟩

theorem ContinuesTo.trans {c c' c'' : Commentary} (h : c.ContinuesTo c')
    (h' : c'.ContinuesTo c'') : c.ContinuesTo c'' := by
  obtain ⟨more, rfl⟩ := h
  obtain ⟨more', rfl⟩ := h'
  exact ⟨more ++ more', by simp⟩

theorem continuesTo_announce (c : Commentary) (line : String) :
    c.ContinuesTo (c.announce line) := ⟨#[line], by simp [announce]⟩

theorem continuesTo_announceIf (c : Commentary) (wanted : Bool) (line : String) :
    c.ContinuesTo (c.announceIf wanted line) := by
  cases wanted
  · exact .refl c
  · exact c.continuesTo_announce line

theorem continuesTo_message (c : Commentary) (line : String) : c.ContinuesTo (c.message line) :=
  c.continuesTo_announceIf c.messages line

theorem continuesTo_printed (c : Commentary) (line : String) : c.ContinuesTo (c.printed line) :=
  c.continuesTo_announceIf c.scripts line

theorem continuesTo_picture {ρ : Type} (c : Commentary) (b : Board ρ) :
    c.ContinuesTo (c.picture b) :=
  c.continuesTo_announceIf c.pictures b.picture

theorem ContinuesTo.messages_eq {c c' : Commentary} (h : c.ContinuesTo c') :
    c'.messages = c.messages := by
  obtain ⟨more, rfl⟩ := h
  rfl

/-- The lines that were there before come first. -/
theorem ContinuesTo.isPrefix {c c' : Commentary} (h : c.ContinuesTo c') :
    c.lines.toList <+: c'.lines.toList := by
  obtain ⟨more, rfl⟩ := h
  rw [Array.toList_append]
  exact List.prefix_append _ _

end Commentary

namespace Scene

variable {ρ : Type} [WordSource ρ]

theorem continuesTo_carryOut (s : Scene ρ) (u : Fighter) (o : Order) :
    s.commentary.ContinuesTo (s.carryOut u o).2.commentary := by
  cases o with
  | move =>
    simp only [carryOut]
    rcases s.board.move u.serial with ⟨_ | ⟨leaves, enters⟩, b⟩
    · exact .refl _
    · exact s.commentary.continuesTo_message _
  | attack | charge | fortify => exact .refl _
  | spawn | wait | defend => exact s.commentary.continuesTo_message _

theorem continuesTo_perform (s : Scene ρ) (id : Serial) (c : Command) (args : List Value) :
    s.commentary.ContinuesTo (s.perform id c args).2.commentary := by
  obtain ⟨-, e⟩ | ⟨o, -, -, e⟩ := s.perform_cases id c args
  · rw [e]
    exact .refl _
  · rw [e]
    obtain ⟨-, e'⟩ | ⟨u, -, -, e'⟩ := s.obey_cases id o
    · rw [e']
      exact .refl _
    · rw [e']
      exact continuesTo_carryOut { s with board := s.board.setUnit _ } _ o

end Scene

end Skirmish.Arena

namespace Skirmish.Contest.Match

open Arena Script Skirmish.Random

variable {ρ : Type}

theorem continuesTo_farewells (m : Match ρ) : m.commentary.ContinuesTo m.farewells := by
  unfold farewells
  generalize m.commentary = c
  induction m.board.removeEliminated.1 generalizing c with
  | nil => exact .refl c
  | cons player gone ih => exact (c.continuesTo_message _).trans (ih _)

/-- What is shown when a unit has done its part of a turn. -/
theorem continuesTo_close (m : Match ρ) :
    m.commentary.ContinuesTo m.picture.sayFarewell.commentary := by
  rw [sayFarewell_eq]
  exact (m.commentary.continuesTo_picture m.board).trans m.picture.continuesTo_farewells

theorem continuesTo_recordFault (m : Match ρ) (u : Fighter) (fault : Fault) :
    m.commentary.ContinuesTo (m.recordFault u fault).commentary :=
  m.commentary.continuesTo_message _

variable [WordSource ρ]

theorem continuesTo_runScript (m : Match ρ) (u : Fighter) :
    m.commentary.ContinuesTo (m.runScript u).2.commentary :=
  Block.run_keeps (fun s : Scene ρ ↦ m.commentary.ContinuesTo s.commentary) (Scene.host u.serial)
    (fun c args s _ _ h ↦ h.trans (s.continuesTo_perform u.serial c args))
    (fun line s h ↦ h.trans (s.commentary.continuesTo_printed line)) m.symbols
    (m.scriptOf u.owner) u.bindings (s := m.scene) (.refl _)

theorem continuesTo_ended (m : Match ρ) (u : Fighter) :
    m.commentary.ContinuesTo (m.ended u).commentary :=
  ((m.commentary.continuesTo_message _).trans (Commentary.continuesTo_message _ _)).trans
    ((m.ready u).continuesTo_runScript u)

end Skirmish.Contest.Match
