import Skirmish.Proofs.Script.Checks

/-!
# What passes between a script and its host

`Host.tracing` writes down every request of a script with the worlds before and
after it.  A script cannot tell that this is done, and what is written down is
what the host does (`Block.run_tracing`).  `Host.narrating` writes down all that
can be seen of a script from outside: its requests and what it prints.
-/

namespace Skirmish.Script

variable {σ : Type}

/-- A request to a host and its answer, between two states of the world. -/
structure Exchange (σ : Type) extends HostCall where
  before : σ
  after : σ

/-- The exchange is what comes of asking this host. -/
def Exchange.IsWith (host : Host σ) (e : Exchange σ) : Prop :=
  host.perform e.command e.args e.before = (e.answer, e.after)

/-- The host that writes down what passes, the last exchange last. -/
def Host.tracing (host : Host σ) : Host (σ × List (Exchange σ)) where
  perform c args w :=
    let (answer, s) := host.perform c args w.1
    (answer, (s, w.2 ++ [⟨⟨c, args, answer⟩, w.1, s⟩]))
  print line w := (host.print line w.1, w.2)

theorem Host.tracing_related (host : Host σ) :
    Host.Related (fun s w ↦ s = w.1) host host.tracing :=
  .of_books (fun _ _ _ ↦ rfl) fun _ _ ↦ rfl

/-- Writing down what passes changes nothing else, and all of it is exchanged
with the host. -/
theorem Block.run_tracing (host : Host σ) (symbols : SymbolTable) (block : Block)
    (bindings : Bindings) (s : σ) :
    let run := block.run host.tracing symbols bindings (s, [])
    block.run host symbols bindings s = (run.1, ⟨run.2.bindings, run.2.world.1⟩) ∧
      ∀ e ∈ run.2.world.2, e.IsWith host := by
  constructor
  · exact block.run_of_books host.tracing_related symbols bindings s []
  · refine Block.run_keeps (fun w : σ × List (Exchange σ) ↦ ∀ e ∈ w.2, e.IsWith host)
      host.tracing ?_ (fun line w hw ↦ hw) symbols block bindings (s := (s, [])) (by simp)
    rintro c args w - - hw e he
    rcases List.mem_append.1 he with he | he
    · exact hw e he
    · rw [List.mem_singleton.1 he]
      exact rfl

/-- What can be seen of a script from outside. -/
inductive Event where
  | asked (call : HostCall)
  | printed (line : String)

/-- The host that writes down what it is asked and told to print, the last event
last. -/
def Host.narrating (host : Host σ) : Host (σ × List Event) where
  perform c args w :=
    let (answer, s) := host.perform c args w.1
    (answer, (s, w.2 ++ [.asked ⟨c, args, answer⟩]))
  print line w := (host.print line w.1, w.2 ++ [.printed line])

theorem Host.narrating_related (host : Host σ) :
    Host.Related (fun s w ↦ s = w.1) host host.narrating :=
  .of_books (fun _ _ _ ↦ rfl) fun _ _ ↦ rfl

end Skirmish.Script
