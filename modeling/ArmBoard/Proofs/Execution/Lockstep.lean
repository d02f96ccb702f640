import ArmBoard.Proofs.Bus.Likeness
import ArmBoard.Proofs.Execution.Trait

/-!
# Execution in lockstep

Two processors in the same state, on buses that are alike, execute an opcode in
lockstep: with the same outcome, and to states that are alike again. Nothing in
the processor depends on the bus, and accesses to memory do not tell the buses
apart.
-/
namespace ArmBoard.Core

open ArmBoard.Action (Respects)

/-- The same processor on buses that are alike. -/
structure Alike (core other : Core) : Prop where
  cpu : core.cpu = other.cpu
  bus : core.bus.Alike other.bus

variable {core other : Core}

theorem Alike.exists_bus (alike : core.Alike other) :
    ∃ bus, other = { core with bus } ∧ core.bus.Alike bus := by
  refine ⟨other.bus, ?_, alike.bus⟩
  rw [alike.cpu]

section Processor

variable {α : Type}

/-- A question about the processor has the same answer on any bus. -/
theorem ask_respects {question : Core → Except Fault α}
    (elsewhere : ∀ core bus, question { core with bus } = question core) :
    Respects Alike (Action.ask question) := by
  apply Respects.ask
  intro core other alike
  obtain ⟨bus, rfl, _⟩ := alike.exists_bus
  exact (elsewhere core bus).symm

/-- A change of the processor is the same on any bus. -/
theorem change_respects {update : Core → Core}
    (elsewhere : ∀ core bus, update { core with bus } = { update core with bus }) :
    Respects Alike (Action.change update) := by
  apply Respects.change
  intro core other alike
  obtain ⟨bus, rfl, same⟩ := alike.exists_bus
  -- On its own bus as well, so that the bus is left as it is.
  have here : update core = { update core with bus := core.bus } := elsewhere core core.bus
  have stays : (update core).bus = core.bus := congrArg (·.bus) here
  rw [elsewhere core bus]
  exact ⟨rfl, stays ▸ same⟩

theorem changeOr_respects {update : Core → Except Fault Core}
    (elsewhere : ∀ core bus, update { core with bus } =
      (update core).map fun reached => { reached with bus }) :
    Respects Alike (Action.changeOr update) := by
  apply Respects.changeOr
  intro core other alike
  obtain ⟨bus, rfl, same⟩ := alike.exists_bus
  have here : update core = (update core).map fun reached => { reached with bus := core.bus } :=
    elsewhere core core.bus
  rw [elsewhere core bus]
  cases updated : update core with
  | error fault => exact .failed fault
  | ok reached =>
    rw [updated] at here
    have stays : reached.bus = core.bus := congrArg (·.bus) (Except.ok.inj here)
    exact .made ⟨rfl, stays ▸ same⟩

end Processor

section Accesses

theorem onBus_respects {α : Type} {action : Action Bus α} (respects : Respects Bus.Alike action) :
    Respects Alike (onBus action) := by
  apply respects.onPart
  · intro core other alike
    exact alike.bus
  · intro core other bus otherBus alike same
    exact ⟨alike.cpu, same⟩

theorem load_respects (count : Nat) (address : Word) : Respects Alike (load count address) :=
  onBus_respects (Bus.load_respects (Bus.report_impartial []) count address)

theorem store_respects (count : Nat) (address : Word) (value : BitVec (8 * count)) :
    Respects Alike (store count address value) :=
  onBus_respects (Bus.store_respects (Bus.report_impartial []) count address value)

end Accesses

/-- An instruction that is executed on both does the same on both. -/
def lockstep : Trait where
  holds := Respects Alike
  pure := .pure
  fail := .fail
  bind := .bind
  readRegister _ := ask_respects fun _ _ => rfl
  writeRegister number value := by
    apply changeOr_respects
    intro core bus
    dsimp only
    cases core.cpu.registers.set? number value <;> rfl
  pc := ask_respects fun _ _ => rfl
  setPc _ := change_respects fun _ _ => rfl
  status := ask_respects fun _ _ => rfl
  setStatus _ := change_respects fun _ _ => rfl
  savedStatus := ask_respects fun _ _ => rfl
  setSavedStatus status := by
    apply changeOr_respects
    intro core bus
    dsimp only
    cases core.cpu.setSavedStatus status <;> rfl
  load := load_respects
  store := store_respects

end ArmBoard.Core
