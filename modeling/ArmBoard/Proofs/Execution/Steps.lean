import ArmBoard.Proofs.Execution.ProgramCounter
import ArmBoard.Proofs.Memory.Frame

/-!
# Steps that succeed

Registers can always be read and written, and an operand can always be formed
from them. With nobody listening to the bus, a load or a store is an access to
memory and nothing else, and a load that memory can answer succeeds.
-/
namespace ArmBoard

/-- A register as an operand, with r15 a word further where an extra cycle is taken. -/
def Registers.operand (registers : Registers) (number : Fin 16) (extraCycle : Bool) : Word :=
  if number.val = pcNumber ∧ extraCycle = true then registers.get number + instructionSize
  else registers.get number

theorem Registers.operand_of_ne (registers : Registers) {number : Fin 16}
    (other : number.val ≠ pcNumber) (extraCycle : Bool) :
    registers.operand number extraCycle = registers.get number :=
  if_neg fun counter => other counter.1

theorem Bus.report_silent (bus : Bus) (silent : bus.registry.subscriptions = [])
    (busy : List Handle) (touch : Touch) : report busy touch bus = bus := by
  refine report_eq_self ?_ busy
  rw [Registry.hearing, silent]
  rfl

namespace Core

open ArmBoard.Action

variable {core : Core}

section Operands

theorem perform_readRegister (number : Fin 16) :
    (readRegister number).perform core = (.ok (core.cpu.registers.get number), core) := by
  rw [readRegister, perform_ask, Registers.get?_of_lt _ number.isLt]

theorem perform_writeRegister (number : Fin 16) (value : Word) :
    (writeRegister number value).perform core =
      (.ok (), { core with cpu.registers := core.cpu.registers.set number value }) := by
  simp only [writeRegister, perform, changeOr, Registers.set?_of_lt _ number.isLt]

theorem perform_readOperand (number : Fin 16) (extraCycle : Bool) :
    (readOperand number extraCycle).perform core =
      (.ok (core.cpu.registers.operand number extraCycle), core) := by
  rw [readOperand, perform_bind, perform_readRegister]
  dsimp only
  simp only [Bool.and_eq_true, beq_iff_eq]
  rfl

theorem perform_shiftedDistance {kind : ShiftKind} {amount : Nat} {number : Fin 16} (core : Core) :
    (shiftedDistance (.register amount kind number)).perform core =
      (.ok (Shifted.byImmediate kind amount (core.cpu.registers.get number)
        core.cpu.status.carry).value, core) := by
  rw [shiftedDistance, perform_bind, perform_readRegister]
  rfl

theorem perform_resolve_of {offset : Type} {addressing : Addressing offset}
    {distance : Action Core Word} {base length : Word}
    (measured : distance.perform core = (.ok length, core))
    (read : (readRegister addressing.base).perform core = (.ok base, core)) :
    (resolve addressing distance).perform core = (.ok (addressing.resolve base length), core) := by
  rw [resolve, perform_bind, measured]
  dsimp only
  rw [perform_bind, read]
  rfl

/-- Forming the second operand only looks at the processor. -/
theorem exists_shiftedOperand {operand : Operand}
    (bound : ∀ number ∈ operand.registers, number < 16) (core : Core) :
    ∃ second, (shiftedOperand operand).perform core = (.ok second, core) := by
  cases operand with
  | immediate base rotate => exact ⟨_, rfl⟩
  | register amount kind number =>
    obtain ⟨rm, rfl⟩ : ∃ rm : Fin 16, rm.val = number :=
      ⟨⟨number, bound number (by cases amount <;> simp [Operand.registers])⟩, rfl⟩
    cases amount with
    | immediate amount =>
      simp only [shiftedOperand, status, perform_bind, perform_ask, perform_readOperand]
      exact ⟨_, rfl⟩
    | register amount =>
      obtain ⟨rs, rfl⟩ : ∃ rs : Fin 16, rs.val = amount :=
        ⟨⟨amount, bound amount (by simp [Operand.registers])⟩, rfl⟩
      simp only [shiftedOperand, status, perform_bind, perform_ask, perform_readRegister,
        perform_readOperand]
      exact ⟨_, rfl⟩

end Operands

section Accesses

/-- Nobody is told of a load that memory refuses. -/
theorem perform_load_beyond {count : Nat} {address : Word}
    (leaves : core.bus.memory.size < address.toNat + count) :
    (load count address).perform core = (.error (core.bus.memory.beyond address), core) := by
  rw [load, onBus, perform_onPart, Bus.load, perform_ofFunction, Memory.check_eq_beyond leaves]

variable (silent : core.bus.registry.subscriptions = [])
include silent

theorem perform_load {count : Nat} {address : Word} {value : BitVec (8 * count)}
    (read : core.bus.memory.read count address = .ok value) :
    (load count address).perform core = (.ok value, core) := by
  have loaded : (Bus.load (Bus.report []) count address).perform core.bus =
      (.ok value, core.bus) := by
    have fits : core.bus.memory.check address count = .ok () := by
      cases checked : core.bus.memory.check address count with
      | ok _ => rfl
      | error fault => simp [Memory.read, checked] at read
    simp only [Bus.load, perform_ofFunction, fits, Bus.report_silent core.bus silent, read]
  rw [load, onBus, perform_onPart, loaded]

theorem perform_store (count : Nat) (address : Word) (value : BitVec (8 * count)) :
    (store count address value).perform core =
      match core.bus.memory.write count address value with
      | .error fault => (.error fault, core)
      | .ok memory => (.ok (), { core with bus.memory := memory }) := by
  rw [store, onBus, perform_onPart, Bus.store, perform_ofFunction]
  cases core.bus.memory.write count address value with
  | error fault => rfl
  | ok memory =>
    have quiet := Bus.report_silent { core.bus with memory } silent [] ⟨.write, address, count⟩
    dsimp only at quiet ⊢
    rw [quiet]

theorem perform_loadWord {address word : Word}
    (read : core.bus.memory.readWord address = .ok word) :
    (loadWord address).perform core = (.ok word, core) := perform_load silent read

theorem perform_storeWord (address value : Word) :
    (storeWord address value).perform core =
      match core.bus.memory.writeWord address value with
      | .error fault => (.error fault, core)
      | .ok memory => (.ok (), { core with bus.memory := memory }) :=
  perform_store silent 4 address value

end Accesses

end Core

end ArmBoard
