import ArmBoard.Cpu.Status
import ArmBoard.Fault

/-!
# Registers

Sixteen general registers, the current status and thirty-two saved status
registers, one for each value of the mode field. The general registers are
shared by all modes.
-/
namespace ArmBoard

structure Registers where
  cells : Vector Word 16
  deriving DecidableEq, Repr

namespace Registers

def lrNumber : Nat := 14

/-- The program counter, which runs ahead of the executing instruction. -/
def pcNumber : Nat := 15

def zeroed : Registers := ⟨Vector.replicate 16 0⟩

def get (registers : Registers) (number : Fin 16) : Word := registers.cells[number]

def set (registers : Registers) (number : Fin 16) (value : Word) : Registers :=
  ⟨registers.cells.set number value⟩

/-- A register reads back, and writing it leaves the others alone. -/
theorem get_set (registers : Registers) (number other : Fin 16) (value : Word) :
    (registers.set number value).get other =
      if number = other then value else registers.get other := by
  simp [get, set, Vector.getElem_set, Fin.ext_iff]

/-- The contents of a register given by any number; there are none above fifteen. -/
def get? (registers : Registers) (number : Nat) : Option Word :=
  if bound : number < 16 then some (registers.get ⟨number, bound⟩) else none

/-- Replaces the contents of a register given by any number. -/
def set? (registers : Registers) (number : Nat) (value : Word) : Option Registers :=
  if bound : number < 16 then some (registers.set ⟨number, bound⟩ value) else none

def pc (registers : Registers) : Word := registers.get 15

def setPc (registers : Registers) (value : Word) : Registers := registers.set 15 value

theorem pc_setPc (registers : Registers) (value : Word) : (registers.setPc value).pc = value := by
  rw [pc, setPc, get_set, if_pos rfl]

theorem setPc_setPc (registers : Registers) (first second : Word) :
    (registers.setPc first).setPc second = registers.setPc second := by
  simp [setPc, set]

/-- Moves the program counter on, around the end of the address space if need be. -/
def advancePc (registers : Registers) (bytes : Word) : Registers :=
  registers.setPc (registers.pc + bytes)

def sp (registers : Registers) : Word := registers.get 13

def lr (registers : Registers) : Word := registers.get 14

/-- The assembler names of a register, its number first. -/
def names (number : Fin 16) : List String :=
  let numbered := "r" ++ toString number.val
  match number.val with
  | 13 => [numbered, "sp"]
  | 14 => [numbered, "lr"]
  | 15 => [numbered, "pc"]
  | _ => [numbered]

end Registers

/-- One saved status register for each mode. -/
structure SavedStatuses where
  cells : Vector Status 32
  deriving DecidableEq, Repr

namespace SavedStatuses

def zeroed : SavedStatuses := ⟨Vector.replicate 32 ⟨0⟩⟩

def get (saved : SavedStatuses) (mode : Word) : Except Fault Status :=
  if bound : mode.toNat < 32 then .ok saved.cells[mode.toNat] else .error (.noSavedStatus mode)

def set (saved : SavedStatuses) (mode : Word) (status : Status) : Except Fault SavedStatuses :=
  if bound : mode.toNat < 32 then .ok ⟨saved.cells.set mode.toNat status⟩
  else .error (.noSavedStatus mode)

end SavedStatuses

/-- The processor: its general registers, its status and the saved ones. -/
structure Cpu where
  registers : Registers
  status : Status
  saved : SavedStatuses
  deriving DecidableEq, Repr

namespace Cpu

def zeroed : Cpu := ⟨.zeroed, ⟨0⟩, .zeroed⟩

def savedStatus (cpu : Cpu) : Except Fault Status := cpu.saved.get cpu.status.mode

def setSavedStatus (cpu : Cpu) (status : Status) : Except Fault Cpu :=
  (cpu.saved.set cpu.status.mode status).map fun saved => { cpu with saved }

end Cpu

end ArmBoard
