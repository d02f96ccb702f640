import ArmBoard.Bus.Peripherals
import ArmBoard.Cpu.Instruction
import ArmBoard.Cpu.Registers

/-!
# The processor on its bus

The state that instructions work on, and the steps they are made of: reading
and writing registers, the status and memory. All accesses to memory are
tracked.
-/
namespace ArmBoard

/-- A processor and the bus it is wired to. -/
structure Core where
  cpu : Cpu
  bus : Bus

def instructionSize : Word := 4

/-- How far r15 runs ahead of the executing instruction. -/
def pipelineDistance : Word := 8

namespace Core

def onBus {α : Type} (action : Action Bus α) : Action Core α :=
  action.onPart (·.bus) fun core bus => { core with bus }

def readRegister (number : Nat) : Action Core Word := .ask fun core =>
  match core.cpu.registers.get? number with
  | some value => .ok value
  | none => .error (.noSuchRegister number)

def writeRegister (number : Nat) (value : Word) : Action Core Unit := .changeOr fun core =>
  match core.cpu.registers.set? number value with
  | some registers => .ok { core with cpu := { core.cpu with registers } }
  | none => .error (.noSuchRegister number)

/-- A register as an operand. An instruction that takes an extra cycle finds r15 a word further. -/
def readOperand (number : Nat) (extraCycle : Bool) : Action Core Word := do
  let value ← readRegister number
  return if number == Registers.pcNumber && extraCycle then value + instructionSize else value

def pc : Action Core Word := .ask fun core => .ok core.cpu.registers.pc

def setPc (value : Word) : Action Core Unit := .change fun core =>
  { core with cpu := { core.cpu with registers := core.cpu.registers.setPc value } }

def status : Action Core Status := .ask fun core => .ok core.cpu.status

def setStatus (status : Status) : Action Core Unit := .change fun core =>
  { core with cpu := { core.cpu with status } }

def savedStatus : Action Core Status := .ask fun core => core.cpu.savedStatus

def setSavedStatus (status : Status) : Action Core Unit := .changeOr fun core =>
  (core.cpu.setSavedStatus status).map fun cpu => { core with cpu }

def load (count : Nat) (address : Word) : Action Core (BitVec (8 * count)) :=
  onBus (Bus.load (Bus.report []) count address)

def store (count : Nat) (address : Word) (value : BitVec (8 * count)) : Action Core Unit :=
  onBus (Bus.store (Bus.report []) count address value)

def loadByte (address : Word) : Action Core Byte := load 1 address

def loadHalf (address : Word) : Action Core Half := load 2 address

def loadWord (address : Word) : Action Core Word := load 4 address

def storeByte (address : Word) (value : Byte) : Action Core Unit := store 1 address value

def storeHalf (address : Word) (value : Half) : Action Core Unit := store 2 address value

def storeWord (address value : Word) : Action Core Unit := store 4 address value

end Core

end ArmBoard
