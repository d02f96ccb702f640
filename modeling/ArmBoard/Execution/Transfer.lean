import ArmBoard.Execution.Core

/-!
# Transfers to and from memory

Swaps and the single, halfword, doubleword and block transfers. A base
register is updated only after the access has succeeded, except by a block
load, which updates it at once. A loaded value wins over an updated base.
-/
namespace ArmBoard.Core

/-- The distance that a halfword or doubleword transfer adds to its base. -/
def plainDistance : PlainOffset → Action Core Word
  | .immediate offset => pure offset
  | .register number => readRegister number

/-- The distance that a word or byte transfer adds to its base. -/
def shiftedDistance : ShiftedOffset → Action Core Word
  | .immediate offset => pure offset
  | .register amount kind number => do
      let value ← readRegister number
      let status ← status
      return (Shifted.byImmediate kind amount value status.carry).value

/-- The address of a transfer and the value its base would take. -/
def resolve {offset : Type} (addressing : Addressing offset) (distance : Action Core Word) :
    Action Core (Word × Word) := do
  let distance ← distance
  let base ← readRegister addressing.base
  return addressing.resolve base distance

/-- Updates the base register, if the addressing asks for it. -/
def updateBase {offset : Type} (addressing : Addressing offset) (value : Word) :
    Action Core Unit :=
  if addressing.updatesBase then writeRegister addressing.base value else pure ()

/-- Exchanges a register with memory: the old value is read before the new one is written. -/
def swap (quantity : Quantity) (rn rd rm : Nat) : Action Core Unit := do
  let address ← readRegister rn
  let source ← readRegister rm
  match quantity with
  | .byte => do
      let old ← loadByte address
      storeByte address (source.setWidth 8)
      writeRegister rd (old.setWidth 32)
  | .word => do
      let old ← loadWord address
      storeWord address source
      writeRegister rd old

/-- The value that a halfword load leaves in its register. -/
def loadHalfKind (kind : HalfKind) (address : Word) : Action Core Word :=
  match kind with
  | .unsignedHalf => do
      let value ← loadHalf address
      return value.setWidth 32
  | .signedByte => do
      let value ← loadByte address
      return Bits.signExtend (value.setWidth 32) 8
  | .signedHalf => do
      let value ← loadHalf address
      return Bits.signExtend (value.setWidth 32) 16

/-- A halfword transfer. There are no signed stores. -/
def halfTransfer (direction : Direction) (kind : HalfKind) (rd : Nat)
    (addressing : Addressing PlainOffset) : Action Core Unit := do
  let (address, newBase) ← resolve addressing (plainDistance addressing.offset)
  match direction with
  | .load => do
      let value ← loadHalfKind kind address
      updateBase addressing newBase
      writeRegister rd value
  | .store =>
    match kind with
    | .unsignedHalf => do
        let value ← readOperand rd true
        storeHalf address (value.setWidth 16)
        updateBase addressing newBase
    | kind => Action.fail (.unhandled .halfStoreKind (BitVec.ofNat 32 kind.index))

def doubleTransfer (direction : Direction) (rd : Nat) (addressing : Addressing PlainOffset) :
    Action Core Unit := do
  let (address, newBase) ← resolve addressing (plainDistance addressing.offset)
  let next := address + instructionSize
  match direction with
  | .load => do
      let low ← loadWord address
      let high ← loadWord next
      -- Both words are at hand before any register changes.
      updateBase addressing newBase
      writeRegister rd low
      writeRegister (rd + 1) high
  | .store => do
      -- The first word stays stored even if there is no memory for the second.
      let low ← readRegister rd
      storeWord address low
      let high ← readRegister (rd + 1)
      storeWord next high
      updateBase addressing newBase

/-- Moves a word or a byte between a register and an address, and then updates the base. -/
def moveSingle (direction : Direction) (quantity : Quantity) (rd : Nat)
    (addressing : Addressing ShiftedOffset) (address newBase : Word) : Action Core Unit :=
  match direction with
  | .load => do
      let value ← match quantity with
        | .byte => do
            let byte ← loadByte address
            pure (byte.setWidth 32)
        | .word => loadWord address
      updateBase addressing newBase
      writeRegister rd value
  | .store => do
      let value ← readOperand rd true
      match quantity with
      | .byte => storeByte address (value.setWidth 8)
      | .word => storeWord address value
      updateBase addressing newBase

def singleTransfer (direction : Direction) (quantity : Quantity) (rd : Nat)
    (addressing : Addressing ShiftedOffset) : Action Core Unit := do
  let (address, newBase) ← resolve addressing (shiftedDistance addressing.offset)
  moveSingle direction quantity rd addressing address newBase

/-- The lowest address of a block and the value that an updated base takes. -/
def blockBounds (indexing : Indexing) (offsetting : Offsetting) (base size : Word) : Word × Word :=
  match offsetting, indexing with
  | .up, .post => (base, base + size)
  | .up, .pre => (base + instructionSize, base + size)
  | .down, .post => (base - size + instructionSize, base - size)
  | .down, .pre => (base - size, base - size)

/-- Loads registers from consecutive words. -/
def loadBlock : List (Fin 16) → Word → Action Core Unit
  | [], _ => pure ()
  | number :: rest, address => do
      let value ← loadWord address
      writeRegister number value
      loadBlock rest (address + instructionSize)

/-- Stores registers to consecutive words. A new base is written right after the first of them. -/
def storeBlock (rn : Nat) : List (Fin 16) → Word → Option Word → Action Core Unit
  | [], _, _ => pure ()
  | number :: rest, address, newBase? => do
      let value ← readOperand number true
      storeWord address value
      match newBase? with
      | some newBase => writeRegister rn newBase
      | none => pure ()
      storeBlock rn rest (address + instructionSize) none

/--
A transfer of any set of registers, in ascending order from the lowest address of the block. A
load updates the base first, so that a loaded base wins; a store updates it after its first
register, so that a base listed later is stored updated.
-/
def blockTransfer (direction : Direction) (indexing : Indexing) (offsetting : Offsetting)
    (writeBack : Bool) (rn : Nat) (registers : Half) : Action Core Unit := do
  let base ← readRegister rn
  let listed := listedRegisters registers
  let size := BitVec.ofNat 32 (4 * listed.length)
  let (address, newBase) := blockBounds indexing offsetting base size
  match direction with
  | .load => do
      -- Updated at once, so that a load of the base itself has the last word.
      if writeBack then
        writeRegister rn newBase
      loadBlock listed address
  | .store => storeBlock rn listed address (if writeBack then some newBase else none)

end ArmBoard.Core
