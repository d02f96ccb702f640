import ArmBoard.Execution.Core

/-!
# Arithmetic, status transfers and branches

The instructions that leave memory alone.
-/
namespace ArmBoard.Core

/-- The second operand, shifted, with the shifter's carry. -/
def shiftedOperand : Operand → Action Core Shifted
  | .immediate base rotate => do
      let status ← status
      return .ofImmediate base rotate status.carry
  | .register (.immediate amount) kind number => do
      let status ← status
      let value ← readOperand number false
      return .byImmediate kind amount value status.carry
  | .register (.register amountNumber) kind number => do
      let status ← status
      let amount ← readRegister amountNumber
      let value ← readOperand number true
      return .byRegister kind amount value status.carry

/-- The result of an operation on a first operand and a shifted second one. -/
def aluResult (op : AluOp) (first : Word) (second : Shifted) (status : Status) : AluResult :=
  let logical (value : Word) := AluResult.logical value second.carry status.overflow
  match op with
  | .and | .tst => logical (first &&& second.value)
  | .eor | .teq => logical (first ^^^ second.value)
  | .orr => logical (first ||| second.value)
  | .mov => logical second.value
  | .bic => logical (first &&& ~~~second.value)
  | .mvn => logical (~~~second.value)
  | .sub | .cmp => .sub first second.value
  | .rsb => .sub second.value first
  | .add | .cmn => .add first second.value
  | .adc => .addWithCarry first second.value status.carry
  | .sbc => .subWithCarry first second.value status.carry
  | .rsc => .subWithCarry second.value first status.carry

/-- Sets the flags, if asked to, and then writes the register of an operation. -/
def operate (op : AluOp) (setFlags : Bool) (rd : Nat) (first : Word) (second : Shifted) :
    Action Core Unit := do
  let status ← status
  let result := aluResult op first second status
  if setFlags then
    setStatus (status.withFlags result)
  -- The result of a test goes nowhere.
  if !op.isTest then
    writeRegister rd result.value

def dataProcessing (op : AluOp) (setFlags : Bool) (rn rd : Nat) (operand : Operand) :
    Action Core Unit := do
  let first ← readOperand rn operand.shiftsByRegister
  let second ← shiftedOperand operand
  operate op setFlags rd first second

def readStatus (kind : StatusKind) (rd : Nat) : Action Core Unit := do
  let value ← match kind with
    | .current => status
    | .saved => savedStatus
  writeRegister rd value.bits

def statusValue : StatusSource → Action Core Word
  | .immediate base rotate => pure (base.rotateRight (rotate * 2))
  | .register number => readRegister number

def mergeStatus (kind : StatusKind) (fields value : Word) : Action Core Unit :=
  match kind with
  | .current => do
      let old ← status
      setStatus (old.merge fields value)
  | .saved => do
      let old ← savedStatus
      setSavedStatus (old.merge fields value)

/-- Copies a general register or an immediate to the selected bytes of a status register. -/
def writeStatus (kind : StatusKind) (source : StatusSource) (fields : Word) :
    Action Core Unit := do
  let value ← statusValue source
  mergeStatus kind fields value

/-- A multiplication. Its flags keep the overflow and take bit 0 of the result for the carry. -/
def multiply (variant : Multiplication) (setFlags : Bool) (rd rn rs rm : Nat) :
    Action Core Unit := do
  let multiplicand ← readRegister rm
  let multiplier ← readRegister rs
  let product := multiplicand * multiplier
  let result ← match variant with
    | .mul => pure product
    | .mla => do
        let addend ← readRegister rn
        pure (product + addend)
  writeRegister rd result
  if setFlags then
    let old ← status
    setStatus (((old.put Status.negativeBit (Bits.test result 31)).put Status.zeroBit
      (result == 0)).put Status.carryBit (Bits.test result 0))

def longProduct (signed : Bool) (multiplicand multiplier : Word) : Dword :=
  if signed then multiplicand.signExtend 64 * multiplier.signExtend 64
  else multiplicand.setWidth 64 * multiplier.setWidth 64

/--
A long multiplication. The low word is written before the high one. Its flags describe all
sixty-four bits and take bits 0 and 1 of the low word for carry and overflow.
-/
def multiplyLong (variant : LongMultiplication) (setFlags : Bool) (rdHi rdLo rs rm : Nat) :
    Action Core Unit := do
  let multiplicand ← readRegister rm
  let multiplier ← readRegister rs
  let product := longProduct variant.isSigned multiplicand multiplier
  let result : Dword ←
    if variant.accumulates then do
      let high ← readRegister rdHi
      let low ← readRegister rdLo
      pure (product + (high ++ low))
    else pure product
  let low : Word := result.setWidth 32
  writeRegister rdLo low
  writeRegister rdHi ((result >>> 32).setWidth 32)
  if setFlags then
    let old ← status
    setStatus ((((old.put Status.negativeBit (Bits.test result 63)).put Status.zeroBit
      (result == 0)).put Status.carryBit (Bits.test low 0)).put Status.overflowBit
      (Bits.test low 1))

def reversed (variant : ByteReversal) (value : Word) : Word :=
  match variant with
  | .rev =>
      ((value &&& 0xFF) <<< 24) ||| ((value &&& 0xFF00) <<< 8) ||| ((value >>> 8) &&& 0xFF00) |||
        (value >>> 24)
  | .rev16 => ((value &&& 0x00FF00FF) <<< 8) ||| ((value >>> 8) &&& 0x00FF00FF)
  | .revsh => Bits.signExtend (((value &&& 0xFF) <<< 8) ||| ((value >>> 8) &&& 0xFF)) 16

def byteReverse (variant : ByteReversal) (rd rm : Nat) : Action Core Unit := do
  let value ← readRegister rm
  writeRegister rd (reversed variant value)

/-- Branches to the address in a register. An odd address asks for a state that is not there. -/
def branchExchange (raw : Word) (rm : Nat) : Action Core Unit := do
  let target ← readRegister rm
  if Bits.test target 0 then
    Action.fail (.illegal raw 0 .thumbTarget)
  else
    setPc (target &&& ~~~0b11)

/-- Branches by an offset from r15. A link is the address of the next instruction. -/
def branch (link : Bool) (offset : Word) : Action Core Unit := do
  let here ← pc
  if link then
    -- r15 is two instructions ahead, the one to return to is one ahead.
    writeRegister Registers.lrNumber (here - pipelineDistance + instructionSize)
  setPc (here + offset)

end ArmBoard.Core
