import ArmBoard.Execution.Arithmetic
import ArmBoard.Execution.Transfer

/-!
# Executing an opcode

An opcode whose condition fails does nothing. Otherwise its instruction is
performed, and the answer tells whether r15 was written, so that the words
fetched behind the instruction are stale.
-/
namespace ArmBoard.Core

/-- Performs an instruction regardless of its condition. `raw` is the word that faults quote. -/
def performInstruction (raw : Word) : Instruction → Action Core Unit
  | .dataProcessing op setFlags rn rd operand => dataProcessing op setFlags rn rd operand
  | .statusRead kind rd => readStatus kind rd
  | .statusWrite kind source fields => writeStatus kind source fields
  | .multiply variant setFlags rd rn rs rm => multiply variant setFlags rd rn rs rm
  | .multiplyLong variant setFlags rdHi rdLo rs rm => multiplyLong variant setFlags rdHi rdLo rs rm
  | .swap quantity rn rd rm => swap quantity rn rd rm
  | .branchExchange rm => branchExchange raw rm
  | .byteReverse variant rd rm => byteReverse variant rd rm
  | .halfTransfer direction kind rd addressing => halfTransfer direction kind rd addressing
  | .doubleTransfer direction rd addressing => doubleTransfer direction rd addressing
  | .singleTransfer direction quantity rd addressing =>
      singleTransfer direction quantity rd addressing
  | .blockTransfer direction indexing offsetting _ writeBack rn registers =>
      blockTransfer direction indexing offsetting writeBack rn registers
  | .branch link offset => branch link offset
  | .coprocessorTransfer .. | .coprocessorOperation .. | .coprocessorRegister ..
  | .softwareInterrupt .. => pure ()

/-- Executes an opcode and tells whether r15 was written, be it with the value it already held. -/
def execute (opcode : Opcode) : Action Core Bool := do
  let status ← status
  match status.passes opcode.condition with
  | none => Action.fail (.illegal opcode.raw 0 .reservedCondition)
  | some false => pure false
  | some true => do
      let before ← pc
      performInstruction opcode.raw opcode.instruction
      let after ← pc
      return opcode.instruction.targetsPc || after != before

end ArmBoard.Core
