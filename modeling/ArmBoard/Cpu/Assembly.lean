import ArmBoard.Cpu.Decoder

/-!
# Assembly text

Instructions as assembly language writes them: a mnemonic, the condition, the
letters that modify it, then the operands. Immediate operands are printed as
the value they stand for, branch offsets as signed byte counts from r15.
-/
namespace ArmBoard

open Text

def registerText (number : Nat) : String := "R" ++ toString number

def flagsText (setFlags : Bool) : String := if setFlags then "S" else ""

/-- An immediate operand: a base rotated right by twice the rotation. -/
def immediateText (base : Word) (rotate : Nat) : String :=
  "#" ++ toString (base.rotateRight (rotate * 2)).toNat

def ShiftAmount.text : ShiftAmount → String
  | immediate amount => "#" ++ toString amount
  | register number => registerText number

/-- The second operand. An encoded amount of zero is printed as the shift that it stands for. -/
def Operand.text : Operand → String
  | immediate base rotate => immediateText base rotate
  | register (.immediate 0) .lsl number => registerText number
  | register (.immediate 0) .ror number => registerText number ++ ", RRX"
  | register (.immediate 0) kind number => registerText number ++ ", " ++ kind.name ++ " #32"
  | register amount kind number => registerText number ++ ", " ++ kind.name ++ " " ++ amount.text

def StatusKind.text : StatusKind → String
  | current => "CPSR"
  | saved => "SPSR"

def StatusSource.text : StatusSource → String
  | immediate base rotate => immediateText base rotate
  | register number => registerText number

/-- The letters of the selected bytes of a status register, lowest byte first. -/
def statusFieldsText (fields : Word) : String :=
  String.join (([(0, "c"), (1, "x"), (2, "s"), (3, "f")].filter
    fun entry => Bits.test fields entry.1).map (·.2))

def Multiplication.name : Multiplication → String
  | mul => "MUL"
  | mla => "MLA"

def LongMultiplication.name : LongMultiplication → String
  | umull => "UMULL"
  | umlal => "UMLAL"
  | smull => "SMULL"
  | smlal => "SMLAL"

def ByteReversal.name : ByteReversal → String
  | rev => "REV"
  | rev16 => "REV16"
  | revsh => "REVSH"

def Quantity.text : Quantity → String
  | word => ""
  | byte => "B"

def HalfKind.text : HalfKind → String
  | unsignedHalf => "H"
  | signedByte => "SB"
  | signedHalf => "SH"

def Direction.name : Direction → String
  | store => "STR"
  | load => "LDR"

def Direction.blockName : Direction → String
  | store => "STM"
  | load => "LDM"

def Direction.coprocessorName : Direction → String
  | store => "STC"
  | load => "LDC"

def Direction.coprocessorRegisterName : Direction → String
  | store => "MCR"
  | load => "MRC"

def Offsetting.sign : Offsetting → String
  | up => ""
  | down => "-"

/-- Where a block lies: the address moves up or down, after or before each register. -/
def blockModeText : Offsetting → Indexing → String
  | .up, .post => "IA"
  | .up, .pre => "IB"
  | .down, .post => "DA"
  | .down, .pre => "DB"

def PlainOffset.text : PlainOffset → String
  | immediate offset => "#" ++ toString offset.toNat
  | register number => registerText number

def ShiftedOffset.text : ShiftedOffset → String
  | immediate offset => "#" ++ toString offset.toNat
  | register 0 .lsl number => registerText number
  | register amount kind number =>
      registerText number ++ ", " ++ kind.name ++ " #" ++ toString amount

def writeBackText (writeBack : Bool) : String := if writeBack then "!" else ""

/-- The address of a transfer; an update after post-indexing goes without saying. -/
def Addressing.text {offset : Type} (addressing : Addressing offset) (distance : String) : String :=
  let moved := addressing.offsetting.sign ++ distance
  match addressing.indexing with
  | .pre =>
      "[" ++ registerText addressing.base ++ ", " ++ moved ++ "]" ++
        writeBackText addressing.writeBack
  | .post => "[" ++ registerText addressing.base ++ "], " ++ moved

/-- A list of registers between braces, marked when the status bit is set. -/
def registerListText (registers : Half) (statusBit : Bool) : String :=
  "\x7b" ++ ", ".intercalate ((listedRegisters registers).map fun number => registerText number.val) ++
    "\x7d" ++ (if statusBit then "^" else "")

namespace Instruction

/-- The mnemonic with its condition and modifiers, and the operands that follow it. -/
def assembly (condition : Condition) : Instruction → String
  | dataProcessing op setFlags rn rd operand =>
      if op.isTest then
        op.name ++ condition.suffix ++ " " ++ registerText rn ++ ", " ++ operand.text
      else if op.isMove then
        op.name ++ condition.suffix ++ flagsText setFlags ++ " " ++ registerText rd ++ ", " ++
          operand.text
      else
        op.name ++ condition.suffix ++ flagsText setFlags ++ " " ++ registerText rd ++ ", " ++
          registerText rn ++ ", " ++ operand.text
  | statusRead kind rd =>
      "MRS" ++ condition.suffix ++ " " ++ registerText rd ++ ", " ++ kind.text
  | statusWrite kind source fields =>
      "MSR" ++ condition.suffix ++ " " ++ kind.text ++ "_" ++ statusFieldsText fields ++ ", " ++
        source.text
  | multiply variant setFlags rd rn rs rm =>
      variant.name ++ condition.suffix ++ flagsText setFlags ++ " " ++ registerText rd ++ ", " ++
        registerText rm ++ ", " ++ registerText rs ++
        (match variant with
          | .mul => ""
          | .mla => ", " ++ registerText rn)
  | multiplyLong variant setFlags rdHi rdLo rs rm =>
      variant.name ++ condition.suffix ++ flagsText setFlags ++ " " ++ registerText rdLo ++ ", " ++
        registerText rdHi ++ ", " ++ registerText rm ++ ", " ++ registerText rs
  | swap quantity rn rd rm =>
      "SWP" ++ condition.suffix ++ quantity.text ++ " " ++ registerText rd ++ ", " ++
        registerText rm ++ ", [" ++ registerText rn ++ "]"
  | branchExchange rm => "BX" ++ condition.suffix ++ " " ++ registerText rm
  | byteReverse variant rd rm =>
      variant.name ++ condition.suffix ++ " " ++ registerText rd ++ ", " ++ registerText rm
  | halfTransfer direction kind rd addressing =>
      direction.name ++ condition.suffix ++ kind.text ++ " " ++ registerText rd ++ ", " ++
        addressing.text addressing.offset.text
  | doubleTransfer direction rd addressing =>
      direction.name ++ condition.suffix ++ "D " ++ registerText rd ++ ", " ++
        addressing.text addressing.offset.text
  | singleTransfer direction quantity rd addressing =>
      direction.name ++ condition.suffix ++ quantity.text ++ " " ++ registerText rd ++ ", " ++
        addressing.text addressing.offset.text
  | blockTransfer direction indexing offsetting statusBit writeBack rn registers =>
      direction.blockName ++ condition.suffix ++ blockModeText offsetting indexing ++ " " ++
        registerText rn ++ writeBackText writeBack ++ ", " ++ registerListText registers statusBit
  | branch link offset =>
      "B" ++ (if link then "L" else "") ++ condition.suffix ++ " #" ++ toString offset.toInt
  | coprocessorTransfer direction coprocessor crd rn offset =>
      direction.coprocessorName ++ condition.suffix ++ " p" ++ toString coprocessor ++ ", c" ++
        toString crd ++ ", [" ++ registerText rn ++ "], #" ++ toString offset
  | coprocessorOperation coprocessor => "CDP" ++ condition.suffix ++ " p" ++ toString coprocessor
  | coprocessorRegister direction coprocessor =>
      direction.coprocessorRegisterName ++ condition.suffix ++ " p" ++ toString coprocessor
  | softwareInterrupt comment =>
      "SWI" ++ condition.suffix ++ " #" ++ hex comment.toNat

end Instruction

namespace Opcode

def assembly (opcode : Opcode) : String := opcode.instruction.assembly opcode.condition

end Opcode

end ArmBoard
