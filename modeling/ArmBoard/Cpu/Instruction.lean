import ArmBoard.Cpu.Condition
import ArmBoard.Cpu.Shifter

/-!
# Instructions

The sixteen families of instructions with their operands, as a decoder finds
them or as a caller builds them. Register numbers are plain numbers: a decoded
word yields only numbers up to fifteen, but an instruction built by hand may
name a register that does not exist.
-/
namespace ArmBoard

/-- The arithmetic and logical operations, in the order of their codes. -/
inductive AluOp where
  | and
  | eor
  | sub
  | rsb
  | add
  | adc
  | sbc
  | rsc
  | tst
  | teq
  | cmp
  | cmn
  | orr
  | mov
  | bic
  | mvn
  deriving DecidableEq, Repr

namespace AluOp

/-- The operation of a code; only the low four bits of `code` count. -/
def ofCode (code : Nat) : AluOp :=
  match code % 16 with
  | 0 => and
  | 1 => eor
  | 2 => sub
  | 3 => rsb
  | 4 => add
  | 5 => adc
  | 6 => sbc
  | 7 => rsc
  | 8 => tst
  | 9 => teq
  | 10 => cmp
  | 11 => cmn
  | 12 => orr
  | 13 => mov
  | 14 => bic
  | _ => mvn

def code : AluOp → Nat
  | and => 0
  | eor => 1
  | sub => 2
  | rsb => 3
  | add => 4
  | adc => 5
  | sbc => 6
  | rsc => 7
  | tst => 8
  | teq => 9
  | cmp => 10
  | cmn => 11
  | orr => 12
  | mov => 13
  | bic => 14
  | mvn => 15

def name : AluOp → String
  | and => "AND"
  | eor => "EOR"
  | sub => "SUB"
  | rsb => "RSB"
  | add => "ADD"
  | adc => "ADC"
  | sbc => "SBC"
  | rsc => "RSC"
  | tst => "TST"
  | teq => "TEQ"
  | cmp => "CMP"
  | cmn => "CMN"
  | orr => "ORR"
  | mov => "MOV"
  | bic => "BIC"
  | mvn => "MVN"

/-- A test only updates the flags; its result goes nowhere. -/
def isTest : AluOp → Bool
  | tst | teq | cmp | cmn => true
  | _ => false

/-- A move ignores the first operand. -/
def isMove : AluOp → Bool
  | mov | mvn => true
  | _ => false

theorem ofCode_code (op : AluOp) : ofCode op.code = op := by
  cases op <;> rfl

end AluOp

inductive ShiftAmount where
  | immediate (amount : Nat)
  | register (number : Nat)
  deriving DecidableEq, Repr

/-- The second operand of an arithmetic or logical operation. -/
inductive Operand where
  | immediate (base : Word) (rotate : Nat)
  | register (amount : ShiftAmount) (kind : ShiftKind) (number : Nat)
  deriving DecidableEq, Repr

/-- Whether the amount of the operand's shift is in a register, which costs a cycle. -/
def Operand.shiftsByRegister : Operand → Bool
  | register (.register _) _ _ => true
  | _ => false

inductive StatusKind where
  | current
  | saved
  deriving DecidableEq, Repr

inductive StatusSource where
  | immediate (base : Word) (rotate : Nat)
  | register (number : Nat)
  deriving DecidableEq, Repr

/-- A multiplication keeps the product or adds a register to it. -/
inductive Multiplication where
  | mul
  | mla
  deriving DecidableEq, Repr

/-- A long multiplication is unsigned or signed, and keeps the product or adds to it. -/
inductive LongMultiplication where
  | umull
  | umlal
  | smull
  | smlal
  deriving DecidableEq, Repr

namespace LongMultiplication

def ofBits (signed accumulates : Bool) : LongMultiplication :=
  match signed, accumulates with
  | false, false => umull
  | false, true => umlal
  | true, false => smull
  | true, true => smlal

def isSigned : LongMultiplication → Bool
  | umull | umlal => false
  | smull | smlal => true

/-- Whether the destination pair is added to the product. -/
def accumulates : LongMultiplication → Bool
  | umull | smull => false
  | umlal | smlal => true

end LongMultiplication

/-- Whether a bit in the encoding asks for the accumulating form. -/
def Multiplication.ofBit (accumulates : Bool) : Multiplication := if accumulates then mla else mul

inductive ByteReversal where
  /-- All four bytes. -/
  | rev
  /-- The two bytes of each half. -/
  | rev16
  /-- The two low bytes, with the sign spread. -/
  | revsh
  deriving DecidableEq, Repr

inductive Quantity where
  | word
  | byte
  deriving DecidableEq, Repr

inductive Direction where
  | store
  | load
  deriving DecidableEq, Repr

/-- Whether the offset is added before the transfer or after it. -/
inductive Indexing where
  | post
  | pre
  deriving DecidableEq, Repr

inductive Offsetting where
  | down
  | up
  deriving DecidableEq, Repr

/-- A set bit asks for a byte. -/
def Quantity.ofBit (bit : Bool) : Quantity := if bit then byte else word

/-- A set bit asks for a load. -/
def Direction.ofBit (bit : Bool) : Direction := if bit then load else store

/-- A set bit asks for the offset to be added before the transfer. -/
def Indexing.ofBit (bit : Bool) : Indexing := if bit then pre else post

/-- A set bit asks for the offset to be added. -/
def Offsetting.ofBit (bit : Bool) : Offsetting := if bit then up else down

/-- Moves an address by an offset, around the end of the address space if need be. -/
def Offsetting.apply : Offsetting → Word → Word → Word
  | down, base, offset => base - offset
  | up, base, offset => base + offset

inductive HalfKind where
  | unsignedHalf
  | signedByte
  | signedHalf
  deriving DecidableEq, Repr

/-- The kind of a two-bit code; zero belongs to other instructions. -/
def HalfKind.ofCode? : Nat → Option HalfKind
  | 1 => some unsignedHalf
  | 2 => some signedByte
  | 3 => some signedHalf
  | _ => none

/-- The position of a kind, counted from zero. -/
def HalfKind.index : HalfKind → Nat
  | unsignedHalf => 0
  | signedByte => 1
  | signedHalf => 2

inductive PlainOffset where
  | immediate (offset : Word)
  | register (number : Nat)
  deriving DecidableEq, Repr

inductive ShiftedOffset where
  | immediate (offset : Word)
  | register (amount : Nat) (kind : ShiftKind) (number : Nat)
  deriving DecidableEq, Repr

/-- How a transfer finds its address and what becomes of the base register. -/
structure Addressing (offset : Type) where
  base : Nat
  offset : offset
  indexing : Indexing
  offsetting : Offsetting
  writeBack : Bool
  deriving DecidableEq, Repr

namespace Addressing

variable {offset : Type}

/-- The base is updated on request and always after post-indexing. -/
def updatesBase (addressing : Addressing offset) : Bool :=
  addressing.writeBack || addressing.indexing == .post

/-- The address of the transfer and the value that an updated base takes. -/
def resolve (addressing : Addressing offset) (base distance : Word) : Word × Word :=
  let moved := addressing.offsetting.apply base distance
  match addressing.indexing with
  | .pre => (moved, moved)
  | .post => (base, moved)

end Addressing

/-- One instruction, apart from its condition. -/
inductive Instruction where
  | dataProcessing (op : AluOp) (setFlags : Bool) (rn rd : Nat) (operand : Operand)
  | statusRead (kind : StatusKind) (rd : Nat)
  | statusWrite (kind : StatusKind) (source : StatusSource) (fields : Word)
  | multiply (variant : Multiplication) (setFlags : Bool) (rd rn rs rm : Nat)
  | multiplyLong (variant : LongMultiplication) (setFlags : Bool) (rdHi rdLo rs rm : Nat)
  | swap (quantity : Quantity) (rn rd rm : Nat)
  | branchExchange (rm : Nat)
  | byteReverse (variant : ByteReversal) (rd rm : Nat)
  | halfTransfer (direction : Direction) (kind : HalfKind) (rd : Nat)
      (addressing : Addressing PlainOffset)
  | doubleTransfer (direction : Direction) (rd : Nat) (addressing : Addressing PlainOffset)
  | singleTransfer (direction : Direction) (quantity : Quantity) (rd : Nat)
      (addressing : Addressing ShiftedOffset)
  /-- The set bits of `registers` name the registers; `statusBit` is kept but changes nothing. -/
  | blockTransfer (direction : Direction) (indexing : Indexing) (offsetting : Offsetting)
      (statusBit writeBack : Bool) (rn : Nat) (registers : Half)
  /-- The offset counts bytes from r15 and is read as a two's complement number. -/
  | branch (link : Bool) (offset : Word)
  | coprocessorTransfer (direction : Direction) (coprocessor crd rn : Nat) (offset : Nat)
  | coprocessorOperation (coprocessor : Nat)
  | coprocessorRegister (direction : Direction) (coprocessor : Nat)
  | softwareInterrupt (comment : Word)
  deriving DecidableEq, Repr

/-- A complete instruction: what to do, when, and the word it was found in. -/
structure Opcode where
  instruction : Instruction
  condition : Condition
  raw : Word
  deriving DecidableEq, Repr

/-- The numbers of the registers that a block transfer lists, in ascending order. -/
def listedRegisters (registers : Half) : List (Fin 16) :=
  (List.finRange 16).filter fun number => Bits.test registers number

namespace Instruction

/--
Whether the instruction writes r15 as a target, even with the value it already holds, so that the
words fetched behind it are stale.
-/
def targetsPc : Instruction → Bool
  | branch _ _ | branchExchange _ => true
  | dataProcessing op _ _ rd _ => rd == 15 && !op.isTest
  | singleTransfer .load _ rd _ | halfTransfer .load _ rd _ => rd == 15
  | blockTransfer .load _ _ _ _ _ registers => Bits.test registers 15
  | _ => false

end Instruction

end ArmBoard
