import ArmBoard.Cpu.Instruction
import ArmBoard.Fault

/-!
# Encodings

Each family of instructions is known by bit patterns: a word belongs to it
when it has one of the accepted patterns and none of the excluded ones. The
patterns never look at the condition in the top four bits. What the other
bits mean is told by `Family.build`.
-/
namespace ArmBoard

/-- Bits that a word must have: where `mask` is one, the word agrees with `value`. -/
structure Pattern where
  mask : Word
  value : Word
  deriving DecidableEq, Repr

def Pattern.matches (pattern : Pattern) (word : Word) : Bool :=
  word &&& pattern.mask == pattern.value

inductive Family where
  | branchExchange
  | byteReverse
  | swap
  | multiplyLong
  | multiply
  | doubleTransfer
  | halfTransfer
  | statusTransfer
  | dataProcessing
  | singleTransfer
  | blockTransfer
  | branch
  | coprocessorTransfer
  | coprocessorOperation
  | coprocessorRegister
  | softwareInterrupt
  deriving DecidableEq, Repr

namespace Family

def name : Family → String
  | branchExchange => "branch and exchange"
  | byteReverse => "byte reverse"
  | swap => "single data swap"
  | multiplyLong => "multiply long"
  | multiply => "multiply"
  | doubleTransfer => "doubleword data transfer"
  | halfTransfer => "halfword data transfer"
  | statusTransfer => "psr transfer"
  | dataProcessing => "data processing"
  | singleTransfer => "single data transfer"
  | blockTransfer => "block data transfer"
  | branch => "branch"
  | coprocessorTransfer => "coprocessor data transfer"
  | coprocessorOperation => "coprocessor data operation"
  | coprocessorRegister => "coprocessor register transfer"
  | softwareInterrupt => "software interrupt"

def statusReadPattern : Pattern := ⟨0x0FBF0FFF, 0x010F0000⟩

def statusWriteRegisterPattern : Pattern := ⟨0x0FB0FFF0, 0x0120F000⟩

def statusWriteImmediatePattern : Pattern := ⟨0x0FB0F000, 0x0320F000⟩

/-- A register operand with bits 7 and 4 set, which data processing leaves to other families. -/
def extensionPattern : Pattern := ⟨0x02000090, 0x00000090⟩

/-- One of the four tests without the bit that sets the flags. -/
def silentTestPattern : Pattern := ⟨0x01900000, 0x01000000⟩

/-- The patterns of which a word of the family has one. -/
def accepted : Family → List Pattern
  | branchExchange => [⟨0x0FFFFFF0, 0x012FFF10⟩]
  | byteReverse =>
      [⟨0x0FFF0FF0, 0x06BF0F30⟩, ⟨0x0FFF0FF0, 0x06BF0FB0⟩, ⟨0x0FFF0FF0, 0x06FF0FB0⟩]
  | swap => [⟨0x0FB00FF0, 0x01000090⟩]
  | multiplyLong => [⟨0x0F8000F0, 0x00800090⟩]
  | multiply => [⟨0x0FC000F0, 0x00000090⟩]
  | doubleTransfer => [⟨0x0E1000D0, 0x000000D0⟩]
  | halfTransfer => [⟨0x0E0000D0, 0x000000D0⟩, ⟨0x0E0000B0, 0x000000B0⟩]
  | statusTransfer => [statusReadPattern, statusWriteRegisterPattern, statusWriteImmediatePattern]
  | dataProcessing => [⟨0x0C000000, 0x00000000⟩]
  | singleTransfer => [⟨0x0C000000, 0x04000000⟩]
  | blockTransfer => [⟨0x0E000000, 0x08000000⟩]
  | branch => [⟨0x0E000000, 0x0A000000⟩]
  | coprocessorTransfer => [⟨0x0E000000, 0x0C000000⟩]
  | coprocessorOperation => [⟨0x0F000010, 0x0E000000⟩]
  | coprocessorRegister => [⟨0x0F000010, 0x0E000010⟩]
  | softwareInterrupt => [⟨0x0F000000, 0x0F000000⟩]

/-- The patterns that a word of the family must not have. -/
def excluded : Family → List Pattern
  | dataProcessing => [extensionPattern, silentTestPattern]
  | singleTransfer => [⟨0x02000010, 0x02000010⟩]
  | _ => []

/-- Whether a word belongs to the family by its pattern. -/
def recognises (family : Family) (word : Word) : Bool :=
  family.accepted.any (·.matches word) && !family.excluded.any (·.matches word)

/-- The number of the register in the four bits from `low` up. -/
def registerAt (word : Word) (low : Nat) : Nat := Bits.field word low (low + 3)

def operandOf (word : Word) : Operand :=
  if Bits.test word 25 then
    .immediate (Bits.slice word 0 7) (Bits.field word 8 11)
  else
    .register
      (if Bits.test word 4 then .register (registerAt word 8)
        else .immediate (Bits.field word 7 11))
      (.ofCode (Bits.field word 5 6)) (registerAt word 0)

/-- The offset of a halfword or doubleword transfer: two nibbles or a register. -/
def plainOffsetOf (word : Word) : PlainOffset :=
  if Bits.test word 22 then
    .immediate ((Bits.slice word 8 11 <<< 4) ||| Bits.slice word 0 3)
  else .register (registerAt word 0)

/-- The offset of a word or byte transfer: twelve bits or a shifted register. -/
def shiftedOffsetOf (word : Word) : ShiftedOffset :=
  if Bits.test word 25 then
    .register (Bits.field word 7 11) (.ofCode (Bits.field word 5 6)) (registerAt word 0)
  else .immediate (Bits.slice word 0 11)

/-- The addressing bits that all transfers share, with a given offset. -/
def addressingOf {offset : Type} (word : Word) (distance : offset) : Addressing offset where
  base := registerAt word 16
  offset := distance
  indexing := .ofBit (Bits.test word 24)
  offsetting := .ofBit (Bits.test word 23)
  writeBack := Bits.test word 21

def statusSourceOf (word : Word) : StatusSource :=
  if Bits.test word 25 then .immediate (Bits.slice word 0 7) (Bits.field word 8 11)
  else .register (registerAt word 0)

/-- A set bit selects the saved status. -/
def statusKindOf (word : Word) : StatusKind := if Bits.test word 22 then .saved else .current

def byteReversalOf (word : Word) : ByteReversal :=
  match Bits.test word 22, Bits.test word 7 with
  | false, false => .rev
  | false, true => .rev16
  | true, _ => .revsh

/-- The displacement of a branch: twenty-four bits count words, with a sign. -/
def branchOffsetOf (word : Word) : Word := Bits.signExtend (Bits.slice word 0 23 <<< 2) 26

/--
Reads the operands of a word as the family lays them out, whether or not the word belongs to the
family. Only a halfword transfer can fail, when its kind field is zero.
-/
def build (word : Word) : Family → Except Fault Instruction
  | branchExchange => .ok (.branchExchange (registerAt word 0))
  | byteReverse => .ok (.byteReverse (byteReversalOf word) (registerAt word 12) (registerAt word 0))
  | swap =>
      .ok (.swap (.ofBit (Bits.test word 22)) (registerAt word 16) (registerAt word 12)
        (registerAt word 0))
  | multiplyLong =>
      .ok (.multiplyLong (.ofBits (Bits.test word 22) (Bits.test word 21)) (Bits.test word 20)
        (registerAt word 16) (registerAt word 12) (registerAt word 8) (registerAt word 0))
  | multiply =>
      .ok (.multiply (.ofBit (Bits.test word 21)) (Bits.test word 20) (registerAt word 16)
        (registerAt word 12) (registerAt word 8) (registerAt word 0))
  | doubleTransfer =>
      .ok (.doubleTransfer (if Bits.test word 5 then .store else .load) (registerAt word 12)
        (addressingOf word (plainOffsetOf word)))
  | halfTransfer =>
      match HalfKind.ofCode? (Bits.field word 5 6) with
      | some kind =>
          .ok (.halfTransfer (.ofBit (Bits.test word 20)) kind (registerAt word 12)
            (addressingOf word (plainOffsetOf word)))
      | none => .error (.unhandled .halfTransferKind (Bits.slice word 5 6))
  | statusTransfer =>
      if statusReadPattern.matches word then
        .ok (.statusRead (statusKindOf word) (registerAt word 12))
      else .ok (.statusWrite (statusKindOf word) (statusSourceOf word) (Bits.slice word 16 19))
  | dataProcessing =>
      .ok (.dataProcessing (.ofCode (Bits.field word 21 24)) (Bits.test word 20)
        (registerAt word 16) (registerAt word 12) (operandOf word))
  | singleTransfer =>
      .ok (.singleTransfer (.ofBit (Bits.test word 20)) (.ofBit (Bits.test word 22))
        (registerAt word 12) (addressingOf word (shiftedOffsetOf word)))
  | blockTransfer =>
      .ok (.blockTransfer (.ofBit (Bits.test word 20)) (.ofBit (Bits.test word 24))
        (.ofBit (Bits.test word 23)) (Bits.test word 22) (Bits.test word 21) (registerAt word 16)
        ((Bits.slice word 0 15).setWidth 16))
  | branch => .ok (.branch (Bits.test word 24) (branchOffsetOf word))
  | coprocessorTransfer =>
      .ok (.coprocessorTransfer (.ofBit (Bits.test word 20)) (Bits.field word 8 11)
        (registerAt word 12) (registerAt word 16) (Bits.field word 0 7))
  | coprocessorOperation => .ok (.coprocessorOperation (Bits.field word 8 11))
  | coprocessorRegister =>
      .ok (.coprocessorRegister (.ofBit (Bits.test word 20)) (Bits.field word 8 11))
  | softwareInterrupt => .ok (.softwareInterrupt (Bits.slice word 0 23))

end Family

end ArmBoard
