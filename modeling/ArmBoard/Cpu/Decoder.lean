import ArmBoard.Cpu.Encoding

/-!
# Decoding

A word is decoded by the first family of a fixed order that recognises it. The
result is then checked: an instruction whose operands the architecture leaves
without a meaning is refused with an objection.
-/
namespace ArmBoard

namespace Addressing

variable {offset : Type}

/-- An update of r15 as a base register is refused. -/
def baseObjection? (addressing : Addressing offset) : Option Objection :=
  if addressing.updatesBase && addressing.base == 15 then some .baseWriteBack else none

end Addressing

def PlainOffset.register? : PlainOffset → Option Nat
  | immediate _ => none
  | register number => some number

def ShiftedOffset.register? : ShiftedOffset → Option Nat
  | immediate _ => none
  | register _ _ number => some number

namespace Instruction

/-- An offset may not be read from r15. -/
def offsetObjection? (number : Option Nat) : Option Objection :=
  if number == some 15 then some .offsetRegister else none

/-- A doubleword needs an even pair below r14 that neither overlaps the base nor the offset. -/
def pairObjection? (rd base : Nat) (offset : Option Nat) : Option Objection :=
  if rd % 2 != 0 then some .oddPair
  else if rd == 14 then some .pairRegister
  else if [rd, rd + 1].contains base then some .pairOverlapsBase
  else if offset.any [rd, rd + 1].contains then some .pairOverlapsOffset
  else none

/-- The first reason, if any, to refuse an instruction. -/
def objection? : Instruction → Option Objection
  | dataProcessing _ _ _ _ (.register (.register rs) _ _) =>
      if rs == 15 then some .shiftAmountRegister else none
  | multiply variant _ rd rn rs rm =>
      if [rd, rm, rs].contains 15 then some .multiplyRegister
      else if variant == .mla && rn == 15 then some .accumulateRegister
      else if rd == rm then some .multiplyDestination
      else none
  | multiplyLong _ _ rdHi rdLo rs rm =>
      if [rdHi, rdLo, rs, rm].contains 15 then some .longMultiplyRegister
      else if rdHi == rdLo then some .longDestinationsEqual
      else if rdHi == rm || rdLo == rm then some .longDestination
      else none
  | swap _ rn rd rm => if [rn, rd, rm].contains 15 then some .swapRegister else none
  | byteReverse _ rd rm => if [rd, rm].contains 15 then some .byteReverseRegister else none
  | statusRead _ rd => if rd == 15 then some .statusReadTarget else none
  | statusWrite _ (.register rm) _ => if rm == 15 then some .statusWriteSource else none
  | halfTransfer _ _ _ addressing =>
      addressing.baseObjection? <|> offsetObjection? addressing.offset.register?
  | doubleTransfer _ rd addressing =>
      addressing.baseObjection? <|> offsetObjection? addressing.offset.register? <|>
        pairObjection? rd addressing.base addressing.offset.register?
  | singleTransfer _ _ _ addressing =>
      addressing.baseObjection? <|> offsetObjection? addressing.offset.register?
  | blockTransfer _ _ _ _ writeBack rn _ =>
      if writeBack && rn == 15 then some .baseWriteBack else none
  | _ => none

end Instruction

namespace Family

/-- The order in which families are tried. Doublewords come before the halfwords they overlap. -/
def decodingOrder : List Family :=
  [branchExchange, byteReverse, swap, multiplyLong, multiply, doubleTransfer, halfTransfer,
    statusTransfer, dataProcessing, singleTransfer, blockTransfer, branch, coprocessorTransfer,
    coprocessorOperation, coprocessorRegister, softwareInterrupt]

/-- The first family of an order that recognises the word. -/
def first? (order : List Family) (word : Word) : Option Family :=
  order.find? (·.recognises word)

def ofWord? (word : Word) : Option Family := first? decodingOrder word

end Family

namespace Instruction

/-- Decodes a word with the families in a given order. The faults carry address zero. -/
def decodeWith (order : List Family) (word : Word) : Except Fault Instruction :=
  match Family.first? order word with
  | none => .error (.unknown word 0)
  | some family =>
    match family.build word with
    | .error fault => .error fault
    | .ok instruction =>
      match instruction.objection? with
      | some objection => .error (.illegal word 0 objection)
      | none => .ok instruction

/-- Decodes a word. The faults carry address zero. -/
def decode (word : Word) : Except Fault Instruction := decodeWith Family.decodingOrder word

end Instruction

def Opcode.decode (word : Word) : Except Fault Opcode :=
  (Instruction.decode word).map fun instruction =>
    { instruction, condition := .ofWord word, raw := word }

end ArmBoard
