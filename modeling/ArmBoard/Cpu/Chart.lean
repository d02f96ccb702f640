import ArmBoard.Cpu.Assembly

/-!
# Opcode charts

A chart shows an opcode in five lines: its assembly text, the bit positions in
two lines, the bits of its word, and the layout of its family.
-/
namespace ArmBoard

namespace Instruction

/-- How the family of an instruction lays out its word. -/
def layout : Instruction → String
  | dataProcessing .. => "|_Cond__|0_0|I|_code__|S|__Rn___|__Rd___|_______operand2________|"
  | statusRead .. | statusWrite .. =>
      "|_Cond__|0_0|I|1_0|P|D|0|_Field_|__Rd___|_______operand2________|"
  | multiply .. => "|_Cond__|0_0_0_0_0_0|A|S|__Rd___|__Rn___|__Rs___|1_0_0_1|__Rm___|"
  | multiplyLong .. => "|_Cond__|0_0_0_0_1|U|A|S|_RdHi__|_RdLo__|__Rs___|1_0_0_1|__Rm___|"
  | swap .. => "|_Cond__|0_0_0_1_0|B|0_0|__Rn___|__Rd___|0_0_0_0|1_0_0_1|__Rm___|"
  | branchExchange .. => "|_Cond__|0_0_0_1|0_0_1_0|1_1_1_1|1_1_1_1|1_1_1_1|0_0_0_1|__Rn___|"
  | byteReverse .. => "|_Cond__|0_1_1_0_1|H|1_1|1_1_1_1|__Rd___|1_1_1_1|B|0_1_1|__Rm___|"
  | halfTransfer .. | doubleTransfer .. =>
      "|_Cond__|0_0_0|P|U|I|W|L|__Rn___|__Rd___|_Offset|1|S|H|1|_Offset|"
  | singleTransfer .. => "|_Cond__|0_1|I|P|U|B|W|L|__Rn___|__Rd___|________Offset_________|"
  | blockTransfer .. => "|_Cond__|1_0_0|P|U|S|W|L|__Rn___|_____________Reg_List__________|"
  | branch .. => "|_Cond__|1_0_1|L|______________________Offset___________________|"
  | coprocessorTransfer .. =>
      "|_Cond__|1_1_0|P|U|N|W|L|__Rn___|__CRd__|__Cp#__|____Offset_____|"
  | coprocessorOperation .. =>
      "|_Cond__|1_1_1_0|_CP_Opc|__CRn__|__CRd__|__Cp#__|_CP__|0|__CRm__|"
  | coprocessorRegister .. =>
      "|_Cond__|1_1_1_0|CPOpc|L|__CRn__|__Rd___|__Cp#__|_CP__|1|__CRm__|"
  | softwareInterrupt .. => "|_Cond__|1_1_1_1|_____________Ignored by processor______________|"

end Instruction

namespace Opcode

/-- The bits of a word, highest first, joined by underscores. -/
def bitsText (word : Word) : String :=
  "_".intercalate ((List.range 32).reverse.map fun index => if Bits.test word index then "1" else "0")

/-- The chart of an opcode, with a line break at its end. -/
def chart (opcode : Opcode) : String :=
  "INS: " ++ opcode.assembly ++ "\n" ++
    "POS: |..3 ..................2 ..................1 ..................0|\n" ++
    "     |1_0_9_8_7_6_5_4_3_2_1_0_9_8_7_6_5_4_3_2_1_0_9_8_7_6_5_4_3_2_1_0|\n" ++
    "RAW: |" ++ bitsText opcode.raw ++ "|\n" ++
    "FMT: " ++ opcode.instruction.layout ++ "\n"

end Opcode

end ArmBoard
