import ArmBoard.Proofs.Assembly.Operands
import ArmBoard.Proofs.Decoding.Recovery
import ArmBoard.Proofs.Execution.ShiftSteps
import ArmBoard.Proofs.Execution.Steps

/-!
# The shift that is printed and the shift that is executed

Assembly language writes a shift behind its register, as a number of places or
as a rotation through the carry, and such a text can be read in one way only. An
encoded amount of zero stands for something else than no places, and operands are
printed as what they stand for. The offset of a transfer is printed with the
amount as it is encoded. Its text and the address then part company, for three of
the four kinds.
-/
namespace ArmBoard

open Text

/-- What assembly language asks for behind a register. -/
inductive ShiftNote where
  | plain
  | moved (kind : ShiftKind) (places : Nat)
  /-- By one place, through the carry. -/
  | extended
  deriving DecidableEq, Repr

namespace ShiftNote

def spelling (number : Nat) : ShiftNote → String
  | plain => registerText number
  | moved kind places => registerText number ++ ", " ++ kind.name ++ " #" ++ toString places
  | extended => registerText number ++ ", RRX"

/-- What a register is read as. -/
def value (note : ShiftNote) (rm : Word) (carry : Bool) : Word :=
  match note with
  | plain => rm
  | moved kind places => kind.moved rm places
  | extended => (Shifted.throughCarry rm carry).value

/-- The shift that an encoded amount stands for. -/
def meant : ShiftKind → Nat → ShiftNote
  | .lsl, 0 => plain
  | .ror, 0 => extended
  | kind, amount => moved kind (kind.places amount)

/-- The shift that has the encoded amount for its places. -/
def literal : ShiftKind → Nat → ShiftNote
  | .lsl, 0 => plain
  | kind, amount => moved kind amount

/-- What is written behind the register. -/
def tail : ShiftNote → List Char
  | plain => []
  | moved kind places => ',' :: ' ' :: (kind.name.toList ++ ' ' :: '#' :: Nat.toDigits 10 places)
  | extended => [',', ' ', 'R', 'R', 'X']

theorem toList_spelling (number : Nat) (note : ShiftNote) :
    (note.spelling number).toList = 'R' :: (Nat.toDigits 10 number ++ note.tail) := by
  cases note <;> simp [spelling, tail]

theorem stops_tail (note : ShiftNote) : Stops note.tail := by
  cases note <;> simp [tail]

theorem tail_inj {note other : ShiftNote} (same : note.tail = other.tail) : note = other := by
  -- No kind of shift has a name that begins like the rotation through the carry.
  have named (kind : ShiftKind) (rest : List Char) :
      kind.name.toList ++ rest ≠ ['R', 'R', 'X'] := by
    cases kind <;> simp [ShiftKind.name]
  cases note <;> cases other
  case plain.plain => rfl
  case extended.extended => rfl
  case moved.moved kind places other next =>
    simp only [tail, List.cons.injEq, true_and] at same
    obtain ⟨rfl, amounts⟩ := ShiftKind.name_append_inj same
    simp only [List.cons.injEq, true_and, digits_inj] at amounts
    rw [amounts]
  case moved.extended kind places =>
    simp only [tail, List.cons.injEq, true_and] at same
    exact absurd same (named _ _)
  case extended.moved kind places =>
    simp only [tail, List.cons.injEq, true_and] at same
    exact absurd same.symm (named _ _)
  all_goals cases same

/-- A text is read in one way only. -/
theorem spelling_inj {number next : Nat} {note other : ShiftNote} :
    note.spelling number = other.spelling next ↔ number = next ∧ note = other := by
  constructor
  · intro same
    have letters := congrArg String.toList same
    rw [toList_spelling, toList_spelling, List.cons.injEq,
      digits_append_inj (stops_tail _) (stops_tail _)] at letters
    exact ⟨letters.2.1, tail_inj letters.2.2⟩
  · rintro ⟨rfl, rfl⟩
    rfl

section Amounts

variable {kind : ShiftKind} {amount : Nat}

/-- The two ways to take an amount differ where it is zero and the shift is not to the left. -/
theorem meant_eq_literal_iff : meant kind amount = literal kind amount ↔ (amount = 0 → kind = .lsl) := by
  cases amount with
  | zero => cases kind <;> decide
  | succ amount => cases kind <;> simp [meant, literal, ShiftKind.places]

/-- The amount stands for what the shifter does with it. -/
theorem value_meant (inside : amount < 32) (rm : Word) (carry : Bool) :
    (meant kind amount).value rm carry = (Shifted.byImmediate kind amount rm carry).value := by
  rw [Shifted.byImmediate_eq kind rm carry inside]
  by_cases rotates : kind = .ror ∧ amount = 0
  · obtain ⟨rfl, rfl⟩ := rotates
    rfl
  · rw [if_neg rotates, ShiftKind.value_iterate_step]
    unfold meant
    split
    · exact (ShiftKind.moved_zero .lsl rm).symm
    · exact absurd ⟨rfl, rfl⟩ rotates
    · rfl

end Amounts

end ShiftNote

theorem Operand.text_eq_spelling (kind : ShiftKind) {amount : Nat} (number : Nat) :
    (register (.immediate amount) kind number).text =
      (ShiftNote.meant kind amount).spelling number := by
  apply String.toList_inj.mp
  rw [toList_text_register, ShiftNote.toList_spelling]
  cases amount with
  | zero => cases kind <;> rfl
  | succ amount =>
    cases kind <;>
      simp [shiftText, ShiftNote.meant, ShiftNote.tail, ShiftKind.places, ShiftAmount.spelled,
        ShiftAmount.text]

theorem ShiftedOffset.text_eq_spelling (kind : ShiftKind) (amount number : Nat) :
    (register amount kind number).text = (ShiftNote.literal kind amount).spelling number := by
  cases amount <;> cases kind <;> rfl

namespace Core

open ArmBoard.Action

variable {core : Core} {text : String} {value other : Word}

/-- The text is a register with its shift, and this is what it is read as. -/
inductive Denotes (core : Core) : String → Word → Prop
  | intro (number : Fin 16) (note : ShiftNote) :
      Denotes core (note.spelling number)
        (note.value (core.cpu.registers.get number) core.cpu.status.carry)

theorem denotes_spelling_iff {number : Fin 16} {note : ShiftNote} :
    Denotes core (note.spelling number) value ↔
      value = note.value (core.cpu.registers.get number) core.cpu.status.carry := by
  constructor
  · generalize spelled : note.spelling number = text
    rintro ⟨next, other⟩
    obtain ⟨numbers, rfl⟩ := ShiftNote.spelling_inj.mp spelled
    obtain rfl := Fin.ext numbers
    rfl
  · rintro rfl
    exact .intro number note

theorem Denotes.unique (one : Denotes core text value) (two : Denotes core text other) :
    value = other := by
  obtain ⟨number, note⟩ := one
  exact (denotes_spelling_iff.mp two).symm

/-- Whatever is in the registers and in the carry, the text denotes what the action comes to. -/
def Spells (text : String) (action : Action Core Word) : Prop :=
  ∀ core : Core, ∃ value, action.perform core = (.ok value, core) ∧ Denotes core text value

/-- The value of a second operand, without the shifter's carry. -/
def operandValue (operand : Operand) : Action Core Word := do
  let shifted ← shiftedOperand operand
  return shifted.value

/-- A one in every register, and the carry clear. -/
def ones : Core where
  cpu := { Cpu.zeroed with registers := ⟨.replicate 16 1⟩ }
  bus := .ofMemory (.blank 0 0)

section Operands

variable {kind : ShiftKind} {amount : Nat} {number : Fin 16}

theorem perform_operandValue (core : Core) :
    (operandValue (.register (.immediate amount) kind number)).perform core =
      (.ok (Shifted.byImmediate kind amount (core.cpu.registers.get number)
        core.cpu.status.carry).value, core) := by
  have read : core.cpu.registers.operand number false = core.cpu.registers.get number := by
    rw [Registers.operand, if_neg (by simp)]
  rw [operandValue, perform_bind]
  simp only [shiftedOperand, status, perform_bind, perform_ask, perform_readOperand, read]
  rfl

/-- Both families hand a register and an encoded amount to the shifter in the same way. -/
theorem operandValue_eq_shiftedDistance (core : Core) :
    (operandValue (.register (.immediate amount) kind number)).perform core =
      (shiftedDistance (.register amount kind number)).perform core := by
  rw [perform_operandValue, perform_shiftedDistance]

theorem operand_text_spells (inside : amount < 32) :
    Spells (Operand.register (.immediate amount) kind number).text
      (operandValue (.register (.immediate amount) kind number)) := by
  intro core
  refine ⟨_, perform_operandValue core, ?_⟩
  rw [Operand.text_eq_spelling, denotes_spelling_iff, ShiftNote.value_meant inside]

/-- A shift that is printed with no places is read as no shift. -/
theorem offset_text_spells_register :
    Spells (ShiftedOffset.register 0 kind number).text (readRegister number) := by
  intro core
  refine ⟨_, perform_readRegister number, ?_⟩
  rw [ShiftedOffset.text_eq_spelling, denotes_spelling_iff]
  cases kind <;> simp [ShiftNote.literal, ShiftNote.value, ShiftKind.moved_zero]

theorem offset_text_spells_iff (inside : amount < 32) :
    Spells (ShiftedOffset.register amount kind number).text
        (shiftedDistance (.register amount kind number)) ↔ (amount = 0 → kind = .lsl) := by
  constructor
  · rintro spells rfl
    -- Of a one nothing is left by any of the other shifts, and the text still shows the one.
    have plainly : Spells (ShiftedOffset.register 0 kind number).text (readRegister number) :=
      offset_text_spells_register
    obtain ⟨value, executed, denotes⟩ := spells ones
    obtain ⟨shown, read, also⟩ := plainly ones
    have one : ones.cpu.registers.get number = 1 := by
      simp [ones, Registers.get]
    rw [perform_shiftedDistance, one] at executed
    rw [perform_readRegister, one] at read
    cases read
    cases executed
    have same := denotes.unique also
    revert same
    cases kind <;> decide
  · intro plain core
    refine ⟨_, perform_shiftedDistance core, ?_⟩
    rw [ShiftedOffset.text_eq_spelling, ← ShiftNote.meant_eq_literal_iff.mpr plain,
      denotes_spelling_iff, ShiftNote.value_meant inside]

end Operands

theorem text_eq_text_iff {kind : ShiftKind} {amount number : Nat} :
    (Operand.register (.immediate amount) kind number).text =
      (ShiftedOffset.register amount kind number).text ↔ (amount = 0 → kind = .lsl) := by
  rw [Operand.text_eq_spelling, ShiftedOffset.text_eq_spelling, ShiftNote.spelling_inj,
    ShiftNote.meant_eq_literal_iff]
  exact and_iff_right rfl

end Core

/-- The text stands somewhere in the disassembly of the opcode. -/
def Opcode.Prints (opcode : Opcode) (text : String) : Prop :=
  ∃ front back, opcode.assembly = front ++ text ++ back

theorem Opcode.prints_operand {opcode : Opcode} {op : AluOp} {setFlags : Bool} {rn rd : Nat}
    {operand : Operand} (processes : opcode.instruction = .dataProcessing op setFlags rn rd operand) :
    opcode.Prints operand.text := by
  rw [Prints, assembly, processes]
  simp only [Instruction.assembly]
  split
  · exact ⟨_, "", String.append_empty.symm⟩
  · split
    · exact ⟨_, "", String.append_empty.symm⟩
    · exact ⟨_, "", String.append_empty.symm⟩

theorem Opcode.prints_offset {opcode : Opcode} {direction : Direction} {quantity : Quantity}
    {rd : Nat} {addressing : Addressing ShiftedOffset}
    (transfers : opcode.instruction = .singleTransfer direction quantity rd addressing) :
    opcode.Prints addressing.offset.text := by
  obtain ⟨base, offset, indexing, offsetting, writeBack⟩ := addressing
  rw [Prints, assembly, transfers]
  -- What stands in front of the address does not matter.
  simp only [Instruction.assembly]
  generalize direction.name ++ opcode.condition.suffix ++ quantity.text ++ " " ++
    registerText rd ++ ", " = front
  cases indexing with
  | pre =>
    refine ⟨front ++ ("[" ++ registerText base ++ ", " ++ offsetting.sign),
      "]" ++ writeBackText writeBack, ?_⟩
    simp [Addressing.text, String.append_assoc]
  | post =>
    refine ⟨front ++ ("[" ++ registerText base ++ "], " ++ offsetting.sign), "", ?_⟩
    simp [Addressing.text, String.append_assoc]

namespace Core

section Decoded

variable {word : Word} {opcode : Opcode} {kind : ShiftKind} {amount number : Nat}

/-- What a word decodes to is what its family builds of it. -/
theorem build_of_decode (decoded : Opcode.decode word = .ok opcode) :
    opcode.instruction.family.build word = .ok opcode.instruction := by
  obtain ⟨instruction, -⟩ := Opcode.decode_eq_ok_iff.mp decoded
  obtain ⟨family, -, built, -⟩ := Instruction.decode_eq_ok instruction
  rwa [Instruction.family_of_build built]

theorem operand_of_decode {op : AluOp} {setFlags : Bool} {rn rd : Nat}
    (decoded : Opcode.decode word = .ok opcode)
    (processes : opcode.instruction =
      .dataProcessing op setFlags rn rd (.register (.immediate amount) kind number)) :
    amount = Bits.field word 7 11 ∧ kind = .ofCode (Bits.field word 5 6) ∧
      number = Family.registerAt word 0 := by
  have built := build_of_decode decoded
  rw [processes] at built
  simp only [Instruction.family, Family.build, Except.ok.injEq, Instruction.dataProcessing.injEq,
    Family.operandOf] at built
  obtain ⟨_, _, _, _, operand⟩ := built
  split at operand
  · cases operand
  · split at operand
    · cases operand
    · cases operand
      exact ⟨rfl, rfl, rfl⟩

theorem offset_of_decode {direction : Direction} {quantity : Quantity} {rd : Nat}
    {addressing : Addressing ShiftedOffset} (decoded : Opcode.decode word = .ok opcode)
    (transfers : opcode.instruction = .singleTransfer direction quantity rd addressing)
    (shifted : addressing.offset = .register amount kind number) :
    amount = Bits.field word 7 11 ∧ kind = .ofCode (Bits.field word 5 6) ∧
      number = Family.registerAt word 0 := by
  have built := build_of_decode decoded
  rw [transfers] at built
  simp only [Instruction.family, Family.build, Except.ok.injEq,
    Instruction.singleTransfer.injEq] at built
  obtain ⟨_, _, _, rfl⟩ := built
  simp only [Family.addressingOf, Family.shiftedOffsetOf] at shifted
  split at shifted
  · cases shifted
    exact ⟨rfl, rfl, rfl⟩
  · cases shifted

/--
The second operand of a decoded data processing instruction is printed as the value it takes, for
any register and carry. The shifted offset of a decoded transfer is printed so except for an encoded
amount of zero with a shift other than to the left: the text is then read as the register alone. Two
such instructions with the same bits 0 to 11 always shift alike, and outside this case they print
alike.
-/
theorem shifts_are_printed_as_executed_unless_an_offset_encodes_zero
    (decoded : Opcode.decode word = .ok opcode) :
    (∀ {op : AluOp} {setFlags : Bool} {rn rd : Nat} {kind : ShiftKind} {amount number : Nat},
      opcode.instruction =
        .dataProcessing op setFlags rn rd (.register (.immediate amount) kind number) →
      opcode.Prints (Operand.register (.immediate amount) kind number).text ∧
      Spells (Operand.register (.immediate amount) kind number).text
        (operandValue (.register (.immediate amount) kind number))) ∧
    (∀ {direction : Direction} {quantity : Quantity} {rd : Nat}
      {addressing : Addressing ShiftedOffset} {kind : ShiftKind} {amount number : Nat},
      opcode.instruction = .singleTransfer direction quantity rd addressing →
      addressing.offset = .register amount kind number →
      opcode.Prints addressing.offset.text ∧
      (Spells addressing.offset.text (shiftedDistance addressing.offset) ↔
        (amount = 0 → kind = .lsl)) ∧
      (amount = 0 → Spells addressing.offset.text (readRegister number))) ∧
    ∀ {other : Word} {alike : Opcode} {op : AluOp} {setFlags : Bool} {rn rd : Nat}
      {kind otherKind : ShiftKind} {amount number otherAmount otherNumber : Nat}
      {direction : Direction} {quantity : Quantity} {otherRd : Nat}
      {addressing : Addressing ShiftedOffset},
      Opcode.decode other = .ok alike → Bits.AgreeOn 0xFFF word other →
      opcode.instruction =
        .dataProcessing op setFlags rn rd (.register (.immediate amount) kind number) →
      alike.instruction = .singleTransfer direction quantity otherRd addressing →
      addressing.offset = .register otherAmount otherKind otherNumber →
      (∀ core, (operandValue (.register (.immediate amount) kind number)).perform core =
        (shiftedDistance addressing.offset).perform core) ∧
      ((Operand.register (.immediate amount) kind number).text = addressing.offset.text ↔
        (amount = 0 → kind = .lsl)) := by
  have bounds := Opcode.withinBounds_of_decode decoded
  refine ⟨?_, ?_, ?_⟩
  · intro op setFlags rn rd kind amount number processes
    rw [processes] at bounds
    obtain ⟨number, rfl⟩ := bounds.exists_fin number
      (by simp [Instruction.registers, Operand.registers])
    have inside := bounds.distances_lt amount (by simp [Instruction.distances, Operand.distances])
    exact ⟨Opcode.prints_operand processes, operand_text_spells inside⟩
  · rintro direction quantity rd ⟨base, offset, indexing, offsetting, writeBack⟩ kind amount number
      transfers rfl
    rw [transfers] at bounds
    obtain ⟨number, rfl⟩ := bounds.exists_fin number
      (by simp [Instruction.registers, ShiftedOffset.register?])
    have inside := bounds.distances_lt amount (by simp [Instruction.distances])
    refine ⟨Opcode.prints_offset transfers, offset_text_spells_iff inside, ?_⟩
    rintro rfl
    exact offset_text_spells_register
  · intro other alike op setFlags rn rd kind otherKind amount number otherAmount otherNumber
      direction quantity otherRd addressing otherDecoded agree processes transfers shifted
    rw [processes] at bounds
    obtain ⟨rfl, rfl, rfl⟩ := operand_of_decode decoded processes
    obtain ⟨rfl, rfl, rfl⟩ := offset_of_decode otherDecoded transfers shifted
    -- All three fields lie within the low twelve bits.
    have amounts : Bits.field other 7 11 = Bits.field word 7 11 :=
      ((Bits.field_eq_iff (by decide)).mpr (agree.within (by decide))).symm
    have kinds : Bits.field other 5 6 = Bits.field word 5 6 :=
      ((Bits.field_eq_iff (by decide)).mpr (agree.within (by decide))).symm
    have numbers : Family.registerAt other 0 = Family.registerAt word 0 :=
      ((Family.registerAt_eq_iff (by decide)).mpr (agree.within (by decide))).symm
    rw [shifted, amounts, kinds, numbers]
    obtain ⟨number, same⟩ := bounds.exists_fin (Family.registerAt word 0)
      (by simp [Instruction.registers, Operand.registers])
    rw [← same]
    exact ⟨operandValue_eq_shiftedDistance, text_eq_text_iff⟩

end Decoded

/--
`MOV R0, R2, LSR #32` is printed as it is executed. `LDR R0, [R1, R2, LSR #0]` has the same shift
and is printed as none.
-/
theorem shift_by_thirtytwo_in_both_families :
    (∃ opcode, Opcode.decode 0xE1A00022 = .ok opcode ∧ opcode.Prints "R2, LSR #32" ∧
      Spells "R2, LSR #32" (operandValue (.register (.immediate 0) .lsr 2))) ∧
    (∃ opcode, Opcode.decode 0xE7910022 = .ok opcode ∧ opcode.Prints "R2, LSR #0" ∧
      Spells "R2, LSR #0" (readRegister 2)) ∧
    (∀ core, (operandValue (.register (.immediate 0) .lsr 2)).perform core =
      (shiftedDistance (.register 0 .lsr 2)).perform core) := by
  have decoded : Opcode.decode 0xE1A00022 =
    .ok ⟨.dataProcessing .mov false 0 0 (.register (.immediate 0) .lsr 2), .al, 0xE1A00022⟩ := rfl
  have otherDecoded : Opcode.decode 0xE7910022 =
    .ok ⟨.singleTransfer .load .word 0 ⟨1, .register 0 .lsr 2, .pre, .up, false⟩, .al,
      0xE7910022⟩ := rfl
  obtain ⟨operands, _, alike⟩ :=
    shifts_are_printed_as_executed_unless_an_offset_encodes_zero decoded
  obtain ⟨_, offsets, _⟩ :=
    shifts_are_printed_as_executed_unless_an_offset_encodes_zero otherDecoded
  obtain ⟨shown, executed⟩ := operands rfl
  obtain ⟨printed, _, plain⟩ := offsets rfl rfl
  exact ⟨⟨_, decoded, shown, executed⟩, ⟨_, otherDecoded, printed, plain rfl⟩,
    (alike otherDecoded rfl rfl rfl rfl).1⟩

/--
The two instructions have the same bits 0 to 11 and hand the same register to the same shift, but
print two texts. That of the transfer, read as it stands, denotes a one where a zero is added.
-/
theorem printed_offset_is_not_the_one_added :
    Opcode.decode 0xE1A00022 =
      .ok ⟨.dataProcessing .mov false 0 0 (.register (.immediate 0) .lsr 2), .al, 0xE1A00022⟩ ∧
    Opcode.decode 0xE7910022 =
      .ok ⟨.singleTransfer .load .word 0 ⟨1, .register 0 .lsr 2, .pre, .up, false⟩, .al,
        0xE7910022⟩ ∧
    Bits.AgreeOn 0xFFF (0xE1A00022 : Word) 0xE7910022 ∧
    (Operand.register (.immediate 0) .lsr 2).text ≠ (ShiftedOffset.register 0 .lsr 2).text ∧
    (shiftedDistance (.register 0 .lsr 2)).perform ones = (.ok 0, ones) ∧
    Denotes ones (ShiftedOffset.register 0 .lsr 2).text 1 ∧
    ¬ Denotes ones (ShiftedOffset.register 0 .lsr 2).text 0 := by
  have shown : Denotes ones (ShiftedOffset.register 0 .lsr 2).text 1 :=
    .intro 2 (.moved .lsr 0)
  refine ⟨rfl, rfl, rfl, by decide, rfl, shown, fun zero => ?_⟩
  have same := shown.unique zero
  cases same

end Core

end ArmBoard
