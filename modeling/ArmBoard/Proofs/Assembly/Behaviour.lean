import ArmBoard.Proofs.Assembly.Disassembly
import ArmBoard.Proofs.Execution.Conditional
import ArmBoard.Proofs.Execution.Steps

/-!
# Equal text, equal behaviour

What an assembly text leaves out of an instruction makes no difference to its
execution, with one exception: an immediate operand can be encoded in several
ways, and a logical operation that sets the flags takes its carry from the
encoding.
-/
namespace ArmBoard

open ArmBoard.Action

/-- The operations whose carry comes from the shifter. -/
def AluOp.isLogical : AluOp → Bool
  | and | eor | tst | teq | orr | mov | bic | mvn => true
  | _ => false

/-- A logical operation with an immediate operand that sets the flags. -/
def Instruction.takesCarryOfImmediate : Instruction → Bool
  | dataProcessing op true _ _ (.immediate _ _) => op.isLogical
  | _ => false

/-- The flag of a decoded test can be taken for granted. -/
theorem setFlags_or_isTest {op : AluOp} {setFlags : Bool}
    (sets : op.isTest = true → setFlags = true) : (setFlags || op.isTest) = setFlags := by
  cases test : op.isTest with
  | false => simp
  | true => simp [sets test]

theorem rotateRight_zero (word : Word) : word.rotateRight 0 = word := by
  apply BitVec.eq_of_toNat_eq
  simp [Nat.shiftLeft_eq]

namespace Core

section SameRun

variable {α : Type}

/-- Runs with the same outcome that reach the same state, the carry apart where it is excused. -/
structure SameRun (excused : Bool) (one other : Except Fault α × Core) : Prop where
  outcome : one.1 = other.1
  bus : one.2.bus = other.2.bus
  registers : one.2.cpu.registers = other.2.cpu.registers
  saved : one.2.cpu.saved = other.2.cpu.saved
  status : ∀ index < 32, (index = Status.carryBit → excused = false) →
    one.2.cpu.status.test index = other.2.cpu.status.test index

namespace SameRun

variable {excused : Bool} {one other third : Except Fault α × Core}

theorem refl (one : Except Fault α × Core) : SameRun excused one one :=
  ⟨rfl, rfl, rfl, rfl, fun _ _ _ => rfl⟩

theorem symm (same : SameRun excused one other) : SameRun excused other one :=
  ⟨same.outcome.symm, same.bus.symm, same.registers.symm, same.saved.symm,
    fun index bound carry => (same.status index bound carry).symm⟩

theorem trans (same : SameRun excused one other) (also : SameRun excused other third) :
    SameRun excused one third :=
  ⟨same.outcome.trans also.outcome, same.bus.trans also.bus,
    same.registers.trans also.registers, same.saved.trans also.saved,
    fun index bound carry => (same.status index bound carry).trans (also.status index bound carry)⟩

end SameRun

end SameRun

section DataProcessing

variable {op : AluOp} {setFlags : Bool} {rn rd : Nat} {first : Word} {second other : Shifted}

theorem aluResult_eq (arithmetic : op.isLogical = false) (same : second.value = other.value)
    (status : Status) : aluResult op first second status = aluResult op first other status := by
  cases op <;> simp [AluOp.isLogical] at arithmetic <;> simp only [aluResult, same]

/-- The result of a logical operation depends on the shifter's carry in its carry only. -/
theorem aluResult_logical (logical : op.isLogical = true) (same : second.value = other.value)
    (status : Status) :
    aluResult op first other status =
      { aluResult op first second status with carry := other.carry } := by
  cases op <;> simp [AluOp.isLogical] at logical <;>
    simp [aluResult, AluResult.logical, AluResult.ofValue, same]

theorem test_withFlags_of_ne {status : Status} {result : AluResult} {carry : Bool} {index : Nat}
    (different : index ≠ Status.carryBit) :
    (status.withFlags { result with carry := carry }).test index =
      (status.withFlags result).test index := by
  have apart : Status.carryBit ≠ index := different.symm
  simp (disch := decide) only [Status.withFlags, Status.test_put, apart, if_false]

/-- The end of an operation: the flags are set before its result is written. -/
def conclude (writes : Bool) (rd : Nat) (value : Word) (status : Status) : Action Core Unit := do
  setStatus status
  if writes then
    writeRegister rd value

theorem conclude_same {writes : Bool} {value : Word} {before after : Status}
    (close : ∀ index < 32, index ≠ Status.carryBit → before.test index = after.test index)
    (core : Core) :
    SameRun true ((conclude writes rd value before).perform core)
      ((conclude writes rd value after).perform core) := by
  have excused (index : Nat) (bound : index < 32)
      (carry : index = Status.carryBit → true = false) : before.test index = after.test index :=
    close index bound fun equal => absurd (carry equal) (by decide)
  simp only [conclude, setStatus, writeRegister, perform_bind, perform_change]
  cases writes with
  | false => exact ⟨rfl, rfl, rfl, rfl, excused⟩
  | true =>
    simp only [if_true, changeOr, Action.perform]
    -- The registers are the same before, so both results are written or neither.
    cases core.cpu.registers.set? rd value with
    | none => exact ⟨rfl, rfl, rfl, rfl, excused⟩
    | some registers => exact ⟨rfl, rfl, rfl, rfl, excused⟩

/-- The carry of the shifter makes a difference to the carry of a logical operation alone. -/
theorem operate_same (same : second.value = other.value) (core : Core) :
    SameRun (setFlags && op.isLogical) ((operate op setFlags rd first second).perform core)
      ((operate op setFlags rd first other).perform core) := by
  cases logical : op.isLogical with
  | false =>
    simp only [operate, aluResult_eq logical same]
    exact .refl _
  | true =>
    simp only [operate, status, perform_bind, perform_ask, aluResult_logical logical same]
    cases setFlags with
    | false => exact .refl _
    | true =>
      apply conclude_same
      intro index bound different
      exact (test_withFlags_of_ne different).symm

theorem operate_move (move : op.isMove = true) (first next : Word) :
    operate op setFlags rd first second = operate op setFlags rd next second := by
  cases op <;> simp [AluOp.isMove] at move <;> rfl

theorem operate_test (test : op.isTest = true) (rd next : Nat) :
    operate op setFlags rd first second = operate op setFlags next first second := by
  simp [operate, test]

theorem exists_readOperand {number : Nat} (bound : number < 16) (extraCycle : Bool) (core : Core) :
    ∃ value, (readOperand number extraCycle).perform core = (.ok value, core) :=
  ⟨_, perform_readOperand ⟨number, bound⟩ extraCycle⟩

theorem dataProcessing_move (move : op.isMove = true) (bound : rn < 16) (operand : Operand)
    (core : Core) :
    (dataProcessing op setFlags rn rd operand).perform core =
      (dataProcessing op setFlags 0 rd operand).perform core := by
  obtain ⟨value, read⟩ := exists_readOperand bound operand.shiftsByRegister core
  obtain ⟨next, also⟩ := exists_readOperand (Nat.zero_lt_succ 15) operand.shiftsByRegister core
  simp only [dataProcessing, perform_bind, read, also, operate_move move value next]

theorem dataProcessing_test (test : op.isTest = true) (operand : Operand) :
    dataProcessing op setFlags rn rd operand = dataProcessing op setFlags rn 0 operand := by
  simp only [dataProcessing, operate_test test rd 0]

/-- The encoding of an immediate makes a difference to the carry alone. -/
theorem dataProcessing_immediate (bound : rn < 16) (base : Word) (rotate : Nat) (core : Core) :
    SameRun (setFlags && op.isLogical)
      ((dataProcessing op setFlags rn rd (.immediate base rotate)).perform core)
      ((dataProcessing op setFlags rn rd
        (.immediate (base.rotateRight (rotate * 2)) 0)).perform core) := by
  obtain ⟨value, read⟩ := exists_readOperand bound false core
  have values : (Shifted.ofImmediate base rotate core.cpu.status.carry).value =
      (Shifted.ofImmediate (base.rotateRight (rotate * 2)) 0 core.cpu.status.carry).value :=
    (rotateRight_zero _).symm
  simp only [dataProcessing, Operand.shiftsByRegister, shiftedOperand, status, perform_bind, read,
    perform_ask, perform_pure]
  exact operate_same values core

theorem dataProcessing_shown (bound : rn < 16) (operand : Operand) (core : Core) :
    SameRun (Instruction.takesCarryOfImmediate (.dataProcessing op setFlags rn rd operand))
      ((dataProcessing op setFlags rn rd operand).perform core)
      ((dataProcessing op setFlags (if op.isMove then 0 else rn) (if op.isTest then 0 else rd)
        operand.shown).perform core) := by
  have target : dataProcessing op setFlags rn rd operand =
      dataProcessing op setFlags rn (if op.isTest then 0 else rd) operand := by
    cases test : op.isTest with
    | false => rfl
    | true => exact dataProcessing_test test operand
  have source (operand : Operand) (rd : Nat) :
      (dataProcessing op setFlags rn rd operand).perform core =
        (dataProcessing op setFlags (if op.isMove then 0 else rn) rd operand).perform core := by
    cases move : op.isMove with
    | false => rfl
    | true => exact dataProcessing_move move bound operand core
  rw [target, ← source]
  -- Only the encoding of the operand is left to compare.
  cases operand with
  | register amount kind number => exact .refl _
  | immediate base rotate =>
    have takes : Instruction.takesCarryOfImmediate
        (.dataProcessing op setFlags rn rd (.immediate base rotate)) =
          (setFlags && op.isLogical) := by
      cases setFlags <;> rfl
    rw [takes]
    exact dataProcessing_immediate bound base rotate core

end DataProcessing

section Leftovers

theorem byteMask_slice (fields : Word) :
    Status.byteMask (Bits.slice fields 0 3) = Status.byteMask fields := by
  have bit (index : Nat) (low : index ≤ 3) :
      Bits.test (Bits.slice fields 0 3) index = Bits.test fields index := by
    simp [Bits.test_slice, low]
  simp [Status.byteMask, List.range_succ, bit]

theorem writeStatus_shown (kind : StatusKind) (source : StatusSource) (fields : Word) :
    writeStatus kind source.shown (Bits.slice fields 0 3) = writeStatus kind source fields := by
  have value : statusValue source.shown = statusValue source := by
    cases source with
    | immediate base rotate => simp [StatusSource.shown, statusValue, rotateRight_zero]
    | register number => rfl
  cases kind <;> simp only [writeStatus, value, mergeStatus, Status.merge, byteMask_slice]

theorem updateBase_shown {offset : Type} (addressing : Addressing offset) (value : Word) :
    updateBase addressing.shown value = updateBase addressing value := by
  have updates : addressing.shown.updatesBase = addressing.updatesBase := by
    simp [Addressing.shown, Addressing.updatesBase]
  rw [updateBase, updates]
  rfl

variable {instruction : Instruction}

/-- What the text leaves out is not used, except for the encoding of an immediate. -/
theorem performInstruction_shown (bounds : instruction.WithinBounds)
    (sets : instruction.testsSetFlags) (raw : Word) (core : Core) :
    SameRun instruction.takesCarryOfImmediate ((performInstruction raw instruction).perform core)
      ((performInstruction raw instruction.shown).perform core) := by
  have equal
      (same : performInstruction raw instruction.shown = performInstruction raw instruction) :
      SameRun instruction.takesCarryOfImmediate ((performInstruction raw instruction).perform core)
        ((performInstruction raw instruction.shown).perform core) := by
    rw [same]
    exact .refl _
  cases instruction
  case dataProcessing op setFlags rn rd operand =>
    have flags := setFlags_or_isTest sets
    have shown : SameRun _ ((dataProcessing op setFlags rn rd operand).perform core) _ :=
      dataProcessing_shown (bounds.registers_lt rn (by simp [Instruction.registers])) operand core
    simpa only [performInstruction, Instruction.shown, flags] using shown
  case statusWrite kind source fields => exact equal (writeStatus_shown kind source fields)
  case multiply variant _ _ _ _ _ => cases variant <;> exact equal rfl
  case halfTransfer direction kind rd addressing =>
    apply equal
    simp only [performInstruction, Instruction.shown, halfTransfer, updateBase_shown]
    rfl
  case doubleTransfer direction rd addressing =>
    apply equal
    simp only [performInstruction, Instruction.shown, doubleTransfer, updateBase_shown]
    rfl
  case singleTransfer direction quantity rd addressing =>
    apply equal
    simp only [performInstruction, Instruction.shown, singleTransfer, moveSingle, updateBase_shown]
    rfl
  all_goals exact equal rfl

end Leftovers

section Execution

theorem targetsPc_shown (instruction : Instruction) :
    instruction.shown.targetsPc = instruction.targetsPc := by
  cases instruction
  case dataProcessing op setFlags rn rd operand =>
    cases test : op.isTest <;> simp [Instruction.shown, Instruction.targetsPc, test]
  case multiply variant _ _ _ _ _ => cases variant <;> rfl
  case halfTransfer direction _ _ _ => cases direction <;> rfl
  case singleTransfer direction _ _ _ => cases direction <;> rfl
  all_goals rfl

theorem takesCarryOfImmediate_shown {instruction : Instruction}
    (sets : instruction.testsSetFlags) :
    instruction.shown.takesCarryOfImmediate = instruction.takesCarryOfImmediate := by
  cases instruction
  case dataProcessing op setFlags rn rd operand =>
    have flags := setFlags_or_isTest sets
    cases operand <;> simp only [Instruction.shown, Operand.shown, flags] <;> cases setFlags <;> rfl
  case multiply variant _ _ _ _ _ => cases variant <;> rfl
  all_goals rfl

variable {one other : Instruction}

theorem performInstruction_same (bounds : one.WithinBounds) (alsoBounds : other.WithinBounds)
    (sets : one.testsSetFlags) (alsoSets : other.testsSetFlags) (same : one.shown = other.shown)
    (raw : Word) (core : Core) :
    SameRun one.takesCarryOfImmediate ((performInstruction raw one).perform core)
      ((performInstruction raw other).perform core) := by
  -- Both do what is shown of them does, and a carry is excused on both ways or on neither.
  have there := performInstruction_shown bounds sets raw core
  have back := performInstruction_shown alsoBounds alsoSets raw core
  rw [← takesCarryOfImmediate_shown alsoSets, ← same, takesCarryOfImmediate_shown sets] at back
  exact there.trans back.symm

/--
Opcodes with the same assembly text do the same to every processor and bus: they end with the same
outcome, down to a fault that quotes its own word, and leave the same registers, the same saved
status, the same memory and the same status. Only a logical operation with an immediate operand
that sets the flags may set the carry differently.
-/
theorem equal_text_means_equal_behaviour {first second : Word} {one other : Opcode}
    (decoded : Opcode.decode first = .ok one) (also : Opcode.decode second = .ok other)
    (same : one.assembly = other.assembly) (core : Core) :
    SameRun one.instruction.takesCarryOfImmediate
      ((mapFault (Fault.quoting second) (execute one)).perform core)
      ((execute other).perform core) := by
  have bounds := Opcode.withinBounds_of_decode decoded
  have alsoBounds := Opcode.withinBounds_of_decode also
  obtain ⟨found, raw⟩ := Opcode.decode_eq_ok decoded
  obtain ⟨alsoFound, alsoRaw⟩ := Opcode.decode_eq_ok also
  obtain ⟨conditions, mnemonics, operands⟩ := Instruction.parts_eq same
  have shown := Instruction.shown_eq bounds.distances_lt alsoBounds.distances_lt mnemonics operands
  have ran := performInstruction_same bounds alsoBounds
    (Instruction.testsSetFlags_of_decode found) (Instruction.testsSetFlags_of_decode alsoFound)
    shown first core
  have targets : one.instruction.targetsPc = other.instruction.targetsPc := by
    rw [← targetsPc_shown, shown, targetsPc_shown]
  rw [perform_mapFault, perform_execute, perform_execute, conditions, raw, alsoRaw, targets,
    performInstruction_quoting alsoBounds first second core, perform_mapFault]
  cases core.cpu.status.passes other.condition with
  | none => exact .refl _
  | some passes =>
    cases passes with
    | false => exact .refl _
    | true =>
      generalize (performInstruction first one.instruction).perform core = run at ran ⊢
      generalize (performInstruction first other.instruction).perform core = alsoRun at ran ⊢
      obtain ⟨ended, reached⟩ := run
      obtain ⟨alsoEnded, alsoReached⟩ := alsoRun
      obtain ⟨outcome, bus, registers, saved, status⟩ := ran
      obtain rfl : ended = alsoEnded := outcome
      dsimp only at bus registers saved status ⊢
      cases ended with
      | error fault => exact ⟨rfl, bus, registers, saved, status⟩
      | ok value =>
        dsimp only
        rw [registers]
        exact ⟨rfl, bus, registers, saved, status⟩

/-- A processor with the carry flag set. -/
def withCarry : Core where
  cpu := { Cpu.zeroed with status := ⟨0x20000000⟩ }
  bus := .ofMemory (.blank 0 0)

/--
`MOVS R1, #4` has an encoding that keeps the carry and one that clears it. Either may name any
register for the operand that a move does not have.
-/
theorem move_of_four_in_two_encodings :
    ∃ one other, Opcode.decode 0xE3B01004 = .ok one ∧ Opcode.decode 0xE3B21F01 = .ok other ∧
      one.assembly = "MOVS R1, #4" ∧ other.assembly = "MOVS R1, #4" ∧
      SameRun one.instruction.takesCarryOfImmediate
        ((mapFault (Fault.quoting 0xE3B21F01) (execute one)).perform withCarry)
        ((execute other).perform withCarry) ∧
      ((execute one).perform withCarry).2.cpu.status.carry = true ∧
      ((execute other).perform withCarry).2.cpu.status.carry = false := by
  have decoded : Opcode.decode 0xE3B01004 =
      .ok ⟨.dataProcessing .mov true 0 1 (.immediate 4 0), .al, 0xE3B01004⟩ := rfl
  have also : Opcode.decode 0xE3B21F01 =
      .ok ⟨.dataProcessing .mov true 2 1 (.immediate 1 15), .al, 0xE3B21F01⟩ := rfl
  refine ⟨_, _, decoded, also, by decide, by decide, ?_, rfl, rfl⟩
  exact equal_text_means_equal_behaviour decoded also (by decide) withCarry

end Execution

end Core

end ArmBoard
