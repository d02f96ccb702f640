import ArmBoard.Proofs.Execution.MultiWord
import ArmBoard.Proofs.Execution.Steps

/-!
# Comparisons

A comparison subtracts and keeps nothing but the flags. What each condition
then says is said about the two numbers themselves, read without a sign or in
two's complement: a difference that has no room in a word turns the sign of the
result around, and the overflow tells that it did.
-/
namespace ArmBoard

/-- What a condition says of two words that were compared. -/
def Condition.verdict (first second : Word) : Condition → Option Bool
  | eq => some (first = second)
  | ne => some (first ≠ second)
  | cs => some (second.toNat ≤ first.toNat)
  | cc => some (first.toNat < second.toNat)
  | hi => some (second.toNat < first.toNat)
  | ls => some (first.toNat ≤ second.toNat)
  | ge => some (second.toInt ≤ first.toInt)
  | lt => some (first.toInt < second.toInt)
  | gt => some (second.toInt < first.toInt)
  | le => some (first.toInt ≤ second.toInt)
  | vs => some (¬ FitsSigned 1 (first.toInt - second.toInt))
  | vc => some (FitsSigned 1 (first.toInt - second.toInt))
  | mi => some (Bits.test (first - second) 31)
  | pl => some (!Bits.test (first - second) 31)
  | al => some true
  | nv => none

namespace AluResult

variable (first second : Word)

/-- The flags of a difference of words are those of a difference of numbers of one word each. -/
theorem flags_sub :
    (sub first second).negative = Bits.test (first - second) 31 ∧
    (sub first second).zero = decide (first = second) ∧
    (sub first second).carry = decide (second.toNat ≤ first.toNat) ∧
    (sub first second).overflow = decide (¬ FitsSigned 1 (first.toInt - second.toInt)) := by
  obtain ⟨_, _, last, ends, carry, overflow, negative, zero⟩ :=
    completes_difference (show [first].length = [second].length from rfl) (by simp) true
  obtain rfl : sub first second = last := Option.some.inj ends
  rw [value_sub] at negative zero
  have nothing : 0 + second = second := BitVec.zero_add second
  rw [BitVec.sub_eq_iff_eq_add, nothing] at zero
  have unsigned (word : Word) : unsignedOf [word] = word.toNat := rfl
  rw [unsigned, unsigned, Bool.toNat_true, Nat.sub_self, Nat.add_zero] at carry
  rw [signedOf_singleton, signedOf_singleton, Bool.toNat_true, Nat.cast_one, sub_self,
    sub_zero] at overflow
  refine ⟨negative, ?_, ?_, ?_⟩ <;> rw [Bool.eq_iff_iff, decide_eq_true_iff]
  · exact zero
  · exact carry
  · exact overflow

/-- The sign of the result is that of the difference, unless the difference has no room. -/
theorem negative_bne_overflow_sub :
    ((sub first second).negative != (sub first second).overflow) =
      decide (first.toInt < second.toInt) := by
  have sign : Bits.test (first - second) 31 = decide ((first - second).toInt < 0) := by
    rw [← BitVec.msb_eq_toInt, BitVec.msb_eq_getLsbD_last]
    rfl
  have low := first.le_toInt
  have high := BitVec.toInt_lt (x := first)
  have otherLow := second.le_toInt
  have otherHigh := BitVec.toInt_lt (x := second)
  obtain ⟨negative, _, _, overflow⟩ := flags_sub first second
  rw [negative, overflow, sign, Bool.eq_iff_iff, bne_iff_ne, ne_eq, decide_eq_decide,
    decide_eq_true_iff, BitVec.toInt_sub, FitsSigned, Int.bmod_def]
  omega

end AluResult

/-- The flags of a difference answer each condition as the two words themselves do. -/
theorem Status.passes_withFlags_sub (status : Status) (first second : Word)
    (condition : Condition) :
    (status.withFlags (.sub first second)).passes condition = condition.verdict first second := by
  obtain ⟨negative, zero, carry, overflow⟩ := AluResult.flags_sub first second
  have less := AluResult.negative_bne_overflow_sub first second
  have equal : first = second ↔ first.toNat = second.toNat := BitVec.toNat_inj.symm
  have alsoEqual : first = second ↔ first.toInt = second.toInt := BitVec.toInt_inj.symm
  -- What is not less is at least as great, for the flags as for the numbers.
  have atLeast := congrArg not less
  rw [bne, Bool.not_not, ← decide_not] at atLeast
  cases condition with
  | eq | ne | cs | mi | pl | vs | vc | al | nv =>
    simp [passes, Condition.verdict, negative, zero, carry, overflow]
  | cc | hi | ls =>
    simp only [passes, Condition.verdict, carry_withFlags, zero_withFlags, carry, zero, equal,
      ← decide_not, ← Bool.decide_and, ← Bool.decide_or, Option.some.injEq, decide_eq_decide]
    omega
  | lt => simp only [passes, Condition.verdict, negative_withFlags, overflow_withFlags, less]
  | ge | gt | le =>
    simp only [passes, Condition.verdict, negative_withFlags, overflow_withFlags, zero_withFlags,
      zero, less, atLeast, alsoEqual, ← decide_not, ← Bool.decide_and, ← Bool.decide_or,
      Option.some.injEq, decide_eq_decide]
    omega

namespace Core

open ArmBoard.Action

variable {core : Core} {op : AluOp} {operand : Operand}

/-- An operation that sets the flags takes them all from its result, which a test does not keep. -/
theorem perform_dataProcessing {rn rd : Fin 16} {second : Shifted}
    (shifted : (shiftedOperand operand).perform core = (.ok second, core)) {result : AluResult}
    (calculated : aluResult op (core.cpu.registers.operand rn operand.shiftsByRegister) second
      core.cpu.status = result) :
    (dataProcessing op true rn rd operand).perform core =
      (.ok (), { core with
        cpu.status := core.cpu.status.withFlags result
        cpu.registers := if op.isTest then core.cpu.registers
          else core.cpu.registers.set rd result.value }) := by
  rw [dataProcessing, perform_bind, perform_readOperand]
  dsimp only
  rw [perform_bind, shifted]
  dsimp only
  rw [operate, status, perform_bind, perform_ask]
  dsimp only
  rw [calculated, if_pos rfl, perform_bind, setStatus, perform_change]
  dsimp only
  cases test : op.isTest with
  | true => rfl
  | false => exact perform_writeRegister rd result.value

/-- What a comparison of two words leaves behind, or a difference kept in a register. -/
structure Compared (first second : Word) (kept? : Option Nat) (core reached : Core) : Prop where
  passes : ∀ condition, reached.cpu.status.passes condition = condition.verdict first second
  registers : ∀ number : Fin 16, reached.cpu.registers.get number =
    if kept? = some number.val then first - second else core.cpu.registers.get number
  saved : reached.cpu.saved = core.cpu.saved
  bus : reached.bus = core.bus

/--
After a decoded `CMP`, or a `SUBS`, the conditions compare its operands: equality, order without a
sign and in two's complement, room for the signed difference and the sign of the result. `CMP`
changes no register and no byte of memory, and `SUBS` only the register it keeps the difference in.
-/
theorem conditions_compare_the_operands {word : Word} {setFlags : Bool} {rn rd : Nat}
    (decoded : Opcode.decode word = .ok ⟨.dataProcessing op setFlags rn rd operand, .al, word⟩)
    (compares : op = .cmp ∨ op = .sub ∧ setFlags = true) (core : Core) :
    ∃ (first : Word) (second : Shifted) (reached : Core),
      (readOperand rn operand.shiftsByRegister).perform core = (.ok first, core) ∧
      (shiftedOperand operand).perform core = (.ok second, core) ∧
      (execute ⟨.dataProcessing op setFlags rn rd operand, .al, word⟩).perform core =
        (.ok (rd == 15 && op == .sub), reached) ∧
      Compared first second.value (if op = .cmp then none else some rd) core reached := by
  have bounds := Opcode.withinBounds_of_decode decoded
  have sets : setFlags = true := by
    rcases compares with rfl | ⟨_, sets⟩
    · exact Instruction.testsSetFlags_of_decode (Opcode.decode_eq_ok decoded).1 rfl
    · exact sets
  subst sets
  obtain ⟨rn, rfl⟩ : ∃ number : Fin 16, number.val = rn :=
    ⟨⟨rn, bounds.registers_lt rn (by simp [Instruction.registers])⟩, rfl⟩
  obtain ⟨rd, rfl⟩ : ∃ number : Fin 16, number.val = rd :=
    ⟨⟨rd, bounds.registers_lt rd (by simp [Instruction.registers])⟩, rfl⟩
  have inside : ∀ number ∈ operand.registers, number < 16 := fun number member =>
    bounds.registers_lt number (List.mem_cons_of_mem _ (List.mem_cons_of_mem _ member))
  obtain ⟨second, shifted⟩ := exists_shiftedOperand inside core
  have calculated :
      aluResult op (core.cpu.registers.operand rn operand.shiftsByRegister) second core.cpu.status =
        .sub (core.cpu.registers.operand rn operand.shiftsByRegister) second.value := by
    rcases compares with rfl | ⟨rfl, _⟩ <;> rfl
  have answer : (Instruction.dataProcessing op true rn rd operand).targetsPc =
      (rd.val == 15 && op == .sub) := by
    rcases compares with rfl | ⟨rfl, _⟩ <;> rfl
  have executed := execute_of_performed bounds rfl (perform_dataProcessing shifted calculated)
  rw [answer] at executed
  refine ⟨_, second, _, perform_readOperand rn _, shifted, executed,
    Status.passes_withFlags_sub _ _ _, fun number => ?_, rfl, rfl⟩
  rcases compares with rfl | ⟨rfl, _⟩
  · rfl
  · simp [AluOp.isTest, Registers.get_set, AluResult.value_sub, Fin.ext_iff]

/-- The most negative number in every register. -/
def lowest : Core where
  cpu := { Cpu.zeroed with registers := ⟨.replicate 16 0x80000000⟩ }
  bus := .ofMemory (.blank 0 0)

/--
`CMP r0, #1` finds the most negative number less than one, although the result is positive, and
greater without a sign. `SUBS r2, r0, #1` says the same and keeps the result.
-/
theorem most_negative_is_less_than_one :
    (∃ reached, (execute ⟨.dataProcessing .cmp true 0 0 (.immediate 1 0), .al, 0xE3500001⟩).perform
        lowest = (.ok false, reached) ∧
      reached.cpu.registers.get 0 = 0x80000000 ∧
      [.lt, .vs, .mi, .hi].map reached.cpu.status.passes =
        [some true, some true, some false, some true]) ∧
    ∃ reached, (execute ⟨.dataProcessing .sub true 0 2 (.immediate 1 0), .al, 0xE2502001⟩).perform
        lowest = (.ok false, reached) ∧
      reached.cpu.registers.get 2 = 0x7FFFFFFF ∧
      [.lt, .vs, .mi, .hi].map reached.cpu.status.passes =
        [some true, some true, some false, some true] := by
  have compared : Opcode.decode 0xE3500001 =
    .ok ⟨.dataProcessing .cmp true 0 0 (.immediate 1 0), .al, 0xE3500001⟩ := rfl
  have subtracted : Opcode.decode 0xE2502001 =
    .ok ⟨.dataProcessing .sub true 0 2 (.immediate 1 0), .al, 0xE2502001⟩ := rfl
  have said : [.lt, .vs, .mi, .hi].map (Condition.verdict 0x80000000 1) =
      [some true, some true, some false, some true] := by decide
  constructor
  · obtain ⟨_, _, reached, first, second, executed, left⟩ :=
      conditions_compare_the_operands compared (Or.inl rfl) lowest
    cases first
    cases second
    refine ⟨reached, executed, left.registers 0, ?_⟩
    rw [← said]
    exact List.map_congr_left fun condition _ => left.passes condition
  · obtain ⟨_, _, reached, first, second, executed, left⟩ :=
      conditions_compare_the_operands subtracted (Or.inr ⟨rfl, rfl⟩) lowest
    cases first
    cases second
    refine ⟨reached, executed, left.registers 2, ?_⟩
    rw [← said]
    exact List.map_congr_left fun condition _ => left.passes condition

end Core

end ArmBoard
