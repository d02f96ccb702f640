import ArmBoard.Proofs.Execution.Compare
import ArmBoard.Proofs.Execution.StatusFrame

/-!
# Products

A multiplication keeps the product of two words in one register, or in a pair of
registers that has room for all of it. Only the pair shows whether the words
were read without a sign or in two's complement: the low word of the product is
the same for both, and it is what the short forms keep. A full pair is still too
small for a product and what it is added to, so that sums are exact apart from
full rounds.
-/
namespace ArmBoard

/-- The product of two words as numbers, read without a sign or in two's complement. -/
def LongMultiplication.product (variant : LongMultiplication) (multiplicand multiplier : Word) :
    Int :=
  if variant.isSigned then multiplicand.toInt * multiplier.toInt
  else multiplicand.toNat * multiplier.toNat

/-- The pair that a long multiplication leaves when it finds these words. -/
def LongMultiplication.pair (variant : LongMultiplication)
    (multiplicand multiplier low high : Word) : Dword :=
  if variant.accumulates then
    Core.longProduct variant.isSigned multiplicand multiplier + (high ++ low)
  else Core.longProduct variant.isSigned multiplicand multiplier

/-- The word that a multiplication leaves when it finds these words. -/
def Multiplication.word (variant : Multiplication) (multiplicand multiplier addend : Word) : Word :=
  match variant with
  | .mul => multiplicand * multiplier
  | .mla => multiplicand * multiplier + addend

/-! The words that a multiplication leaves, as numbers. -/
section Numbers

variable (multiplicand multiplier low high : Word)

theorem unsignedOf_pair : unsignedOf [low, high] = (high ++ low).toNat := by
  have bound := low.isLt
  rw [BitVec.toNat_append, Nat.shiftLeft_eq, Nat.mul_comm, ← Nat.two_pow_add_eq_or_of_lt bound]
  simp only [unsignedOf]
  omega

/-- The two words that a number is stored as stand for it. -/
theorem unsignedOf_halves (whole : Dword) :
    unsignedOf [whole.setWidth 32, (whole >>> 32).setWidth 32] = whole.toNat := by
  have bound := whole.isLt
  simp only [unsignedOf, BitVec.toNat_setWidth, BitVec.toNat_ushiftRight,
    Nat.shiftRight_eq_div_pow]
  omega

/-- Widening a word, with or without its sign, keeps the number that it stands for. -/
theorem Core.longProduct_eq (variant : LongMultiplication) :
    Core.longProduct variant.isSigned multiplicand multiplier =
      BitVec.ofInt 64 (variant.product multiplicand multiplier) := by
  rw [Core.longProduct, LongMultiplication.product]
  split
  · exact (BitVec.ofInt_mul _ _).symm
  · rw [← Int.natCast_mul, BitVec.ofInt_natCast, BitVec.ofNat_mul, BitVec.ofNat_toNat,
      BitVec.ofNat_toNat]

/-- What lies above the low words has no share in the low word of a product. -/
theorem Core.setWidth_longProduct (signed : Bool) :
    (Core.longProduct signed multiplicand multiplier).setWidth 32 = multiplicand * multiplier := by
  have extended (word : Word) : (word.signExtend 64).setWidth 32 = word := by
    ext index inside
    rw [BitVec.getElem_setWidth, BitVec.getLsbD_signExtend]
    simp [inside, show index < 64 by omega]
  rw [Core.longProduct]
  split
  · rw [BitVec.setWidth_mul _ _ (by decide), extended, extended]
  · rw [BitVec.setWidth_mul _ _ (by decide)]
    simp

namespace LongMultiplication

variable (variant : LongMultiplication)

theorem toNat_pair :
    ((variant.pair multiplicand multiplier low high).toNat : Int) =
      (variant.product multiplicand multiplier +
        if variant.accumulates then (unsignedOf [low, high] : Int) else 0) % 2 ^ 64 := by
  have exactly (number : Int) : ((BitVec.ofInt 64 number).toNat : Int) = number % 2 ^ 64 := by
    rw [BitVec.toNat_ofInt]
    omega
  rw [pair, Core.longProduct_eq, ← exactly, unsignedOf_pair]
  split
  · rw [BitVec.ofInt_add, BitVec.ofInt_natCast, BitVec.ofNat_toNat, BitVec.setWidth_eq]
  · rw [Int.add_zero]

/-- The short form leaves the low word of the pair, whichever way the words are read. -/
theorem setWidth_pair {short : Multiplication}
    (alike : variant.accumulates = true ↔ short = .mla) :
    (variant.pair multiplicand multiplier low high).setWidth 32 =
      short.word multiplicand multiplier low := by
  rw [pair]
  cases short with
  | mul =>
    rw [if_neg (by simp [alike]), Core.setWidth_longProduct]
    rfl
  | mla =>
    rw [if_pos (alike.mpr rfl), BitVec.setWidth_add _ _ (by decide), Core.setWidth_longProduct,
      BitVec.setWidth_append]
    simp [Multiplication.word]

end LongMultiplication

theorem Multiplication.toNat_word (variant : Multiplication) (addend : Word) :
    (variant.word multiplicand multiplier addend).toNat =
      (multiplicand.toNat * multiplier.toNat + if variant = .mla then addend.toNat else 0) %
        2 ^ 32 := by
  cases variant with
  | mul => simp [word]
  | mla => simp [word]

end Numbers

/-! A flag that was set reads back, whichever are set after it. -/
namespace Status

variable (status : Status)

section Long

variable (pair : Dword)

@[simp]
theorem negative_withLongProduct : (status.withLongProduct pair).negative = Bits.test pair 63 := by
  simp [negative, withLongProduct, test_put, negativeBit, zeroBit, carryBit, overflowBit]

@[simp]
theorem zero_withLongProduct : (status.withLongProduct pair).zero = (pair == 0) := by
  simp [zero, withLongProduct, test_put, zeroBit, carryBit, overflowBit]

@[simp]
theorem carry_withLongProduct :
    (status.withLongProduct pair).carry = Bits.test (pair.setWidth 32) 0 := by
  simp [carry, withLongProduct, test_put, carryBit, overflowBit]

@[simp]
theorem overflow_withLongProduct :
    (status.withLongProduct pair).overflow = Bits.test (pair.setWidth 32) 1 := by
  simp [overflow, withLongProduct, test_put, overflowBit]

end Long

section Short

variable (word : Word)

@[simp]
theorem negative_withProduct : (status.withProduct word).negative = Bits.test word 31 := by
  simp [negative, withProduct, test_put, negativeBit, zeroBit, carryBit]

@[simp]
theorem zero_withProduct : (status.withProduct word).zero = (word == 0) := by
  simp [zero, withProduct, test_put, zeroBit, carryBit]

@[simp]
theorem carry_withProduct : (status.withProduct word).carry = Bits.test word 0 := by
  simp [carry, withProduct, test_put, carryBit]

end Short

end Status

namespace Core

open ArmBoard.Action

/--
An instruction with results in a few registers, and flags that it sets, leaves the other registers,
the other bits of the status, the saved statuses and the bus as they are.
-/
structure ChangesOnly (results : List (Fin 16)) (flags : List Nat) (core reached : Core) : Prop
    extends Spares flags core reached where
  others : ∀ number, number ∉ results →
    reached.cpu.registers.get number = core.cpu.registers.get number
  bus : reached.bus = core.bus

/-- The number in a pair of registers, whose low word is named first. -/
def pairOf (core : Core) (low high : Fin 16) : Nat :=
  unsignedOf [core.cpu.registers.get low, core.cpu.registers.get high]

/-- What a long multiplication leaves behind. -/
structure LongMultiplied (variant : LongMultiplication) (setFlags : Bool)
    (rdHi rdLo rs rm : Fin 16) (core reached : Core) : Prop where
  /-- All operands count with their old values, and so does the pair where it is added. -/
  exact_pair : (reached.pairOf rdLo rdHi : Int) =
    (variant.product (core.cpu.registers.get rm) (core.cpu.registers.get rs) +
      if variant.accumulates then (core.pairOf rdLo rdHi : Int) else 0) % 2 ^ 64
  negative : setFlags = true → reached.cpu.status.negative = (reached.pairOf rdLo rdHi).testBit 63
  zero : setFlags = true → reached.cpu.status.zero = decide (reached.pairOf rdLo rdHi = 0)
  carry : setFlags = true →
    reached.cpu.status.carry = Bits.test (reached.cpu.registers.get rdLo) 0
  overflow : setFlags = true →
    reached.cpu.status.overflow = Bits.test (reached.cpu.registers.get rdLo) 1
  frame : ChangesOnly [rdHi, rdLo] (if setFlags then Status.flagBits else []) core reached

/-- What a multiplication leaves behind. -/
structure Multiplied (variant : Multiplication) (setFlags : Bool) (rd rn rs rm : Fin 16)
    (core reached : Core) : Prop where
  exact_word : (reached.cpu.registers.get rd).toNat =
    ((core.cpu.registers.get rm).toNat * (core.cpu.registers.get rs).toNat +
      if variant = .mla then (core.cpu.registers.get rn).toNat else 0) % 2 ^ 32
  negative : setFlags = true →
    reached.cpu.status.negative = Bits.test (reached.cpu.registers.get rd) 31
  zero : setFlags = true →
    reached.cpu.status.zero = decide (reached.cpu.registers.get rd = 0)
  carry : setFlags = true → reached.cpu.status.carry = Bits.test (reached.cpu.registers.get rd) 0
  /-- The overflow is not among the flags. -/
  frame : ChangesOnly [rd]
    (if setFlags then [Status.negativeBit, Status.zeroBit, Status.carryBit] else []) core reached

/-- The core with a number in a pair of registers, the high word written last, and its flags. -/
def withPair (core : Core) (setFlags : Bool) (rdHi rdLo : Fin 16) (pair : Dword) : Core :=
  { core with
    cpu.registers := (core.cpu.registers.set rdLo (pair.setWidth 32)).set rdHi
      ((pair >>> 32).setWidth 32)
    cpu.status := if setFlags then core.cpu.status.withLongProduct pair else core.cpu.status }

/-- The core with a number in a register, and its flags. -/
def withWord (core : Core) (setFlags : Bool) (rd : Fin 16) (word : Word) : Core :=
  { core with
    cpu.registers := core.cpu.registers.set rd word
    cpu.status := if setFlags then core.cpu.status.withProduct word else core.cpu.status }

variable (core : Core) (setFlags : Bool) (rdHi rdLo rd rn rs rm : Fin 16)

/-! Both multiplications read all their operands before they write any result. -/
section Steps

theorem perform_updateStatus_if (asked : Bool) (update : Status → Status) (core : Core) :
    (if asked then updateStatus update else pure () : Action Core Unit).perform core =
      (.ok (), { core with
        cpu.status := if asked then update core.cpu.status else core.cpu.status }) := by
  cases asked <;> rfl

theorem perform_multiplyLong (variant : LongMultiplication) :
    (multiplyLong variant setFlags rdHi rdLo rs rm).perform core =
      (.ok (), core.withPair setFlags rdHi rdLo
        (variant.pair (core.cpu.registers.get rm) (core.cpu.registers.get rs)
          (core.cpu.registers.get rdLo) (core.cpu.registers.get rdHi))) := by
  have written (pair : Dword) : (do
      writeRegister rdLo (pair.setWidth 32)
      writeRegister rdHi ((pair >>> 32).setWidth 32)
      if setFlags then updateStatus (·.withLongProduct pair) : Action Core Unit).perform core =
        (.ok (), core.withPair setFlags rdHi rdLo pair) := by
    rw [perform_bind, perform_writeRegister]
    dsimp only
    rw [perform_bind, perform_writeRegister]
    exact perform_updateStatus_if setFlags (·.withLongProduct pair) _
  rw [multiplyLong, perform_bind, perform_readRegister]
  dsimp only
  rw [perform_bind, perform_readRegister]
  dsimp only [LongMultiplication.pair]
  -- An old pair is read before any of it is written.
  by_cases accumulates : variant.accumulates = true
  · rw [if_pos accumulates, if_pos accumulates, perform_bind, perform_readRegister]
    dsimp only
    rw [perform_bind, perform_readRegister]
    exact written _
  · rw [if_neg accumulates, if_neg accumulates]
    exact written _

theorem perform_multiply (variant : Multiplication) :
    (multiply variant setFlags rd rn rs rm).perform core =
      (.ok (), core.withWord setFlags rd
        (variant.word (core.cpu.registers.get rm) (core.cpu.registers.get rs)
          (core.cpu.registers.get rn))) := by
  have written (word : Word) : (do
      writeRegister rd word
      if setFlags then updateStatus (·.withProduct word) : Action Core Unit).perform core =
        (.ok (), core.withWord setFlags rd word) := by
    rw [perform_bind, perform_writeRegister]
    exact perform_updateStatus_if setFlags (·.withProduct word) _
  rw [multiply, perform_bind, perform_readRegister]
  dsimp only
  rw [perform_bind, perform_readRegister]
  cases variant with
  | mul => exact written _
  | mla =>
    dsimp only
    rw [perform_bind, perform_readRegister]
    exact written _

end Steps

section Results

variable {rdHi rdLo}

/-- Two registers hold a pair only if they are two. -/
theorem pairOf_withPair (apart : rdHi ≠ rdLo) (pair : Dword) :
    (core.withPair setFlags rdHi rdLo pair).pairOf rdLo rdHi = pair.toNat := by
  rw [← unsignedOf_halves pair, pairOf]
  simp [withPair, Registers.get_set, apart]

theorem changesOnly_withPair (pair : Dword) :
    ChangesOnly [rdHi, rdLo] (if setFlags then Status.flagBits else []) core
      (core.withPair setFlags rdHi rdLo pair) where
  saved := rfl
  status index unlisted := by
    cases setFlags with
    | true => exact Status.test_put_flags _ _ _ _ _ unlisted
    | false => rfl
  others number unlisted := by
    simp only [List.mem_cons, List.not_mem_nil, or_false, not_or] at unlisted
    simp [withPair, Registers.get_set, Ne.symm unlisted.1, Ne.symm unlisted.2]
  bus := rfl

theorem changesOnly_withWord (word : Word) :
    ChangesOnly [rd] (if setFlags then [Status.negativeBit, Status.zeroBit, Status.carryBit] else [])
      core (core.withWord setFlags rd word) where
  saved := rfl
  status index unlisted := by
    cases setFlags with
    | true => exact Status.test_put_threeFlags _ _ _ _ unlisted
    | false => rfl
  others number unlisted := by
    simp only [List.mem_cons, List.not_mem_nil, or_false] at unlisted
    simp [withWord, Registers.get_set, Ne.symm unlisted]
  bus := rfl

theorem longMultiplied (apart : rdHi ≠ rdLo) (variant : LongMultiplication) :
    LongMultiplied variant setFlags rdHi rdLo rs rm core (core.withPair setFlags rdHi rdLo
      (variant.pair (core.cpu.registers.get rm) (core.cpu.registers.get rs)
        (core.cpu.registers.get rdLo) (core.cpu.registers.get rdHi))) := by
  generalize kept : variant.pair _ _ _ _ = pair
  have low : (core.withPair setFlags rdHi rdLo pair).cpu.registers.get rdLo = pair.setWidth 32 := by
    simp [withPair, Registers.get_set, apart]
  have whole := pairOf_withPair core setFlags apart pair
  constructor
  case exact_pair => rw [whole, ← kept, LongMultiplication.toNat_pair, pairOf]
  case frame => exact changesOnly_withPair core setFlags pair
  case negative =>
    rintro rfl
    rw [whole, BitVec.testBit_toNat]
    exact Status.negative_withLongProduct _ pair
  case zero =>
    rintro rfl
    have nothing : pair.toNat = 0 ↔ pair = 0 := by
      rw [← BitVec.toNat_inj]
      rfl
    rw [whole, decide_eq_decide.mpr nothing]
    exact Status.zero_withLongProduct _ pair
  case carry =>
    rintro rfl
    rw [low]
    exact Status.carry_withLongProduct _ pair
  case overflow =>
    rintro rfl
    rw [low]
    exact Status.overflow_withLongProduct _ pair

theorem multiplied (variant : Multiplication) :
    Multiplied variant setFlags rd rn rs rm core (core.withWord setFlags rd
      (variant.word (core.cpu.registers.get rm) (core.cpu.registers.get rs)
        (core.cpu.registers.get rn))) := by
  generalize kept : variant.word _ _ _ = word
  have result : (core.withWord setFlags rd word).cpu.registers.get rd = word := by
    simp [withWord, Registers.get_set]
  constructor
  case exact_word => rw [result, ← kept, Multiplication.toNat_word]
  case frame => exact changesOnly_withWord core setFlags rd word
  case negative =>
    rintro rfl
    rw [result]
    exact Status.negative_withProduct _ word
  case zero =>
    rintro rfl
    rw [result]
    exact Status.zero_withProduct _ word
  case carry =>
    rintro rfl
    rw [result]
    exact Status.carry_withProduct _ word

end Results

/-- The low word of a long product is what the short form leaves, wherever it finds the operands. -/
theorem LongMultiplied.low_eq {variant : LongMultiplication} {short : Multiplication}
    {flags otherFlags : Bool} {high low second first rd rn rs rm : Fin 16}
    {core reached other otherReached : Core}
    (long : LongMultiplied variant flags high low second first core reached)
    (multiplied : Multiplied short otherFlags rd rn rs rm other otherReached)
    (alike : variant.accumulates = true ↔ short = .mla)
    (multiplicand : core.cpu.registers.get first = other.cpu.registers.get rm)
    (multiplier : core.cpu.registers.get second = other.cpu.registers.get rs)
    (addend : short = .mla → core.cpu.registers.get low = other.cpu.registers.get rn) :
    reached.cpu.registers.get low = otherReached.cpu.registers.get rd := by
  have whole := long.exact_pair.trans
    (LongMultiplication.toNat_pair _ _ (core.cpu.registers.get low) (core.cpu.registers.get high)
      variant).symm
  rw [Nat.cast_inj] at whole
  -- The pair as a number is known, and its low word is what remains of it.
  have lowest : reached.cpu.registers.get low = (variant.pair (core.cpu.registers.get first)
      (core.cpu.registers.get second) (core.cpu.registers.get low)
      (core.cpu.registers.get high)).setWidth 32 := by
    have bound := (reached.cpu.registers.get low).isLt
    rw [← BitVec.toNat_inj, BitVec.toNat_setWidth, ← whole]
    simp only [pairOf, unsignedOf]
    omega
  -- Each form is now described by the words it found, which are the same.
  rw [lowest, LongMultiplication.setWidth_pair _ _ _ _ variant alike, ← BitVec.toNat_inj,
    multiplied.exact_word, Multiplication.toNat_word, multiplicand, multiplier]
  cases short with
  | mul => rfl
  | mla => rw [addend rfl]

section Decoded

variable {word : Word}

theorem execute_multiplyLong {variant : LongMultiplication} {setFlags : Bool}
    {rdHi rdLo rs rm : Nat}
    (decoded : Opcode.decode word = .ok ⟨.multiplyLong variant setFlags rdHi rdLo rs rm, .al, word⟩)
    (core : Core) : ∃ (high low second first : Fin 16) (reached : Core),
      (rdHi, rdLo, rs, rm) = (high.val, low.val, second.val, first.val) ∧
      (execute ⟨.multiplyLong variant setFlags rdHi rdLo rs rm, .al, word⟩).perform core =
        (.ok false, reached) ∧
      LongMultiplied variant setFlags high low second first core reached := by
  have bounds := Opcode.withinBounds_of_decode decoded
  obtain ⟨high, rfl⟩ := bounds.exists_fin rdHi (by simp [Instruction.registers])
  obtain ⟨low, rfl⟩ := bounds.exists_fin rdLo (by simp [Instruction.registers])
  obtain ⟨second, rfl⟩ := bounds.exists_fin rs (by simp [Instruction.registers])
  obtain ⟨first, rfl⟩ := bounds.exists_fin rm (by simp [Instruction.registers])
  -- A pair of one register would have been refused.
  have apart : high ≠ low := by
    rintro rfl
    have accepted := bounds.accepted
    simp only [Instruction.objection?, beq_self_eq_true, if_true] at accepted
    split at accepted <;> cases accepted
  exact ⟨high, low, second, first, _, rfl,
    execute_of_performed bounds rfl (perform_multiplyLong core setFlags high low second first variant),
    longMultiplied core setFlags second first apart variant⟩

theorem execute_multiply {variant : Multiplication} {setFlags : Bool} {rd rn rs rm : Nat}
    (decoded : Opcode.decode word = .ok ⟨.multiply variant setFlags rd rn rs rm, .al, word⟩)
    (core : Core) : ∃ (result addend second first : Fin 16) (reached : Core),
      (rd, rn, rs, rm) = (result.val, addend.val, second.val, first.val) ∧
      (execute ⟨.multiply variant setFlags rd rn rs rm, .al, word⟩).perform core =
        (.ok false, reached) ∧
      Multiplied variant setFlags result addend second first core reached := by
  have bounds := Opcode.withinBounds_of_decode decoded
  obtain ⟨result, rfl⟩ := bounds.exists_fin rd (by simp [Instruction.registers])
  obtain ⟨addend, rfl⟩ := bounds.exists_fin rn (by simp [Instruction.registers])
  obtain ⟨second, rfl⟩ := bounds.exists_fin rs (by simp [Instruction.registers])
  obtain ⟨first, rfl⟩ := bounds.exists_fin rm (by simp [Instruction.registers])
  exact ⟨result, addend, second, first, _, rfl,
    execute_of_performed bounds rfl
      (perform_multiply core setFlags result addend second first variant),
    multiplied core setFlags result addend second first variant⟩

end Decoded

/--
A decoded long multiplication leaves the exact product in a pair of registers, added to what the
pair held if it accumulates, apart from full rounds and also where an operand is in the pair. A
decoded multiplication leaves the product, or the sum, apart from full rounds of one word, which is
the low word of every long one that finds the same operands, signed or not. The flags follow the
whole result, and nothing is different afterwards but the results and, if asked for, the flags.
-/
theorem multiplications_are_exact :
    (∀ {word : Word} {variant : LongMultiplication} {setFlags : Bool} {rdHi rdLo rs rm : Nat},
      Opcode.decode word = .ok ⟨.multiplyLong variant setFlags rdHi rdLo rs rm, .al, word⟩ →
      ∀ core : Core, ∃ (high low second first : Fin 16) (reached : Core),
        (rdHi, rdLo, rs, rm) = (high.val, low.val, second.val, first.val) ∧
        (execute ⟨.multiplyLong variant setFlags rdHi rdLo rs rm, .al, word⟩).perform core =
          (.ok false, reached) ∧
        LongMultiplied variant setFlags high low second first core reached) ∧
    (∀ {word : Word} {variant : Multiplication} {setFlags : Bool} {rd rn rs rm : Nat},
      Opcode.decode word = .ok ⟨.multiply variant setFlags rd rn rs rm, .al, word⟩ →
      ∀ core : Core, ∃ (result addend second first : Fin 16) (reached : Core),
        (rd, rn, rs, rm) = (result.val, addend.val, second.val, first.val) ∧
        (execute ⟨.multiply variant setFlags rd rn rs rm, .al, word⟩).perform core =
          (.ok false, reached) ∧
        Multiplied variant setFlags result addend second first core reached) ∧
    ∀ {long short : Word} {variant : LongMultiplication} {form : Multiplication}
      {longFlags shortFlags : Bool} {rdHi rdLo rs rm rd rn otherRs otherRm : Nat},
      Opcode.decode long = .ok ⟨.multiplyLong variant longFlags rdHi rdLo rs rm, .al, long⟩ →
      Opcode.decode short = .ok ⟨.multiply form shortFlags rd rn otherRs otherRm, .al, short⟩ →
      (variant.accumulates = true ↔ form = .mla) →
      ∀ core other : Core,
        core.cpu.registers.get? rm = other.cpu.registers.get? otherRm →
        core.cpu.registers.get? rs = other.cpu.registers.get? otherRs →
        (form = .mla → core.cpu.registers.get? rdLo = other.cpu.registers.get? rn) →
        ∃ low, ((execute ⟨.multiplyLong variant longFlags rdHi rdLo rs rm, .al, long⟩).perform
            core).2.cpu.registers.get? rdLo = some low ∧
          ((execute ⟨.multiply form shortFlags rd rn otherRs otherRm, .al, short⟩).perform
            other).2.cpu.registers.get? rd = some low := by
  refine ⟨execute_multiplyLong, execute_multiply, ?_⟩
  intro long short variant form longFlags shortFlags rdHi rdLo rs rm rd rn otherRs otherRm
    decoded otherDecoded alike core other multiplicand multiplier addend
  obtain ⟨high, low, second, first, reached, names, executed, left⟩ :=
    execute_multiplyLong decoded core
  obtain ⟨result, added, otherSecond, otherFirst, otherReached, otherNames, otherExecuted,
    otherLeft⟩ := execute_multiply otherDecoded other
  cases names
  cases otherNames
  simp only [Registers.get?_of_lt _ (Fin.isLt _), Option.some.injEq, Fin.eta] at *
  exact ⟨_, by rw [executed], by
    rw [otherExecuted, ← left.low_eq otherLeft alike multiplicand multiplier addend]⟩

/--
`SMLALS r0, r1, r2, r1` squares the most negative number and adds a pair that holds one of the
operands. `MLAS r3, r2, r1, r0` leaves the low word of it, whose sign is not that of the pair.
-/
theorem most_negative_squared_onto_an_operand :
    (∃ reached, (execute ⟨.multiplyLong .smlal true 1 0 1 2, .al, 0xE0F10192⟩).perform lowest =
        (.ok false, reached) ∧
      reached.pairOf 0 1 = 0xC000000080000000 ∧ reached.cpu.status.negative = true ∧
      reached.cpu.status.zero = false) ∧
    (∃ reached, (execute ⟨.multiply .mla true 3 0 1 2, .al, 0xE0330192⟩).perform lowest =
        (.ok false, reached) ∧
      (reached.cpu.registers.get 3).toNat = 0x80000000 ∧ reached.cpu.status.zero = false) ∧
    ∃ low, ((execute ⟨.multiplyLong .smlal true 1 0 1 2, .al, 0xE0F10192⟩).perform
        lowest).2.cpu.registers.get? 0 = some low ∧
      ((execute ⟨.multiply .mla true 3 0 1 2, .al, 0xE0330192⟩).perform
        lowest).2.cpu.registers.get? 3 = some low := by
  have long : Opcode.decode 0xE0F10192 =
    .ok ⟨.multiplyLong .smlal true 1 0 1 2, .al, 0xE0F10192⟩ := rfl
  have short : Opcode.decode 0xE0330192 =
    .ok ⟨.multiply .mla true 3 0 1 2, .al, 0xE0330192⟩ := rfl
  obtain ⟨longs, shorts, agree⟩ := multiplications_are_exact
  refine ⟨?_, ?_, agree long short (by decide) lowest lowest rfl rfl fun _ => rfl⟩
  · obtain ⟨high, low, second, first, reached, names, executed, left⟩ := longs long lowest
    simp only [Prod.mk.injEq] at names
    obtain ⟨sameHigh, sameLow, sameSecond, sameFirst⟩ := names
    obtain rfl : high = 1 := Fin.ext sameHigh.symm
    obtain rfl : low = 0 := Fin.ext sameLow.symm
    obtain rfl : second = 1 := Fin.ext sameSecond.symm
    obtain rfl : first = 2 := Fin.ext sameFirst.symm
    have square : LongMultiplication.smlal.product (lowest.cpu.registers.get 2)
        (lowest.cpu.registers.get 1) = 2 ^ 62 := by decide
    have old : lowest.pairOf 0 1 = 0x8000000080000000 := by decide
    have pair : reached.pairOf 0 1 = 0xC000000080000000 := by
      have exactly := left.exact_pair
      rw [square, old, if_pos (show LongMultiplication.smlal.accumulates = true from rfl)] at exactly
      omega
    refine ⟨reached, executed, pair, ?_, ?_⟩
    · rw [left.negative rfl, pair]
      decide
    · rw [left.zero rfl, pair]
      decide
  · obtain ⟨result, addend, second, first, reached, names, executed, left⟩ := shorts short lowest
    simp only [Prod.mk.injEq] at names
    obtain ⟨sameResult, sameAddend, sameSecond, sameFirst⟩ := names
    obtain rfl : result = 3 := Fin.ext sameResult.symm
    obtain rfl : addend = 0 := Fin.ext sameAddend.symm
    obtain rfl : second = 1 := Fin.ext sameSecond.symm
    obtain rfl : first = 2 := Fin.ext sameFirst.symm
    have word : (reached.cpu.registers.get 3).toNat = 0x80000000 := by
      rw [left.exact_word]
      decide
    refine ⟨reached, executed, word, ?_⟩
    rw [left.zero rfl, decide_eq_false]
    rintro nothing
    rw [nothing] at word
    cases word

end Core

end ArmBoard
