import ArmBoard.Proofs.Decoding.Agreement
import ArmBoard.Proofs.Decoding.Bounds

/-!
# What an operand tells about its word

Two words with the same operand agree on the bits that the operand was read
from. Nothing is lost in between: codes name one thing each, the nibbles of an
offset do not overlap, and a branch displacement is the field it came from,
moved up. A bit that an operand passes over is fixed by the form of the
operand, with one exception: a plain register offset leaves four bits open.
-/
namespace ArmBoard

open Bits

/-- A register takes four of the eight bits that an immediate offset takes. -/
def PlainOffset.unread : PlainOffset → Word
  | immediate _ => 0
  | register _ => span 32 8 11

theorem Condition.code_ofCode {number : Nat} (bound : number < 16) :
    (ofCode number).code = number := by
  revert number
  decide

theorem AluOp.code_ofCode {number : Nat} (bound : number < 16) :
    (ofCode number).code = number := by
  revert number
  decide

theorem ShiftKind.ofCode_inj {first second : Nat} (firstBound : first < 4)
    (secondBound : second < 4) (same : ofCode first = ofCode second) : first = second := by
  have known : ∀ one < 4, ∀ other < 4, ofCode one = ofCode other → one = other := by decide
  exact known first firstBound second secondBound same

theorem HalfKind.index_ofCode? {number : Nat} {kind : HalfKind}
    (known : ofCode? number = some kind) : number = kind.index + 1 := by
  unfold ofCode? at known
  split at known <;> cases known <;> rfl

theorem LongMultiplication.ofBits_inj {first second accumulates also : Bool}
    (same : ofBits first accumulates = ofBits second also) :
    first = second ∧ accumulates = also := by
  revert first second accumulates also
  decide

/-- A bit that chooses between two different things is told by the choice. -/
theorem bit_eq_of_choice {α : Type} {yes no : α} (different : yes ≠ no) {first second : Bool}
    (same : (if first then yes else no) = if second then yes else no) : first = second := by
  cases first <;> cases second
  · rfl
  · exact absurd same.symm different
  · exact absurd same different
  · rfl

theorem Condition.agreeOn_of_ofWord {first second : Word} (same : ofWord first = ofWord second) :
    AgreeOn (span 32 28 31) first second := by
  have bound (word : Word) : field word 28 31 < 16 := field_lt word 28 31
  apply (field_eq_iff (by decide)).mp
  rw [← Condition.code_ofCode (bound first), ← Condition.code_ofCode (bound second)]
  exact congrArg Condition.code same

namespace Family

variable {first second mask : Word} {low : Nat}

theorem agreeOn_of_choice {α : Type} {yes no : α} (different : yes ≠ no) {index : Nat}
    (bound : index < 32)
    (same : (if test first index then yes else no) = if test second index then yes else no) :
    AgreeOn (span 32 index index) first second :=
  (test_eq_iff bound).mp (bit_eq_of_choice different same)

theorem registerAt_eq_iff (bound : low + 3 < 32) :
    registerAt first low = registerAt second low ↔
      AgreeOn (span 32 low (low + 3)) first second :=
  field_eq_iff bound

theorem agreeOn_of_shiftKind
    (same : ShiftKind.ofCode (field first 5 6) = ShiftKind.ofCode (field second 5 6)) :
    AgreeOn (span 32 5 6) first second :=
  (field_eq_iff (by decide)).mp
    (ShiftKind.ofCode_inj (field_lt first 5 6) (field_lt second 5 6) same)

/-- Bit 7 is not read with a shift by a register, but then it is clear. -/
theorem agreeOn_of_operandOf
    (one : test first 25 = false → test first 4 = true → test first 7 = false)
    (other : test second 25 = false → test second 4 = true → test second 7 = false)
    (same : operandOf first = operandOf second) :
    AgreeOn (span 32 0 11 ||| span 32 25 25) first second := by
  -- Bit 25 tells a register from an immediate, bit 4 where the amount of a shift is found.
  cases immediate : test first 25 <;> cases also : test second 25
  · have operand : AgreeOn (span 32 25 25) first second :=
      (test_eq_iff (by decide)).mp (immediate.trans also.symm)
    simp only [operandOf, immediate, also, Bool.false_eq_true, if_false, Operand.register.injEq]
      at same
    obtain ⟨amount, kind, number⟩ := same
    have kind := agreeOn_of_shiftKind kind
    have number := (registerAt_eq_iff (by decide)).mp number
    cases byRegister : test first 4 <;> cases alsoByRegister : test second 4
    · -- An encoded amount takes bits 7 to 11.
      have form : AgreeOn (span 32 4 4) first second :=
        (test_eq_iff (by decide)).mp (byRegister.trans alsoByRegister.symm)
      simp only [byRegister, alsoByRegister, Bool.false_eq_true, if_false,
        ShiftAmount.immediate.injEq] at amount
      have amount := (field_eq_iff (by decide)).mp amount
      exact ((((operand.union form).union amount).union kind).union number).within (by decide)
    · simp [byRegister, alsoByRegister] at amount
    · simp [byRegister, alsoByRegister] at amount
    · have form : AgreeOn (span 32 4 4) first second :=
        (test_eq_iff (by decide)).mp (byRegister.trans alsoByRegister.symm)
      have clear : AgreeOn (span 32 7 7) first second :=
        (test_eq_iff (by decide)).mp
          ((one immediate byRegister).trans (other also alsoByRegister).symm)
      simp only [byRegister, alsoByRegister, if_true, ShiftAmount.register.injEq] at amount
      have amount := (registerAt_eq_iff (by decide)).mp amount
      exact (((((operand.union form).union clear).union amount).union kind).union number).within
        (by decide)
  · simp [operandOf, immediate, also] at same
  · simp [operandOf, immediate, also] at same
  · have operand : AgreeOn (span 32 25 25) first second :=
      (test_eq_iff (by decide)).mp (immediate.trans also.symm)
    simp only [operandOf, immediate, also, if_true, Operand.immediate.injEq] at same
    have base := (slice_eq_iff (by decide)).mp same.1
    have rotate := (field_eq_iff (by decide)).mp same.2
    exact ((operand.union base).union rotate).within (by decide)

/-- Bit 4 is not read with a register offset, but then it is clear. -/
theorem agreeOn_of_shiftedOffsetOf (one : test first 25 = true → test first 4 = false)
    (other : test second 25 = true → test second 4 = false)
    (same : shiftedOffsetOf first = shiftedOffsetOf second) :
    AgreeOn (span 32 0 11 ||| span 32 25 25) first second := by
  cases shifted : test first 25 <;> cases also : test second 25
  · have form : AgreeOn (span 32 25 25) first second :=
      (test_eq_iff (by decide)).mp (shifted.trans also.symm)
    simp only [shiftedOffsetOf, shifted, also, Bool.false_eq_true, if_false,
      ShiftedOffset.immediate.injEq] at same
    have offset := (slice_eq_iff (by decide)).mp same
    exact (form.union offset).within (by decide)
  · simp [shiftedOffsetOf, shifted, also] at same
  · simp [shiftedOffsetOf, shifted, also] at same
  · have form : AgreeOn (span 32 25 25) first second :=
      (test_eq_iff (by decide)).mp (shifted.trans also.symm)
    have clear : AgreeOn (span 32 4 4) first second :=
      (test_eq_iff (by decide)).mp ((one shifted).trans (other also).symm)
    simp only [shiftedOffsetOf, shifted, also, if_true, ShiftedOffset.register.injEq] at same
    obtain ⟨amount, kind, number⟩ := same
    have amount := (field_eq_iff (by decide)).mp amount
    have kind := agreeOn_of_shiftKind kind
    have number := (registerAt_eq_iff (by decide)).mp number
    exact ((((form.union clear).union amount).union kind).union number).within (by decide)

/-- The two nibbles of an offset do not overlap. -/
theorem agreeOn_of_nibbles
    (same : (slice first 8 11 <<< 4) ||| slice first 0 3 =
      (slice second 8 11 <<< 4) ||| slice second 0 3) :
    AgreeOn (span 32 0 3 ||| span 32 8 11) first second := by
  have bit (word : Word) (index : Nat) (bound : index < 32) :
      test ((slice word 8 11 <<< 4) ||| slice word 0 3) index =
        ((decide (4 ≤ index) && (decide (index ≤ 7) && test word (index + 4))) ||
          (decide (index ≤ 3) && test word index)) := by
    have high := test_slice word 8 11 (index - 4)
    have low := test_slice word 0 3 index
    simp only [test] at high low ⊢
    rw [BitVec.getLsbD_or, BitVec.getLsbD_shiftLeft, high, low]
    by_cases above : 4 ≤ index
    · simp [above, bound, show ¬ index < 4 by omega, show 8 + (index - 4) = index + 4 by omega,
        show index + 4 ≤ 11 ↔ index ≤ 7 by omega]
    · simp [above, show index < 4 by omega]
  -- The low nibble is read off bits 0 to 3 of the offset, the high one off bits 4 to 7.
  have agree (index : Nat) (bound : index < 32) := congrArg (test · index) same
  refine AgreeOn.union ?_ ?_
  · rw [agreeOn_iff]
    intro index bound set
    rw [test_span bound] at set
    have low := agree index bound
    simpa [bit, bound, set.2, show ¬ 4 ≤ index by omega] using low
  · rw [agreeOn_iff]
    intro index bound set
    rw [test_span bound] at set
    have high := agree (index - 4) (by omega)
    simpa [bit, show index - 4 < 32 by omega, show 4 ≤ index - 4 by omega,
      show index - 4 ≤ 7 by omega, show ¬ index - 4 ≤ 3 by omega,
      show index - 4 + 4 = index by omega] using high

theorem agreeOn_of_plainOffsetOf (same : plainOffsetOf first = plainOffsetOf second) :
    AgreeOn (0x00400F0F &&& ~~~(plainOffsetOf first).unread) first second := by
  cases immediate : test first 22 <;> cases also : test second 22
  · have form : AgreeOn (span 32 22 22) first second :=
      (test_eq_iff (by decide)).mp (immediate.trans also.symm)
    simp only [plainOffsetOf, immediate, also, Bool.false_eq_true, if_false,
      PlainOffset.register.injEq, PlainOffset.unread] at same ⊢
    exact (((registerAt_eq_iff (by decide)).mp same).union form).within (by decide)
  · simp [plainOffsetOf, immediate, also] at same
  · simp [plainOffsetOf, immediate, also] at same
  · have form : AgreeOn (span 32 22 22) first second :=
      (test_eq_iff (by decide)).mp (immediate.trans also.symm)
    simp only [plainOffsetOf, immediate, also, if_true, PlainOffset.immediate.injEq,
      PlainOffset.unread] at same ⊢
    exact ((agreeOn_of_nibbles same).union form).within (by decide)

theorem agreeOn_of_addressingOf {offset : Type} {one other : offset}
    (same : addressingOf first one = addressingOf second other) :
    AgreeOn (span 32 16 19 ||| span 32 21 21 ||| span 32 23 24) first second ∧ one = other := by
  simp only [addressingOf, Addressing.mk.injEq] at same
  obtain ⟨base, offset, indexing, offsetting, writeBack⟩ := same
  have base := (registerAt_eq_iff (by decide)).mp base
  have indexing := agreeOn_of_choice (by decide) (by decide) indexing
  have offsetting := agreeOn_of_choice (by decide) (by decide) offsetting
  have writeBack := (test_eq_iff (by decide)).mp writeBack
  exact ⟨(((base.union indexing).union offsetting).union writeBack).within (by decide), offset⟩

/-- A branch displacement holds bit `index` of the word two places further up. -/
theorem test_branchOffsetOf (word : Word) {index : Nat} (bound : index ≤ 23) :
    test (branchOffsetOf word) (index + 2) = test word index := by
  have low := test_slice word 0 23 index
  simp only [test] at low ⊢
  simp only [branchOffsetOf, signExtend, BitVec.getLsbD_sshiftRight, BitVec.getLsbD_shiftLeft]
  simp [show ¬ 30 ≤ index by omega, show index + 2 < 32 by omega,
    show 6 + (index + 2) < 32 by omega, show ¬ 6 + (index + 2) < 6 by omega, low, bound]

theorem agreeOn_of_branchOffsetOf (same : branchOffsetOf first = branchOffsetOf second) :
    AgreeOn (span 32 0 23) first second := by
  rw [agreeOn_iff]
  intro index bound set
  rw [test_span bound] at set
  rw [← test_branchOffsetOf first set.2, ← test_branchOffsetOf second set.2, same]

theorem registerAt_congr (agree : AgreeOn mask first second)
    (part : span 32 low (low + 3) &&& mask = span 32 low (low + 3)) (bound : low + 3 < 32) :
    registerAt first low = registerAt second low :=
  (registerAt_eq_iff bound).mpr (agree.within part)

theorem addressingOf_congr {offset : Type} (agree : AgreeOn mask first second)
    (part : 0x01AF0000 &&& mask = 0x01AF0000) (distance : offset) :
    addressingOf first distance = addressingOf second distance := by
  have read := agree.within part
  have base : registerAt first 16 = registerAt second 16 :=
    registerAt_congr read (by decide) (by decide)
  simp only [addressingOf, base, read.test_eq (show 24 < 32 by decide) (by decide),
    read.test_eq (show 23 < 32 by decide) (by decide),
    read.test_eq (show 21 < 32 by decide) (by decide)]

/-- The bits 8 to 11 make no difference to a register offset. -/
theorem plainOffsetOf_congr (agree : AgreeOn (~~~span 32 8 11) first second)
    (register : test first 22 = false) : plainOffsetOf first = plainOffsetOf second := by
  have also : test second 22 = false := by
    rwa [← agree.test_eq (show 22 < 32 by decide) (by decide)]
  have number : registerAt first 0 = registerAt second 0 :=
    registerAt_congr agree (by decide) (by decide)
  simp only [plainOffsetOf, register, also, Bool.false_eq_true, if_false, number]

theorem unread_plainOffsetOf (word : Word) :
    (plainOffsetOf word).unread = if test word 22 then 0 else span 32 8 11 := by
  cases form : test word 22 <;> simp only [plainOffsetOf, form, Bool.false_eq_true, if_false,
    if_true, PlainOffset.unread]

end Family

end ArmBoard
