import Mathlib.Logic.Function.Iterate
import ArmBoard.Cpu.Shifter

/-!
# Shifts place by place

A shift by any distance is the shift by one place, done over and over. One
place takes the bit that falls off for the carry, so that the carry of a longer
shift is the bit that fell off last, and a shift by no places keeps what was
there. The amounts in registers and in instructions count such places. The one
exception is the rotation through the carry, which goes round thirty-three bits.
-/
namespace ArmBoard

namespace ShiftKind

/-- One place. The bit that falls off is the new carry. -/
def step (kind : ShiftKind) (shifted : Shifted) : Shifted :=
  match kind with
  | lsl => ⟨shifted.value <<< 1, Bits.test shifted.value 31⟩
  | lsr => ⟨shifted.value >>> 1, Bits.test shifted.value 0⟩
  | asr => ⟨shifted.value.sshiftRight 1, Bits.test shifted.value 0⟩
  | ror => ⟨shifted.value.rotateRight 1, Bits.test shifted.value 0⟩

/-- How many places an encoded amount stands for; `ROR #0` stands for something else. -/
def places (kind : ShiftKind) (amount : Nat) : Nat :=
  match kind, amount with
  | lsr, 0 | asr, 0 => 32
  | _, amount => amount

/-- Any number of places at once. -/
def moved (kind : ShiftKind) (rm : Word) (distance : Nat) : Word :=
  match kind with
  | lsl => rm <<< distance
  | lsr => rm >>> distance
  | asr => rm.sshiftRight distance
  | ror => rm.rotateRight distance

/-- The place of the bit that falls off next when a word has moved by some places. -/
def departing : ShiftKind → Nat → Nat
  | lsl, count => 31 - count
  | lsr, count | asr, count | ror, count => count

section Steps

variable (kind : ShiftKind) (rm : Word) (carry : Bool)

theorem getLsbD_rotated (distance : Nat) {index : Nat} (inside : index < 32) :
    (rm.rotateRight distance).getLsbD index = rm.getLsbD ((index + distance) % 32) := by
  rw [BitVec.getLsbD_rotateRight]
  by_cases low : index < 32 - distance % 32
  · rw [decide_eq_true low, cond_true]
    congr 1
    omega
  · rw [decide_eq_false low, cond_false, decide_eq_true inside, Bool.true_and]
    congr 1
    omega

theorem moved_add (first second : Nat) :
    kind.moved rm (first + second) = kind.moved (kind.moved rm first) second := by
  cases kind with
  | lsl => exact BitVec.shiftLeft_add rm first second
  | lsr => exact BitVec.shiftRight_add rm first second
  | asr => exact BitVec.sshiftRight_add
  | ror =>
    apply BitVec.eq_of_getLsbD_eq
    intro index inside
    simp only [moved]
    rw [getLsbD_rotated rm _ inside, getLsbD_rotated _ _ inside,
      getLsbD_rotated rm _ (Nat.mod_lt _ (by decide)), Nat.mod_add_mod, Nat.add_right_comm,
      Nat.add_assoc]

theorem moved_zero : kind.moved rm 0 = rm := by
  cases kind with
  | lsl => exact BitVec.shiftLeft_zero rm
  | lsr => exact BitVec.ushiftRight_zero rm
  | asr => exact BitVec.sshiftRight_zero
  | ror =>
    apply BitVec.eq_of_getLsbD_eq
    intro index inside
    rw [moved, getLsbD_rotated rm _ inside, Nat.add_zero, Nat.mod_eq_of_lt inside]

theorem step_eq (shifted : Shifted) :
    kind.step shifted =
      ⟨kind.moved shifted.value 1, Bits.test shifted.value (kind.departing 0)⟩ := by
  cases kind <;> rfl

theorem value_iterate_step (count : Nat) :
    (kind.step^[count] ⟨rm, carry⟩).value = kind.moved rm count := by
  induction count with
  | zero => exact (kind.moved_zero rm).symm
  | succ count ih => rw [Function.iterate_succ_apply', step_eq, ih, moved_add]

/-- Within a word the bit that falls off is one that was there in the beginning. -/
theorem test_moved_departing {count : Nat} (inside : count < 32) :
    Bits.test (kind.moved rm count) (kind.departing 0) = Bits.test rm (kind.departing count) := by
  cases kind with
  | lsl =>
    have passed : ¬ 31 < count := by omega
    rw [Bits.test, moved, BitVec.getLsbD_shiftLeft, departing, decide_eq_false passed]
    exact Bool.true_and _
  | lsr => rw [Bits.test, moved, BitVec.getLsbD_ushiftRight, departing, Nat.add_zero]; rfl
  | asr =>
    rw [Bits.test, moved, BitVec.getLsbD_sshiftRight, departing, Nat.add_zero, if_pos inside]
    exact Bool.true_and _
  | ror =>
    rw [Bits.test, moved, departing, getLsbD_rotated rm _ (by decide), Nat.zero_add,
      Nat.mod_eq_of_lt inside]
    rfl

/-- After some places the carry is the bit that departed with the last of them. -/
theorem iterate_step_succ (count : Nat) :
    kind.step^[count + 1] ⟨rm, carry⟩ =
      ⟨kind.moved rm (count + 1), Bits.test (kind.moved rm count) (kind.departing 0)⟩ := by
  rw [Function.iterate_succ_apply', step_eq, value_iterate_step, moved_add]

end Steps

section Beyond

variable (rm : Word) (carry : Bool) {count : Nat}

/-- All bits have fallen off to the left or to the right. -/
theorem plain_iterate_beyond {kind : ShiftKind} (plain : kind = lsl ∨ kind = lsr)
    (beyond : 32 ≤ count) :
    kind.step^[count] ⟨rm, carry⟩ = ⟨0, count == 32 && Bits.test rm (kind.departing 31)⟩ := by
  have gone {distance : Nat} (far : 32 ≤ distance) : kind.moved rm distance = 0 := by
    rcases plain with rfl | rfl
    · exact BitVec.shiftLeft_eq_zero far
    · exact BitVec.ushiftRight_eq_zero far
  obtain ⟨last, rfl⟩ : ∃ last, count = last + 1 := ⟨count - 1, by omega⟩
  rw [iterate_step_succ, gone beyond]
  by_cases edge : last = 31
  · -- The last of the bits has only just fallen off.
    rw [edge, test_moved_departing kind rm (by decide)]
    rfl
  · have past : (last + 1 == 32) = false := beq_false_of_ne (by omega)
    rw [gone (by omega), past, Bool.false_and, Bits.test, BitVec.ofNat_eq_ofNat,
      BitVec.getLsbD_zero]

/-- Nothing is left but copies of the sign. -/
theorem asr_iterate_beyond (beyond : 32 ≤ count) :
    asr.step^[count] ⟨rm, carry⟩ = ⟨Shifted.signFill rm, Bits.test rm 31⟩ := by
  have sign {distance index : Nat} (far : 31 ≤ distance) (inside : index < 32) :
      (rm.sshiftRight distance).getLsbD index = Bits.test rm 31 := by
    rw [BitVec.getLsbD_sshiftRight, decide_eq_false (by omega), Bool.not_false, Bool.true_and]
    split
    · rw [show distance + index = 31 by omega]
      rfl
    · exact BitVec.msb_eq_getLsbD_last rm
  have filled : rm.sshiftRight count = Shifted.signFill rm := by
    apply BitVec.eq_of_getLsbD_eq
    intro index inside
    rw [Shifted.signFill, sign (by omega) inside, sign (by decide) inside]
  obtain ⟨last, rfl⟩ : ∃ last, count = last + 1 := ⟨count - 1, by omega⟩
  rw [iterate_step_succ, moved, filled, moved, Bits.test, departing, sign (by omega) (by decide)]

/-- After full rounds the word is back, and the bit that came round last is the highest one. -/
theorem ror_iterate_rounds (moves : count ≠ 0) (rounds : count % 32 = 0) :
    ror.step^[count] ⟨rm, carry⟩ = ⟨rm, Bits.test rm 31⟩ := by
  obtain ⟨last, rfl⟩ := Nat.exists_eq_add_one_of_ne_zero moves
  have back : ror.moved rm (last + 1) = rm := by
    rw [moved, ← BitVec.rotateRight_mod_eq_rotateRight, rounds]
    exact moved_zero ror rm
  rw [iterate_step_succ, back, moved, Bits.test, departing, getLsbD_rotated rm _ (by decide),
    Nat.zero_add, show last % 32 = 31 by omega]
  rfl

/-- Full rounds on the way make no difference. -/
theorem ror_iterate_mod (partly : count % 32 ≠ 0) :
    ror.step^[count] ⟨rm, carry⟩ = ror.step^[count % 32] ⟨rm, carry⟩ := by
  obtain ⟨last, rfl⟩ : ∃ last, count = last + 1 := ⟨count - 1, by omega⟩
  have round : (last + 1) % 32 = last % 32 + 1 := by omega
  rw [round, iterate_step_succ, iterate_step_succ, ← round, moved, moved, moved, moved,
    BitVec.rotateRight_mod_eq_rotateRight, BitVec.rotateRight_mod_eq_rotateRight]

end Beyond

end ShiftKind

namespace Shifted

open ShiftKind

variable (kind : ShiftKind) (rm : Word) (carry : Bool)

theorem byImmediate_succ {amount count : Nat} (counted : amount % 32 = count + 1) :
    byImmediate kind amount rm carry = kind.step^[count + 1] ⟨rm, carry⟩ := by
  have inside : count < 32 := by omega
  rw [iterate_step_succ, kind.test_moved_departing rm inside]
  unfold byImmediate
  rw [counted]
  cases kind <;> rfl

theorem byImmediate_of_pos {amount : Nat} (moves : amount ≠ 0) (inside : amount < 32) :
    byImmediate kind amount rm carry = kind.step^[amount] ⟨rm, carry⟩ := by
  obtain ⟨count, rfl⟩ := Nat.exists_eq_add_one_of_ne_zero moves
  exact byImmediate_succ kind rm carry (Nat.mod_eq_of_lt inside)

/-- A rotation by one place of the thirty-three bits that the carry and a word make up. -/
def throughCarry (rm : Word) (carry : Bool) : Shifted :=
  let wide : BitVec 33 := (BitVec.ofBool carry ++ rm).rotateRight 1
  ⟨wide.setWidth 32, Bits.test wide 32⟩

/-- Each of the thirty-three bits takes the place below it, and the lowest one the highest place. -/
theorem getLsbD_throughCarry {index : Nat} (inside : index < 33) :
    ((BitVec.ofBool carry ++ rm).rotateRight 1).getLsbD index =
      if index < 31 then rm.getLsbD (index + 1)
      else if index = 31 then carry else rm.getLsbD 0 := by
  rw [BitVec.getLsbD_rotateRight, BitVec.getLsbD_append, BitVec.getLsbD_append]
  by_cases low : index < 31
  · simp [low, show index < 32 by omega, Nat.add_comm, show ¬ 31 ≤ index by omega]
  · by_cases top : index = 31
    · simp [top]
    · obtain rfl : index = 32 := by omega
      simp

theorem byImmediate_ror_zero : byImmediate .ror 0 rm carry = throughCarry rm carry := by
  have value : (BitVec.ofBool carry).setWidth 32 <<< 31 ||| rm >>> 1 =
      ((BitVec.ofBool carry ++ rm).rotateRight 1).setWidth 32 := by
    apply BitVec.eq_of_getLsbD_eq
    intro index inside
    rw [BitVec.getLsbD_setWidth, getLsbD_throughCarry rm carry (by omega), decide_eq_true inside,
      Bool.true_and, BitVec.getLsbD_or, BitVec.getLsbD_shiftLeft, BitVec.getLsbD_ushiftRight]
    by_cases low : index < 31
    · simp [low, Nat.add_comm]
    · obtain rfl : index = 31 := by omega
      simp
  have out : Bits.test rm 0 = Bits.test ((BitVec.ofBool carry ++ rm).rotateRight 1) 32 := by
    rw [Bits.test, Bits.test, getLsbD_throughCarry rm carry (by decide)]
    rfl
  rw [throughCarry, ← value, ← out]
  rfl

/-- An encoded amount counts places, unless it asks for a rotation through the carry. -/
theorem byImmediate_eq {amount : Nat} (inside : amount < 32) :
    byImmediate kind amount rm carry =
      if kind = .ror ∧ amount = 0 then throughCarry rm carry
      else kind.step^[kind.places amount] ⟨rm, carry⟩ := by
  by_cases zero : amount = 0
  · subst zero
    cases kind with
    | lsl => rfl
    | lsr =>
      rw [if_neg (by decide), places, plain_iterate_beyond rm carry (.inr rfl) (Nat.le_refl 32)]
      rfl
    | asr =>
      rw [if_neg (by decide), places, asr_iterate_beyond rm carry (Nat.le_refl 32)]
      rfl
    | ror => exact byImmediate_ror_zero rm carry
  · have counted : kind.places amount = amount := by
      cases kind <;> simp [places, zero]
    rw [if_neg (fun rotates => zero rotates.2), counted]
    exact byImmediate_of_pos kind rm carry zero inside

/-- The low byte of a register counts places, however many they are. -/
theorem byRegister_eq (amount : Word) :
    byRegister kind amount rm carry = kind.step^[amount.toNat % 256] ⟨rm, carry⟩ := by
  have counted : Bits.field amount 0 7 = amount.toNat % 256 :=
    Bits.field_eq_shiftRight_mod amount 0 7
  unfold byRegister
  rw [counted]
  generalize amount.toNat % 256 = count
  dsimp only
  by_cases zero : count = 0
  · rw [if_pos zero, zero]
    rfl
  · -- Amounts beyond a word are told apart by kind, as the shifter does it.
    rw [if_neg zero]
    cases kind with
    | lsl =>
      dsimp only
      split
      · next inside => exact byImmediate_of_pos _ rm carry zero inside
      · next beyond => exact (plain_iterate_beyond rm carry (.inl rfl) (by omega)).symm
    | lsr =>
      dsimp only
      split
      · next inside => exact byImmediate_of_pos _ rm carry zero inside
      · next beyond => exact (plain_iterate_beyond rm carry (.inr rfl) (by omega)).symm
    | asr =>
      dsimp only
      split
      · next inside => exact byImmediate_of_pos _ rm carry zero inside
      · next beyond => exact (asr_iterate_beyond rm carry (by omega)).symm
    | ror =>
      dsimp only
      split
      · next rounds => exact (ror_iterate_rounds rm carry zero rounds).symm
      · next partly =>
        rw [ror_iterate_mod rm carry partly]
        exact byImmediate_of_pos _ rm carry partly (Nat.mod_lt _ (by decide))

/-- The rotation of an immediate is the rotation by a register that holds twice as much. -/
theorem ofImmediate_eq_byRegister {rotate : Nat} (inside : rotate < 128) :
    ofImmediate rm rotate carry = byRegister .ror (BitVec.ofNat 32 (2 * rotate)) rm carry := by
  have doubled : (BitVec.ofNat 32 (2 * rotate)).toNat % 256 = rotate * 2 := by
    rw [BitVec.toNat_ofNat]
    omega
  rw [byRegister_eq, doubled, ofImmediate]
  by_cases still : rotate = 0
  · subst still
    rw [if_pos rfl]
    exact congrArg (Shifted.mk · carry) (moved_zero .ror rm)
  · obtain ⟨last, double⟩ : ∃ last, rotate * 2 = last + 1 := ⟨rotate * 2 - 1, by omega⟩
    -- The bit that came round last is now the highest one.
    have top : Bits.test (rm.rotateRight (last + 1)) 31 = Bits.test (rm.rotateRight last) 0 := by
      rw [Bits.test, Bits.test, getLsbD_rotated rm _ (by decide), getLsbD_rotated rm _ (by decide)]
      congr 1
      omega
    rw [if_neg still, double, iterate_step_succ, top]
    rfl

/--
The shifter shifts place by place, each place by one position and with the bit that falls off for
the new carry. The low byte of a register counts the places. An encoded amount counts them as well,
except that `LSR #0` and `ASR #0` stand for thirty-two places and `ROR #0` for one place round the
thirty-three bits of word and carry. An immediate is rotated like a register, by twice its amount.
-/
theorem shifter_iterates_single_places (rm : Word) (carry : Bool) :
    (∀ (kind : ShiftKind) (amount : Word),
      byRegister kind amount rm carry = kind.step^[amount.toNat % 256] ⟨rm, carry⟩) ∧
    (∀ (kind : ShiftKind) (amount : Fin 32),
      byImmediate kind amount rm carry =
        if kind = .ror ∧ amount = 0 then throughCarry rm carry
        else kind.step^[kind.places amount] ⟨rm, carry⟩) ∧
    (∀ (base : Byte) (rotate : Fin 16),
      ofImmediate (base.setWidth 32) rotate carry =
        byRegister .ror (BitVec.ofNat 32 (2 * rotate)) (base.setWidth 32) carry) := by
  refine ⟨fun kind amount => byRegister_eq kind rm carry amount, fun kind amount => ?_,
    fun base rotate => ofImmediate_eq_byRegister _ carry (by omega)⟩
  have zero : amount = 0 ↔ amount.val = 0 := Fin.ext_iff
  rw [byImmediate_eq kind rm carry amount.isLt]
  simp only [zero]

end Shifted

end ArmBoard
