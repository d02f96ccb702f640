import Mathlib.Data.Int.ModEq
import ArmBoard.Word

/-!
# Bit fields as numbers

A field is a quotient and a remainder, a bit that is put is the only one that
changes, and a value whose sign is spread is the signed number that its lowest
bits stand for. None of this depends on the width: worked out in more bits and
cut back, every answer is the same, so that one unit of sixty-four bits serves
values of every width.
-/
namespace ArmBoard.Bits

variable {w v : Nat}

/-- Values are equal if all their bits are. -/
theorem eq_of_test {x y : BitVec w} (same : ∀ index < w, test x index = test y index) : x = y :=
  BitVec.eq_of_getLsbD_eq same

section Widening

variable (x : BitVec w)

/-- Cut back to the width of the value, a wider value has the bits that were there. -/
theorem test_narrowed (y : BitVec v) {index : Nat} (bound : index < w) :
    test (y.setWidth w) index = test y index := by
  simp [test, bound]

theorem test_widened (wider : w ≤ v) (index : Nat) :
    test (x.setWidth v) index = test x index := by
  by_cases bound : index < v
  · exact test_narrowed x bound
  · simp [test, BitVec.getLsbD_of_ge x index (by omega), bound]

theorem slice_widened (wider : w ≤ v) (low high : Nat) :
    (slice (x.setWidth v) low high).setWidth w = slice x low high := by
  refine eq_of_test fun index bound => ?_
  rw [test_narrowed _ bound, test_slice, test_slice, test_widened x wider]

theorem put_widened (wider : w ≤ v) {index : Nat} (inside : index < w) (on : Bool) :
    (put (x.setWidth v) index on).setWidth w = put x index on := by
  refine eq_of_test fun other bound => ?_
  rw [test_narrowed _ bound, test_put _ _ _ _ (by omega), test_put _ _ _ _ inside,
    test_widened x wider]

/-- Moving the sign to the top and back spreads it over the bits that the lowest ones leave. -/
theorem signExtend_eq {count : Nat} (nonempty : 0 < count) (inside : count ≤ w) :
    signExtend x count = (x.setWidth count).signExtend w := by
  -- The shift to the left has brought the sign of the lowest bits to the top.
  have top : (x <<< (w - count)).msb = (x.setWidth count).msb := by
    rw [BitVec.msb_eq_getLsbD_last, BitVec.msb_eq_getLsbD_last, BitVec.getLsbD_shiftLeft,
      BitVec.getLsbD_setWidth]
    simp [show w - 1 - (w - count) = count - 1 by omega, show ¬ w - 1 < w - count by omega,
      show w - 1 < w by omega, show count - 1 < count by omega]
  apply BitVec.eq_of_getLsbD_eq
  intro index bound
  rw [signExtend, BitVec.getLsbD_sshiftRight, BitVec.getLsbD_signExtend, top]
  by_cases low : index < count
  · -- A low bit is back in its place.
    have moved : w - count + index < w := by omega
    rw [if_pos moved, if_pos low, BitVec.getLsbD_shiftLeft, BitVec.getLsbD_setWidth]
    simp [bound, moved, low, show ¬ w ≤ index by omega]
  · have beyond : ¬ w - count + index < w := by omega
    rw [if_neg beyond, if_neg low]
    simp [bound]

theorem signExtend_setWidth (wider : w ≤ v) (nonempty : 0 < w) :
    signExtend (x.setWidth v) w = x.signExtend v := by
  rw [signExtend_eq _ nonempty wider, BitVec.setWidth_setWidth_of_le x wider, BitVec.setWidth_eq]

theorem signExtend_widened (wider : w ≤ v) {count : Nat} (nonempty : 0 < count)
    (inside : count ≤ w) :
    (signExtend (x.setWidth v) count).setWidth w = signExtend x count := by
  have cut : (x.setWidth v).setWidth count = x.setWidth count :=
    BitVec.setWidth_setWidth_of_le x (inside.trans wider)
  rw [signExtend_eq _ nonempty (inside.trans wider), signExtend_eq _ nonempty inside, cut]
  apply BitVec.eq_of_getLsbD_eq
  intro index bound
  rw [BitVec.getLsbD_setWidth, BitVec.getLsbD_signExtend, BitVec.getLsbD_signExtend]
  simp [bound, show index < v by omega]

end Widening

/-- A field moved down is a quotient of the value, as far as its length goes. -/
theorem toNat_slice (x : BitVec w) (low high : Nat) :
    (slice x low high).toNat = x.toNat / 2 ^ low % 2 ^ (high + 1 - low) := by
  have exactly := field_eq_shiftRight_mod x low high
  rwa [Nat.one_shiftLeft, Nat.shiftRight_eq_div_pow] at exactly

/-- The lowest bits stand for one number between the least and the greatest that they can mean. -/
theorem toInt_signExtend_eq_iff (x : BitVec w) {count : Nat} (nonempty : 0 < count)
    (inside : count ≤ w) (number : Int) :
    (signExtend x count).toInt = number ↔
      -2 ^ (count - 1) ≤ number ∧ number < 2 ^ (count - 1) ∧ number ≡ x.toNat [ZMOD 2 ^ count] := by
  have positive : 0 < 2 ^ count := Nat.two_pow_pos count
  have double : 2 ^ count = 2 * 2 ^ (count - 1) := by
    rw [← Nat.pow_succ', show (count - 1).succ = count by omega]
  have low : ((2 ^ count : Nat) : Int) / 2 = 2 ^ (count - 1) := by
    rw [double]
    push_cast
    omega
  have high : ((2 ^ count : Nat) + 1 : Int) / 2 = 2 ^ (count - 1) := by
    rw [double]
    push_cast
    omega
  have balanced : (signExtend x count).toInt = Int.bmod x.toNat (2 ^ count) := by
    rw [signExtend_eq x nonempty inside, BitVec.toInt_signExtend_of_le inside, BitVec.toInt_setWidth]
  rw [balanced, Int.bmod_eq_iff positive, low, high, Int.modEq_comm, Int.modEq_iff_dvd]
  push_cast
  rfl

/--
Whatever the width: a field is read as quotient and remainder, a bit that is put reads back and no
other bit changes, and a value with its sign spread is the only signed number of its lowest bits,
whatever the bits above them hold. Worked out in more bits, such as sixty-four, and cut back to the
width, all answers are the same.
-/
theorem bit_fields_are_exact (x : BitVec w) :
    (∀ low high, low ≤ high → high < w →
      (slice x low high).toNat = x.toNat / 2 ^ low % 2 ^ (high - low + 1)) ∧
    (∀ index < w, ∀ on, test (put x index on) index = on ∧
      ∀ other, other ≠ index → test (put x index on) other = test x other) ∧
    (∀ count, 0 < count → count ≤ w → ∀ number : Int,
      (signExtend x count).toInt = number ↔ -2 ^ (count - 1) ≤ number ∧
        number < 2 ^ (count - 1) ∧ number ≡ x.toNat [ZMOD 2 ^ count]) ∧
    (∀ wide, w ≤ wide →
      (∀ low high, slice x low high = (slice (x.setWidth wide) low high).setWidth w) ∧
      (∀ index, test x index = test (x.setWidth wide) index) ∧
      (∀ index < w, ∀ on, put x index on = (put (x.setWidth wide) index on).setWidth w) ∧
      ∀ count, 0 < count → count ≤ w →
        signExtend x count = (signExtend (x.setWidth wide) count).setWidth w) := by
  refine ⟨fun low high ordered _ => ?_, fun index inside on => ⟨?_, fun other apart => ?_⟩,
    fun count nonempty inside => toInt_signExtend_eq_iff x nonempty inside, fun wide wider => ?_⟩
  · rw [toNat_slice, show high + 1 - low = high - low + 1 by omega]
  · rw [test_put x index index on inside, if_pos rfl]
  · rw [test_put x index other on inside, if_neg apart.symm]
  · exact ⟨fun low high => (slice_widened x wider low high).symm,
      fun index => (test_widened x wider index).symm,
      fun index inside on => (put_widened x wider inside on).symm,
      fun count nonempty inside => (signExtend_widened x wider nonempty inside).symm⟩

/-- The whole of a double word, the top bit of a byte, and four bits with others above them. -/
theorem four_bits_stand_for_minus_seven :
    (slice (0xFEDCBA9876543210 : Dword) 0 63).toNat = 0xFEDCBA9876543210 ∧
    test (put (0x7F : Byte) 7 true) 7 = true ∧ test (put (0x7F : Byte) 7 true) 0 = true ∧
    (signExtend (0xAB69 : Half) 4).toInt = -7 ∧
    slice (0xB4 : Byte) 4 7 = (slice ((0xB4 : Byte).setWidth 64) 4 7).setWidth 8 := by
  obtain ⟨whole, _⟩ := bit_fields_are_exact (0xFEDCBA9876543210 : Dword)
  obtain ⟨_, top, _⟩ := bit_fields_are_exact (0x7F : Byte)
  obtain ⟨_, _, signed, _⟩ := bit_fields_are_exact (0xAB69 : Half)
  obtain ⟨_, _, _, wide⟩ := bit_fields_are_exact (0xB4 : Byte)
  obtain ⟨reads, others⟩ := top 7 (by decide) true
  refine ⟨?_, reads, ?_, ?_, (wide 64 (by decide)).1 4 7⟩
  · rw [whole 0 63 (by decide) (by decide)]
    rfl
  · rw [others 0 (by decide)]
    rfl
  · exact (signed 4 (by decide) (by decide) (-7)).mpr ⟨by decide, by decide, by decide⟩

end ArmBoard.Bits
