import ArmBoard.Word

/-!
# Agreement on some of the bits

Two values agree on a mask when they have the same bits wherever the mask is
set. Every way to read a field says something about agreement on the bits of
that field, so that what several fields say together can be added up.
-/
namespace ArmBoard.Bits

variable {w : Nat} {mask other first second : BitVec w} {low high index : Nat}

/-- The mask of the bits from `low` to `high`. -/
def span (w low high : Nat) : BitVec w := lowMask w (high + 1 - low) <<< low

def AgreeOn (mask first second : BitVec w) : Prop := first &&& mask = second &&& mask

theorem test_span (inside : index < w) :
    test (span w low high) index = true ↔ low ≤ index ∧ index ≤ high := by
  simp only [test, span, lowMask, BitVec.getLsbD_shiftLeft, BitVec.getLsbD_ofNat, inside,
    Nat.one_shiftLeft, Nat.testBit_two_pow_sub_one, show index - low < w by omega, decide_true,
    Bool.true_and, Bool.and_eq_true, Bool.not_eq_true', decide_eq_false_iff_not, decide_eq_true_eq]
  omega

theorem agreeOn_iff :
    AgreeOn mask first second ↔
      ∀ index < w, test mask index = true → test first index = test second index := by
  constructor
  · intro agree index bound set
    have bit := congrArg (test · index) agree
    simp only [test, BitVec.getLsbD_and] at bit set ⊢
    simpa only [set, Bool.and_true] using bit
  · intro same
    apply BitVec.eq_of_getLsbD_eq
    intro index bound
    rw [BitVec.getLsbD_and, BitVec.getLsbD_and]
    cases set : mask.getLsbD index with
    | false => simp only [Bool.and_false]
    | true =>
      rw [Bool.and_true, Bool.and_true]
      exact same index bound set

namespace AgreeOn

theorem symm (agree : AgreeOn mask first second) : AgreeOn mask second first := Eq.symm agree

theorem union (one : AgreeOn mask first second) (two : AgreeOn other first second) :
    AgreeOn (mask ||| other) first second := by
  rw [agreeOn_iff] at one two ⊢
  intro index bound set
  rw [test, BitVec.getLsbD_or, Bool.or_eq_true] at set
  rcases set with left | right
  · exact one index bound left
  · exact two index bound right

/-- Values that agree on a mask agree on each part of it. -/
theorem within (agree : AgreeOn mask first second) (part : other &&& mask = other) :
    AgreeOn other first second := by
  unfold AgreeOn at agree ⊢
  -- The part is cut out of the whole mask on both sides.
  rw [← part, BitVec.and_comm other mask, ← BitVec.and_assoc, ← BitVec.and_assoc, agree]

theorem or_iff :
    AgreeOn (mask ||| other) first second ↔
      AgreeOn mask first second ∧ AgreeOn other first second := by
  constructor
  · intro agree
    constructor
    · apply agree.within
      ext index bound
      simp +contextual
    · apply agree.within
      ext index bound
      simp +contextual
  · rintro ⟨one, two⟩
    exact one.union two

theorem part (agree : AgreeOn mask first second) (rest : BitVec w) :
    AgreeOn (mask &&& rest) first second := by
  apply agree.within
  rw [BitVec.and_comm mask rest, BitVec.and_assoc, BitVec.and_self]

theorem test_eq (agree : AgreeOn mask first second) (bound : index < w)
    (set : test mask index = true) : test first index = test second index :=
  agreeOn_iff.mp agree index bound set

end AgreeOn

/-- Values that agree everywhere are equal. -/
theorem eq_of_agreeOn_allOnes (agree : AgreeOn (BitVec.allOnes w) first second) :
    first = second := by
  unfold AgreeOn at agree
  simpa only [BitVec.and_allOnes] using agree

theorem slice_eq_iff (bound : high < w) :
    slice first low high = slice second low high ↔ AgreeOn (span w low high) first second := by
  rw [agreeOn_iff]
  constructor
  · intro same index inside set
    rw [test_span inside] at set
    have bit := congrArg (test · (index - low)) same
    simpa only [test_slice, show low + (index - low) = index by omega, set.2, decide_true,
      Bool.true_and] using bit
  · intro agree
    apply BitVec.eq_of_getLsbD_eq
    intro index _
    change test (slice first low high) index = test (slice second low high) index
    rw [test_slice, test_slice]
    by_cases inside : low + index ≤ high
    · have set : test (span w low high) (low + index) = true :=
        (test_span (by omega)).mpr ⟨by omega, inside⟩
      rw [agree (low + index) (by omega) set]
    · simp only [inside, decide_false, Bool.false_and]

theorem field_eq_iff (bound : high < w) :
    field first low high = field second low high ↔ AgreeOn (span w low high) first second := by
  rw [field, field, BitVec.toNat_inj, slice_eq_iff bound]

theorem test_eq_iff (bound : index < w) :
    test first index = test second index ↔ AgreeOn (span w index index) first second := by
  rw [agreeOn_iff]
  constructor
  · intro same place inside set
    rw [test_span inside] at set
    obtain rfl : place = index := by omega
    exact same
  · intro agree
    exact agree index bound ((test_span bound).mpr ⟨by omega, by omega⟩)

end ArmBoard.Bits
