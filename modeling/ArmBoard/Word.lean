/-!
# Words and bit fields

The machine handles values of four widths. Bits are numbered from the least
significant one, which is bit 0. A field is named by its lowest and highest
bit; the functions here read a field, change one bit and spread a sign.
-/
namespace ArmBoard

abbrev Byte := BitVec 8

abbrev Half := BitVec 16

/-- Thirty-two bits: a register, an address or an instruction. -/
abbrev Word := BitVec 32

abbrev Dword := BitVec 64

inductive Width where
  | byte
  | half
  | word
  | dword
  deriving DecidableEq, Repr

def Width.bytes : Width → Nat
  | .byte => 1
  | .half => 2
  | .word => 4
  | .dword => 8

namespace Bits

variable {w : Nat}

/-- A value whose lowest `count` bits are one and whose other bits are zero. -/
def lowMask (w count : Nat) : BitVec w := BitVec.ofNat w ((1 <<< count) - 1)

/-- The field from bit `low` to bit `high`, moved down to bit 0. It is zero when `high < low`. -/
def slice (x : BitVec w) (low high : Nat) : BitVec w :=
  (x >>> low) &&& lowMask w (high + 1 - low)

/-- The field from bit `low` to bit `high` as a number. -/
def field (x : BitVec w) (low high : Nat) : Nat := (slice x low high).toNat

def test (x : BitVec w) (index : Nat) : Bool := x.getLsbD index

def raise (x : BitVec w) (index : Nat) : BitVec w := x ||| (1#w <<< index)

def clear (x : BitVec w) (index : Nat) : BitVec w := x &&& ~~~(1#w <<< index)

def put (x : BitVec w) (index : Nat) (on : Bool) : BitVec w :=
  if on then raise x index else clear x index

/--
Reads the lowest `count` bits as a two's complement number and writes it at the full width.
The sign bit is moved to the top, from where the arithmetic shift copies it back down.
-/
def signExtend (x : BitVec w) (count : Nat) : BitVec w :=
  (x <<< (w - count)).sshiftRight (w - count)

/-- A bit that was put reads back, and every other bit is as before. -/
theorem test_put (x : BitVec w) (index other : Nat) (on : Bool) (inside : index < w) :
    test (put x index on) other = if index = other then on else test x other := by
  by_cases same : index = other
  · subst same
    cases on <;> simp [test, put, raise, clear, inside]
  · cases on
    · by_cases bound : other < w
      · simp [test, put, clear, same, bound, Nat.sub_eq_zero_iff_le]
        omega
      · simp [test, put, clear, same, BitVec.getLsbD_of_ge x other (by omega)]
    · simp [test, put, raise, same, Nat.sub_eq_zero_iff_le]
      omega

/-- A slice holds the bits from `low` to `high` and nothing else. -/
theorem test_slice (x : BitVec w) (low high index : Nat) :
    test (slice x low high) index = (decide (low + index ≤ high) && test x (low + index)) := by
  have inside : index < high + 1 - low ↔ low + index ≤ high := by omega
  by_cases bound : low + index < w
  · simp only [test, slice, lowMask, BitVec.getLsbD_and, BitVec.getLsbD_ushiftRight,
      BitVec.getLsbD_ofNat, Nat.one_shiftLeft, Nat.testBit_two_pow_sub_one, inside,
      show index < w by omega, decide_true, Bool.true_and, Bool.and_comm]
  · simp [test, slice, BitVec.getLsbD_of_ge x (low + index) (by omega)]

/-- A field is a remainder of the whole value, moved down. -/
theorem field_eq_shiftRight_mod (x : BitVec w) (low high : Nat) :
    field x low high = (x.toNat >>> low) % (1 <<< (high + 1 - low)) := by
  rw [Nat.shiftRight_eq_div_pow, Nat.one_shiftLeft]
  apply Nat.eq_of_testBit_eq
  intro index
  have bit := test_slice x low high index
  have inside : index < high + 1 - low ↔ low + index ≤ high := by omega
  rw [field, BitVec.testBit_toNat, Nat.testBit_mod_two_pow, Nat.testBit_div_two_pow,
    BitVec.testBit_toNat, Nat.add_comm index low, decide_eq_decide.mpr inside]
  exact bit

/-- A field is smaller than the number of values that its bits can take. -/
theorem field_lt (x : BitVec w) (low high : Nat) : field x low high < 1 <<< (high + 1 - low) := by
  rw [field_eq_shiftRight_mod]
  refine Nat.mod_lt _ ?_
  rw [Nat.one_shiftLeft]
  exact Nat.two_pow_pos _

/-- A field of two bits counts the upper one twice. -/
theorem field_pair (x : BitVec w) (low : Nat) :
    field x low (low + 1) = (test x low).toNat + 2 * (test x (low + 1)).toNat := by
  have bit (index : Nat) : (test x index).toNat = x.toNat / 2 ^ index % 2 := by
    rw [test, BitVec.getLsbD, Nat.toNat_testBit]
  have next : x.toNat / 2 ^ (low + 1) = x.toNat / 2 ^ low / 2 := by
    rw [Nat.pow_succ, Nat.div_div_eq_div_mul]
  have two : 1 <<< (low + 1 + 1 - low) = 4 := by
    rw [show low + 1 + 1 - low = 2 by omega]
    rfl
  rw [field_eq_shiftRight_mod, two, Nat.shiftRight_eq_div_pow, bit, bit, next]
  omega

theorem field_eq_zero_iff (x : BitVec w) (low high : Nat) :
    field x low high = 0 ↔ ∀ index, low ≤ index → index ≤ high → test x index = false := by
  have bits : field x low high = 0 ↔ ∀ index, test (slice x low high) index = false := by
    rw [field, ← BitVec.toNat_zero, BitVec.toNat_inj, BitVec.zero_iff_eq_false]
    rfl
  rw [bits]
  constructor
  · intro zero index above below
    have bit := zero (index - low)
    rw [test_slice, show low + (index - low) = index by omega] at bit
    simpa [below] using bit
  · intro zero index
    rw [test_slice]
    by_cases inside : low + index ≤ high
    · rw [zero (low + index) (by omega) inside, Bool.and_false]
    · simp [inside]

end Bits

end ArmBoard
