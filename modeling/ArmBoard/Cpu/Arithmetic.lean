import ArmBoard.Word

/-!
# Addition with carry and logical results

One adder serves every arithmetic operation: a difference is a sum with the
complement. The carry out of a difference is set when nothing was borrowed.
-/
namespace ArmBoard

/-- A 32-bit result with the four conditions it gives rise to. -/
structure AluResult where
  value : Word
  negative : Bool
  zero : Bool
  carry : Bool
  overflow : Bool
  deriving DecidableEq, Repr

namespace AluResult

/-- A result whose sign and zero conditions follow from its value. -/
def ofValue (value : Word) (carry overflow : Bool) : AluResult where
  value := value
  negative := Bits.test value 31
  zero := value == 0
  carry := carry
  overflow := overflow

/--
`a + b + carryIn`. The sum is formed on 64 bits, so that bit 32 is the carry. It overflows when
the operands have one sign and the result has the other.
-/
def addWithCarry (a b : Word) (carryIn : Bool) : AluResult :=
  let wide : Dword := a.setWidth 64 + b.setWidth 64 + (BitVec.ofBool carryIn).setWidth 64
  let sum : Word := wide.setWidth 32
  -- The carry is bit 32 of the wide sum.
  ofValue sum (wide > 0xFFFFFFFF) (Bits.test ((a ^^^ sum) &&& (b ^^^ sum)) 31)

/-- `a - b - 1 + carryIn`, as the sum of `a` and the complement of `b`. -/
def subWithCarry (a b : Word) (carryIn : Bool) : AluResult := addWithCarry a (~~~b) carryIn

/-- Forming the sum on 64 bits does not change its lower half. -/
theorem value_addWithCarry (a b : Word) (carryIn : Bool) :
    (addWithCarry a b carryIn).value = a + b + (BitVec.ofBool carryIn).setWidth 32 := by
  have narrower : 32 ≤ 64 := by decide
  simp only [addWithCarry, ofValue, BitVec.setWidth_add _ _ narrower,
    BitVec.setWidth_setWidth_of_le _ narrower, BitVec.setWidth_eq]

def add (a b : Word) : AluResult := addWithCarry a b false

theorem value_add (a b : Word) : (add a b).value = a + b := by
  rw [add, value_addWithCarry]
  exact BitVec.add_zero _

def sub (a b : Word) : AluResult := subWithCarry a b true

theorem value_sub (a b : Word) : (sub a b).value = a - b := by
  have one : (BitVec.ofBool true).setWidth 32 = 1#32 := rfl
  rw [sub, subWithCarry, value_addWithCarry, one, BitVec.sub_eq_add_neg, BitVec.neg_eq_not_add,
    BitVec.add_assoc]

/-- A logical result: the carry comes from the shifter and the overflow condition is kept. -/
def logical (value : Word) (carry overflow : Bool) : AluResult := ofValue value carry overflow

end AluResult

end ArmBoard
