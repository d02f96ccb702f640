import ArmBoard.Cpu.Condition
import ArmBoard.Cpu.Arithmetic

/-!
# Program status

A status word holds the four condition flags in its top bits and the mode in
its five low bits. The bits between are kept as written.
-/
namespace ArmBoard

structure Status where
  bits : Word
  deriving DecidableEq, Repr, Inhabited

namespace Status

def negativeBit : Nat := 31

def zeroBit : Nat := 30

def carryBit : Nat := 29

def overflowBit : Nat := 28

def test (status : Status) (index : Nat) : Bool := Bits.test status.bits index

def put (status : Status) (index : Nat) (on : Bool) : Status := ⟨Bits.put status.bits index on⟩

/-- A bit that was put reads back, and every other bit is as before. -/
theorem test_put (status : Status) (index other : Nat) (on : Bool) (inside : index < 32) :
    (status.put index on).test other = if index = other then on else status.test other :=
  Bits.test_put status.bits index other on inside

/-- The last result was negative. -/
def negative (status : Status) : Bool := status.test negativeBit

def zero (status : Status) : Bool := status.test zeroBit

/-- The last sum carried, or the last difference did not borrow. -/
def carry (status : Status) : Bool := status.test carryBit

/-- The last signed result did not fit. -/
def overflow (status : Status) : Bool := status.test overflowBit

/-- The mode, which selects the saved status register in use. -/
def mode (status : Status) : Word := Bits.slice status.bits 0 4

/-- Whether a condition passes; the reserved condition has no answer. -/
def passes (status : Status) : Condition → Option Bool
  | .eq => some status.zero
  | .ne => some (!status.zero)
  | .cs => some status.carry
  | .cc => some (!status.carry)
  | .mi => some status.negative
  | .pl => some (!status.negative)
  | .vs => some status.overflow
  | .vc => some (!status.overflow)
  | .hi => some (status.carry && !status.zero)
  | .ls => some (!status.carry || status.zero)
  | .ge => some (status.negative == status.overflow)
  | .lt => some (status.negative != status.overflow)
  | .gt => some (!status.zero && (status.negative == status.overflow))
  | .le => some (status.zero || (status.negative != status.overflow))
  | .al => some true
  | .nv => none

/-- Takes all four flags from a result. -/
def withFlags (status : Status) (result : AluResult) : Status :=
  (((status.put negativeBit result.negative).put zeroBit result.zero).put carryBit
    result.carry).put overflowBit result.overflow

section Flags

variable (status : Status) (result : AluResult)

@[simp]
theorem negative_withFlags : (status.withFlags result).negative = result.negative := by
  simp [negative, withFlags, test_put, negativeBit, zeroBit, carryBit, overflowBit]

@[simp]
theorem zero_withFlags : (status.withFlags result).zero = result.zero := by
  simp [zero, withFlags, test_put, zeroBit, carryBit, overflowBit]

@[simp]
theorem carry_withFlags : (status.withFlags result).carry = result.carry := by
  simp [carry, withFlags, test_put, carryBit, overflowBit]

@[simp]
theorem overflow_withFlags : (status.withFlags result).overflow = result.overflow := by
  simp [overflow, withFlags, test_put, overflowBit]

end Flags

/--
The bits that a field mask selects: bit 0 of the mask stands for the lowest byte of the status
register and bit 3 for the highest; higher bits of the mask mean nothing.
-/
def byteMask (fields : Word) : Word :=
  (List.range 4).foldl
    (fun mask index => if Bits.test fields index then mask ||| (0xFF#32 <<< (8 * index)) else mask) 0

def merge (status : Status) (fields value : Word) : Status :=
  ⟨(status.bits &&& ~~~byteMask fields) ||| (value &&& byteMask fields)⟩

end Status

end ArmBoard
