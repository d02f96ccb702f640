import ArmBoard.Word

/-!
# The barrel shifter

The second operand of most instructions is shifted before use. The shifter
returns the shifted value and the last bit shifted out. The amount is either
encoded in the instruction, where zero has meanings of its own, or taken from
the low byte of a register, where zero means no shift.
-/
namespace ArmBoard

/-- The four shifts. -/
inductive ShiftKind where
  /-- Left, filling with zeros. -/
  | lsl
  /-- Right, filling with zeros. -/
  | lsr
  /-- Right, filling with the sign. -/
  | asr
  /-- Right, filling with the bits shifted out. -/
  | ror
  deriving DecidableEq, Repr

/-- The shift of a code; only the low two bits of `code` count. -/
def ShiftKind.ofCode (code : Nat) : ShiftKind :=
  match code % 4 with
  | 0 => lsl
  | 1 => lsr
  | 2 => asr
  | _ => ror

def ShiftKind.name : ShiftKind → String
  | lsl => "LSL"
  | lsr => "LSR"
  | asr => "ASR"
  | ror => "ROR"

structure Shifted where
  value : Word
  carry : Bool
  deriving DecidableEq, Repr

namespace Shifted

/-- Thirty-two copies of the sign bit. -/
def signFill (rm : Word) : Word := rm.sshiftRight 31

/-- `base` rotated right by twice `rotate`. Without a rotation the carry is kept. -/
def ofImmediate (base : Word) (rotate : Nat) (carry : Bool) : Shifted :=
  let value := base.rotateRight (rotate * 2)
  ⟨value, if rotate = 0 then carry else Bits.test value 31⟩

/--
A shift by an amount encoded in the instruction, of which only five bits count. An amount of zero
is special: `LSL #0` is a plain move, `LSR #0` and `ASR #0` shift by 32, and `ROR #0` rotates by
one through the carry.
-/
def byImmediate (kind : ShiftKind) (amount : Nat) (rm : Word) (carry : Bool) : Shifted :=
  match kind, amount % 32 with
  | .lsl, 0 => ⟨rm, carry⟩
  | .lsl, n + 1 => ⟨rm <<< (n + 1), Bits.test rm (31 - n)⟩
  | .lsr, 0 => ⟨0, Bits.test rm 31⟩
  | .lsr, n + 1 => ⟨rm >>> (n + 1), Bits.test rm n⟩
  | .asr, 0 => ⟨signFill rm, Bits.test rm 31⟩
  | .asr, n + 1 => ⟨rm.sshiftRight (n + 1), Bits.test rm n⟩
  | .ror, 0 => ⟨((BitVec.ofBool carry).setWidth 32 <<< 31) ||| (rm >>> 1), Bits.test rm 0⟩
  | .ror, n + 1 => ⟨rm.rotateRight (n + 1), Bits.test rm n⟩

/--
A shift by the low byte of a register. An amount of zero keeps value and carry. The three plain
shifts run out after 32 positions; a rotation goes round.
-/
def byRegister (kind : ShiftKind) (amount : Word) (rm : Word) (carry : Bool) : Shifted :=
  let count := Bits.field amount 0 7
  if count = 0 then ⟨rm, carry⟩
  else
    match kind with
    | .lsl =>
        if count < 32 then byImmediate .lsl count rm carry
        else ⟨0, count == 32 && Bits.test rm 0⟩
    | .lsr =>
        if count < 32 then byImmediate .lsr count rm carry
        else ⟨0, count == 32 && Bits.test rm 31⟩
    | .asr =>
        if count < 32 then byImmediate .asr count rm carry
        else ⟨signFill rm, Bits.test rm 31⟩
    | .ror =>
        if count % 32 = 0 then ⟨rm, Bits.test rm 31⟩
        else byImmediate .ror (count % 32) rm carry

end Shifted

end ArmBoard
