import ArmBoard.Execution.Execute
import ArmBoard.Proofs.Decoding.Bounds

/-!
# Shifts by less than the width

A processor has no answer to a shift of a word by thirty-two places or more.
The guarded shifter has none either, nor to a question about a bit beyond the
word. Where it answers, it answers like the plain one, and it always answers
within an instruction that is within bounds.
-/
namespace ArmBoard

/-- A shift or rotation by fewer places than a word has. -/
def ShiftKind.move? (kind : ShiftKind) (rm : Word) (distance : Nat) : Option Word :=
  if distance < 32 then
    some (match kind with
      | .lsl => rm <<< distance
      | .lsr => rm >>> distance
      | .asr => rm.sshiftRight distance
      | .ror => rm.rotateRight distance)
  else none

/-- A bit that a word has. -/
def Bits.test? (rm : Word) (index : Nat) : Option Bool :=
  if index < 32 then some (Bits.test rm index) else none

namespace Shifted

/-- A shifted value and a carry, if there are both. -/
def of? (value? : Option Word) (carry? : Option Bool) : Option Shifted := do
  let value ← value?
  let carry ← carry?
  return ⟨value, carry⟩

/-- The rotation of an immediate. -/
def ofImmediate? (base : Word) (rotate : Nat) (carry : Bool) : Option Shifted :=
  let value? := ShiftKind.ror.move? base (rotate * 2)
  of? value? (if rotate = 0 then some carry else value?.bind (Bits.test? · 31))

/-- The shift by an encoded amount. -/
def byImmediate? (kind : ShiftKind) (amount : Nat) (rm : Word) (carry : Bool) : Option Shifted :=
  match kind, amount % 32 with
  | .lsl, 0 => some ⟨rm, carry⟩
  | .lsl, n + 1 => of? (ShiftKind.lsl.move? rm (n + 1)) (Bits.test? rm (31 - n))
  | .lsr, 0 => of? (some 0) (Bits.test? rm 31)
  | .lsr, n + 1 => of? (ShiftKind.lsr.move? rm (n + 1)) (Bits.test? rm n)
  | .asr, 0 => of? (ShiftKind.asr.move? rm 31) (Bits.test? rm 31)
  | .asr, n + 1 => of? (ShiftKind.asr.move? rm (n + 1)) (Bits.test? rm n)
  | .ror, 0 => do
      let high ← ShiftKind.lsl.move? ((BitVec.ofBool carry).setWidth 32) 31
      let low ← ShiftKind.lsr.move? rm 1
      of? (some (high ||| low)) (Bits.test? rm 0)
  | .ror, n + 1 => of? (ShiftKind.ror.move? rm (n + 1)) (Bits.test? rm n)

/-- The shift by the low byte of a register. -/
def byRegister? (kind : ShiftKind) (amount : Word) (rm : Word) (carry : Bool) : Option Shifted :=
  let count := Bits.field amount 0 7
  if count = 0 then some ⟨rm, carry⟩
  else
    match kind with
    | .lsl =>
        if count < 32 then byImmediate? .lsl count rm carry
        else of? (some 0) (if count = 32 then Bits.test? rm 0 else some false)
    | .lsr =>
        if count < 32 then byImmediate? .lsr count rm carry
        else of? (some 0) (if count = 32 then Bits.test? rm 31 else some false)
    | .asr =>
        if count < 32 then byImmediate? .asr count rm carry
        else of? (ShiftKind.asr.move? rm 31) (Bits.test? rm 31)
    | .ror =>
        if count % 32 = 0 then of? (some rm) (Bits.test? rm 31)
        else byImmediate? .ror (count % 32) rm carry

theorem ofImmediate?_of_lt (base : Word) {rotate : Nat} (carry : Bool) (bound : 2 * rotate < 32) :
    ofImmediate? base rotate carry = some (ofImmediate base rotate carry) := by
  have inside : rotate * 2 < 32 := by omega
  by_cases still : rotate = 0
  · simp [ofImmediate?, ofImmediate, ShiftKind.move?, of?, still]
  · simp [ofImmediate?, ofImmediate, ShiftKind.move?, of?, Bits.test?, still, inside]

/-- Whatever amount is asked for, the plain shifter moves by less than the width. -/
theorem byImmediate?_eq (kind : ShiftKind) (amount : Nat) (rm : Word) (carry : Bool) :
    byImmediate? kind amount rm carry = some (byImmediate kind amount rm carry) := by
  have bound : amount % 32 < 32 := Nat.mod_lt _ (by decide)
  unfold byImmediate? byImmediate
  cases count : amount % 32 with
  | zero => cases kind <;> rfl
  | succ n =>
    -- Distance and carry bit are both counted from the reduced amount.
    have inside : n + 1 < 32 := by omega
    have last : n < 32 := by omega
    have first : 31 - n < 32 := by omega
    cases kind <;> simp [ShiftKind.move?, Bits.test?, of?, inside, last, first]

theorem byRegister?_eq (kind : ShiftKind) (amount rm : Word) (carry : Bool) :
    byRegister? kind amount rm carry = some (byRegister kind amount rm carry) := by
  unfold byRegister? byRegister
  dsimp only
  split
  · rfl
  · cases kind with
    | lsl | lsr =>
      dsimp only
      split
      · exact byImmediate?_eq _ _ rm carry
      · by_cases exact32 : Bits.field amount 0 7 = 32
        · simp [of?, Bits.test?, exact32]
        · simp [of?, exact32]
    | asr =>
      dsimp only
      split
      · exact byImmediate?_eq _ _ rm carry
      · rfl
    | ror =>
      dsimp only
      split
      · rfl
      · exact byImmediate?_eq _ _ rm carry

end Shifted

namespace Core

open ArmBoard.Action

/-- Stops where the guarded shifter has no answer. -/
def answered {α : Type} : Option α → Action Core α
  | some value => pure value
  | none => Action.fail (.misuse (.other "shift by the width or more"))

/-- The second operand, computed with the guarded shifter. -/
def guardedOperand : Operand → Action Core Shifted
  | .immediate base rotate => do
      let status ← status
      answered (Shifted.ofImmediate? base rotate status.carry)
  | .register (.immediate amount) kind number => do
      let status ← status
      let value ← readOperand number false
      answered (Shifted.byImmediate? kind amount value status.carry)
  | .register (.register amountNumber) kind number => do
      let status ← status
      let amount ← readRegister amountNumber
      let value ← readOperand number true
      answered (Shifted.byRegister? kind amount value status.carry)

/-- The distance of a word or byte transfer, computed with the guarded shifter. -/
def guardedDistance : ShiftedOffset → Action Core Word
  | .immediate offset => pure offset
  | .register amount kind number => do
      let value ← readRegister number
      let status ← status
      let shifted ← answered (Shifted.byImmediate? kind amount value status.carry)
      return shifted.value

/-- What is moved to a status register, computed with the guarded shifter. -/
def guardedSource : StatusSource → Action Core Word
  | .immediate base rotate => answered (ShiftKind.ror.move? base (rotate * 2))
  | .register number => readRegister number

theorem guardedOperand_eq {operand : Operand}
    (bound : ∀ distance ∈ operand.distances, distance < 32) :
    guardedOperand operand = shiftedOperand operand := by
  cases operand with
  | immediate base rotate =>
    have inside := bound (2 * rotate) (by simp [Operand.distances])
    simp only [guardedOperand, Shifted.ofImmediate?_of_lt base _ inside]
    rfl
  | register amount kind number =>
    cases amount with
    | immediate amount =>
      simp only [guardedOperand, Shifted.byImmediate?_eq]
      rfl
    | register amount =>
      simp only [guardedOperand, Shifted.byRegister?_eq]
      rfl

theorem guardedDistance_eq (offset : ShiftedOffset) :
    guardedDistance offset = shiftedDistance offset := by
  cases offset with
  | immediate offset => rfl
  | register amount kind number =>
    simp only [guardedDistance, Shifted.byImmediate?_eq]
    rfl

/-- An instruction performed with the guarded shifter. -/
def performGuarded (raw : Word) : Instruction → Action Core Unit
  | .dataProcessing op setFlags rn rd operand => do
      let first ← readOperand rn operand.shiftsByRegister
      let second ← guardedOperand operand
      operate op setFlags rd first second
  | .statusWrite kind source fields => do
      let value ← guardedSource source
      mergeStatus kind fields value
  | .singleTransfer direction quantity rd addressing => do
      let (address, newBase) ← resolve addressing (guardedDistance addressing.offset)
      moveSingle direction quantity rd addressing address newBase
  | instruction => performInstruction raw instruction

/-- Within bounds the guard makes no difference, so no shift reaches the width. -/
theorem performGuarded_eq {instruction : Instruction} (bounds : instruction.WithinBounds)
    (raw : Word) : performGuarded raw instruction = performInstruction raw instruction := by
  have distances := bounds.distances_lt
  cases instruction with
  | dataProcessing op setFlags rn rd operand =>
    simp only [performGuarded, guardedOperand_eq distances]
    rfl
  | statusWrite kind source fields =>
    have same : guardedSource source = statusValue source := by
      cases source with
      | immediate base rotate =>
        have inside : rotate * 2 < 32 := by
          have bound := distances (2 * rotate) (by simp [Instruction.distances])
          omega
        simp only [guardedSource, ShiftKind.move?, inside, if_true]
        rfl
      | register number => rfl
    simp only [performGuarded, same]
    rfl
  | singleTransfer direction quantity rd addressing =>
    simp only [performGuarded, guardedDistance_eq]
    rfl
  | _ => rfl

end Core

end ArmBoard
