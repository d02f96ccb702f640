import ArmBoard.Proofs.Assembly.Mnemonic
import ArmBoard.Proofs.Decoding.Bounds

/-!
# Reading operands

An operand is printed as what it stands for: an immediate as its value, an
address without the update that goes without saying. `shown` keeps of an operand
what its text tells, so that equal texts are those of operands that show the
same.
-/
namespace ArmBoard

open Text

section Immediates

theorem toNat_eq_of_digits {w : Nat} {one other : BitVec w}
    (same : Nat.toDigits 10 one.toNat = Nat.toDigits 10 other.toNat) : one = other :=
  BitVec.toNat_inj.mp (digits_inj.mp same)

theorem toList_immediateText (base : Word) (rotate : Nat) :
    (immediateText base rotate).toList =
      '#' :: Nat.toDigits 10 (base.rotateRight (rotate * 2)).toNat := by
  simp [immediateText, -BitVec.toNat_rotateRight]

/-- The value of an immediate, without the way it was encoded. -/
def StatusSource.shown : StatusSource → StatusSource
  | immediate base rotate => immediate (base.rotateRight (rotate * 2)) 0
  | source => source

theorem StatusSource.shown_eq {one other : StatusSource} (same : one.text = other.text) :
    one.shown = other.shown := by
  have letters := congrArg String.toList same
  cases one <;> cases other
  case immediate.immediate =>
    simp only [text, toList_immediateText, List.cons.injEq, true_and] at letters
    rw [shown, shown, toNat_eq_of_digits letters]
  case register.register => simpa [text, shown] using letters
  all_goals simp [text, toList_immediateText] at letters

end Immediates

section Shifts

theorem ShiftKind.name_append_inj {kind other : ShiftKind} {rest also : List Char}
    (same : kind.name.toList ++ rest = other.name.toList ++ also) :
    kind = other ∧ rest = also := by
  cases kind <;> cases other <;> simp_all [ShiftKind.name]

namespace ShiftAmount

/-- The amount as it is printed, where zero stands for thirty-two. -/
def spelled : ShiftAmount → ShiftAmount
  | immediate 0 => immediate 32
  | amount => amount

variable {amount other : ShiftAmount}

theorem text_inj (same : amount.text = other.text) : amount = other := by
  have letters := congrArg String.toList same
  cases amount <;> cases other
  case immediate.immediate => simpa [text] using letters
  case register.register => simpa [text] using letters
  all_goals simp [text] at letters

theorem spelled_inj (near : amount ≠ immediate 32) (alsoNear : other ≠ immediate 32)
    (same : amount.spelled = other.spelled) : amount = other := by
  unfold spelled at same
  split at same <;> split at same
  · rfl
  · exact absurd same.symm alsoNear
  · exact absurd same near
  · exact same

end ShiftAmount

/-- What is printed behind the register of an operand. -/
def shiftText : ShiftAmount → ShiftKind → List Char
  | .immediate 0, .lsl => []
  | .immediate 0, .ror => [',', ' ', 'R', 'R', 'X']
  | amount, kind => ',' :: ' ' :: (kind.name.toList ++ ' ' :: amount.spelled.text.toList)

theorem stops_shiftText (amount : ShiftAmount) (kind : ShiftKind) :
    Stops (shiftText amount kind) := by
  unfold shiftText
  split <;> simp

theorem shiftText_inj {amount other : ShiftAmount} {kind also : ShiftKind}
    (near : amount ≠ .immediate 32) (alsoNear : other ≠ .immediate 32)
    (same : shiftText amount kind = shiftText other also) : amount = other ∧ kind = also := by
  -- The rotation through the carry has a name that no other shift begins with.
  have named (kind : ShiftKind) (rest : List Char) :
      kind.name.toList ++ rest ≠ 'R' :: 'R' :: 'X' :: [] := by
    cases kind <;> simp [ShiftKind.name]
  unfold shiftText at same
  -- Nothing, the rotation through the carry, and a kind with its amount are three forms.
  split at same
  case h_1 =>
    split at same
    · exact ⟨rfl, rfl⟩
    all_goals cases same
  case h_2 =>
    split at same
    case h_1 => cases same
    case h_2 => exact ⟨rfl, rfl⟩
    case h_3 => simp [(named _ _).symm] at same
  case h_3 =>
    split at same
    case h_1 => cases same
    case h_2 => simp [named] at same
    case h_3 =>
      simp only [List.cons.injEq, true_and] at same
      obtain ⟨kinds, amounts⟩ := ShiftKind.name_append_inj same
      simp only [List.cons.injEq, true_and] at amounts
      have spelled := ShiftAmount.text_inj (String.toList_inj.mp amounts)
      exact ⟨ShiftAmount.spelled_inj near alsoNear spelled, kinds⟩

theorem toList_text_register (amount : ShiftAmount) (kind : ShiftKind) (number : Nat) :
    (Operand.register amount kind number).text.toList =
      'R' :: (Nat.toDigits 10 number ++ shiftText amount kind) := by
  have full : Nat.toDigits 10 32 = ['3', '2'] := rfl
  rcases amount with (_ | amount) | register <;> cases kind <;>
    simp [Operand.text, shiftText, ShiftAmount.spelled, ShiftAmount.text, full]

theorem toList_text_immediate (base : Word) (rotate : Nat) :
    (Operand.immediate base rotate).text.toList =
      '#' :: Nat.toDigits 10 (base.rotateRight (rotate * 2)).toNat :=
  toList_immediateText base rotate

namespace Operand

/-- The value of an immediate, without the way it was encoded. -/
def shown : Operand → Operand
  | immediate base rotate => immediate (base.rotateRight (rotate * 2)) 0
  | operand => operand

/-- No decoded distance is taken for the one that zero stands for. -/
theorem amount_ne {amount : ShiftAmount} {kind : ShiftKind} {number : Nat}
    (near : ∀ distance ∈ (register amount kind number).distances, distance < 32) :
    amount ≠ .immediate 32 := by
  rintro rfl
  simp [distances] at near

theorem shown_eq {one other : Operand} (near : ∀ distance ∈ one.distances, distance < 32)
    (alsoNear : ∀ distance ∈ other.distances, distance < 32) (same : one.text = other.text) :
    one.shown = other.shown := by
  have letters := congrArg String.toList same
  cases one <;> cases other
  case immediate.immediate =>
    simp only [toList_text_immediate, List.cons.injEq, true_and] at letters
    rw [shown, shown, toNat_eq_of_digits letters]
  case register.register amount kind number other also next =>
    have read : number = next ∧ shiftText amount kind = shiftText other also := by
      simpa [toList_text_register, stops_shiftText] using letters
    obtain ⟨rfl, shifts⟩ := read
    obtain ⟨rfl, rfl⟩ := shiftText_inj (amount_ne near) (amount_ne alsoNear) shifts
    rfl
  all_goals simp [toList_text_register, toList_text_immediate] at letters

end Operand

end Shifts

section Distances

variable {rest also : List Char}

/-- The text ends, or goes on with the bracket that closes an address. -/
def Closes (rest : List Char) : Prop := ∀ letter ∈ rest.head?, letter = ']'

@[simp] theorem closes_nil : Closes [] := by simp [Closes]

@[simp] theorem closes_cons {letter : Char} : Closes (letter :: rest) ↔ letter = ']' := by
  simp [Closes]

theorem Closes.stops (closes : Closes rest) : Stops rest := by
  intro letter member
  rw [closes letter member]
  rfl

/-- A way to print distances that can be read up to the end or the bracket behind it. -/
structure Legible {offset : Type} (print : offset → String) : Prop where
  read : ∀ {one other : offset} {rest also : List Char}, Closes rest → Closes also →
    (print one).toList ++ rest = (print other).toList ++ also → one = other ∧ rest = also
  /-- A sign in front of a distance is not taken for part of it. -/
  unsigned : ∀ (one : offset) (rest also : List Char), (print one).toList ++ rest ≠ '-' :: also

theorem PlainOffset.legible : Legible PlainOffset.text where
  read := by
    intro one other rest also closes alsoCloses same
    cases one <;> cases other
    case immediate.immediate offset next =>
      have read : offset = next ∧ rest = also := by
        simpa [text, closes.stops, alsoCloses.stops, BitVec.toNat_inj] using same
      exact ⟨congrArg immediate read.1, read.2⟩
    case register.register => simpa [text, closes.stops, alsoCloses.stops] using same
    all_goals simp [text] at same
  unsigned one := by
    cases one <;> simp [text]

/-- What is printed behind the register of a shifted offset. -/
def offsetShiftText : Nat → ShiftKind → List Char
  | 0, .lsl => []
  | amount, kind => ',' :: ' ' :: (kind.name.toList ++ ' ' :: '#' :: Nat.toDigits 10 amount)

theorem stops_offsetShiftText (amount : Nat) (kind : ShiftKind) (closes : Closes rest) :
    Stops (offsetShiftText amount kind ++ rest) := by
  unfold offsetShiftText
  split
  · exact closes.stops
  · simp

theorem offsetShiftText_append_inj {amount other : Nat} {kind next : ShiftKind}
    (closes : Closes rest) (alsoCloses : Closes also)
    (same : offsetShiftText amount kind ++ rest = offsetShiftText other next ++ also) :
    amount = other ∧ kind = next ∧ rest = also := by
  unfold offsetShiftText at same
  split at same <;> split at same
  · exact ⟨rfl, rfl, same⟩
  · -- A comma does not close an address.
    have comma : rest = ',' :: _ := same
    simp [comma] at closes
  · have comma : also = ',' :: _ := same.symm
    simp [comma] at alsoCloses
  · simp only [List.cons_append, List.append_assoc, List.cons.injEq, true_and] at same
    obtain ⟨rfl, amounts⟩ := ShiftKind.name_append_inj same
    have read : amount = other ∧ rest = also := by
      simpa [closes.stops, alsoCloses.stops] using amounts
    exact ⟨read.1, rfl, read.2⟩

theorem toList_text_shiftedRegister (amount : Nat) (kind : ShiftKind) (number : Nat) :
    (ShiftedOffset.register amount kind number).text.toList =
      'R' :: (Nat.toDigits 10 number ++ offsetShiftText amount kind) := by
  rcases amount with _ | amount <;> cases kind <;> simp [ShiftedOffset.text, offsetShiftText]

theorem toList_text_shiftedImmediate (offset : Word) :
    (ShiftedOffset.immediate offset).text.toList = '#' :: Nat.toDigits 10 offset.toNat := by
  simp [ShiftedOffset.text]

theorem ShiftedOffset.legible : Legible ShiftedOffset.text where
  read := by
    intro one other rest also closes alsoCloses same
    cases one <;> cases other
    case immediate.immediate offset next =>
      have read : offset = next ∧ rest = also := by
        simpa [toList_text_shiftedImmediate, closes.stops, alsoCloses.stops,
          BitVec.toNat_inj] using same
      exact ⟨congrArg immediate read.1, read.2⟩
    case register.register amount kind number other next base =>
      have read : number = base ∧
          offsetShiftText amount kind ++ rest = offsetShiftText other next ++ also := by
        simpa [toList_text_shiftedRegister, stops_offsetShiftText, closes, alsoCloses] using same
      obtain ⟨rfl, shifts⟩ := read
      obtain ⟨rfl, rfl, rfl⟩ := offsetShiftText_append_inj closes alsoCloses shifts
      exact ⟨rfl, rfl⟩
    all_goals simp [toList_text_shiftedRegister, toList_text_shiftedImmediate] at same
  unsigned one := by
    cases one <;> simp [toList_text_shiftedRegister, toList_text_shiftedImmediate]

end Distances

section Addresses

variable {offset : Type} {print : offset → String} {rest also : List Char}

/-- The address with the update of its base, be it asked for or not. -/
def Addressing.shown (addressing : Addressing offset) : Addressing offset :=
  { addressing with writeBack := addressing.updatesBase }

theorem Legible.signed_append_inj (legible : Legible print) {sign other : Offsetting}
    {one next : offset} (closes : Closes rest) (alsoCloses : Closes also)
    (same : sign.sign.toList ++ ((print one).toList ++ rest) =
      other.sign.toList ++ ((print next).toList ++ also)) :
    sign = other ∧ one = next ∧ rest = also := by
  have minus : Offsetting.down.sign.toList = ['-'] := rfl
  have nothing : Offsetting.up.sign.toList = [] := rfl
  cases sign <;> cases other <;> simp only [minus, nothing, List.nil_append, List.cons_append,
    List.cons.injEq, true_and] at same
  case down.down => exact ⟨rfl, legible.read closes alsoCloses same⟩
  case up.up => exact ⟨rfl, legible.read closes alsoCloses same⟩
  case down.up => exact absurd same.symm (legible.unsigned _ _ _)
  case up.down => exact absurd same (legible.unsigned _ _ _)

theorem Addressing.shown_eq (legible : Legible print) {one other : Addressing offset}
    (same : (one.text (print one.offset)).toList = (other.text (print other.offset)).toList) :
    one.shown = other.shown := by
  obtain ⟨base, distance, indexing, sign, writeBack⟩ := one
  obtain ⟨next, further, also, other, update⟩ := other
  -- The bracket behind the base or behind the distance tells the indexing.
  cases indexing <;> cases also
  case post.post =>
    have read : base = next ∧ sign.sign.toList ++ ((print distance).toList ++ []) =
        other.sign.toList ++ ((print further).toList ++ []) := by
      simpa [text] using same
    obtain ⟨rfl, signed⟩ := read
    obtain ⟨rfl, rfl, _⟩ := legible.signed_append_inj closes_nil closes_nil signed
    simp [shown, updatesBase]
  case pre.pre =>
    have read : base = next ∧ sign.sign.toList ++
          ((print distance).toList ++ ']' :: (writeBackText writeBack).toList) =
        other.sign.toList ++ ((print further).toList ++ ']' :: (writeBackText update).toList) := by
      simpa [text] using same
    obtain ⟨rfl, signed⟩ := read
    obtain ⟨rfl, rfl, marks⟩ := legible.signed_append_inj (by simp) (by simp) signed
    have equal : writeBack = update := by
      cases writeBack <;> cases update <;> simp [writeBackText] at marks ⊢
    rw [equal]
  all_goals simp [text] at same

end Addresses

end ArmBoard
