import ArmBoard.Word

/-!
# Little-endian values

A value of several bytes is stored with its lowest byte first.
-/
namespace ArmBoard.Bytes

def ofValue {w : Nat} (count : Nat) (value : BitVec w) : List Byte :=
  match count with
  | 0 => []
  | count + 1 => value.setWidth 8 :: ofValue count (value >>> 8)

theorem length_ofValue {w : Nat} (count : Nat) (value : BitVec w) :
    (ofValue count value).length = count := by
  induction count generalizing value with
  | zero => rfl
  | succ count ih => simp [ofValue, ih]

/-- The value that `count` bytes stand for, lowest first; absent bytes count as zero. -/
def toValue (count : Nat) : List Byte → BitVec (8 * count)
  | [] => 0
  | byte :: rest => byte.setWidth _ ||| (toValue count rest <<< 8)

theorem getLsbD_toValue_ofValue {w : Nat} (room count : Nat) (value : BitVec w) (index : Nat) :
    (toValue room (ofValue count value)).getLsbD index =
      (decide (index < 8 * room) && decide (index < 8 * count) && value.getLsbD index) := by
  induction count generalizing value index with
  | zero => simp [ofValue, toValue]
  | succ count ih =>
    simp only [ofValue, toValue, BitVec.getLsbD_or, BitVec.getLsbD_setWidth,
      BitVec.getLsbD_shiftLeft, ih, BitVec.getLsbD_ushiftRight]
    by_cases low : index < 8
    -- The first byte holds the lowest eight bits, the others follow shifted up by eight.
    · simp [low, show index < 8 * (count + 1) by omega]
    · have shifted : 8 + (index - 8) = index := by omega
      simp only [low, shifted, decide_false, Bool.false_and, Bool.and_false, Bool.false_or,
        Bool.not_false, Bool.and_true]
      by_cases inside : index < 8 * room
      · have : index - 8 < 8 * room := by omega
        have : (index - 8 < 8 * count) ↔ (index < 8 * (count + 1)) := by omega
        simp [*]
      · simp [inside]

/-- A value is recovered from its bytes. -/
theorem toValue_ofValue (count : Nat) (value : BitVec (8 * count)) :
    toValue count (ofValue count value) = value := by
  apply BitVec.eq_of_getLsbD_eq
  intro index bound
  rw [getLsbD_toValue_ofValue]
  simp [bound]

/-- Eight bits of the value are one of the bytes. -/
theorem getLsbD_toValue (count : Nat) (bytes : List Byte) (index : Nat) :
    (toValue count bytes).getLsbD index =
      (decide (index < 8 * count) && (bytes[index / 8]?.getD 0).getLsbD (index % 8)) := by
  induction bytes generalizing index with
  | nil => simp [toValue]
  | cons byte rest ih =>
    rw [toValue, BitVec.getLsbD_or, BitVec.getLsbD_setWidth, BitVec.getLsbD_shiftLeft, ih]
    by_cases low : index < 8
    · simp [low, Nat.div_eq_of_lt low, Nat.mod_eq_of_lt low]
    · have earlier : (index - 8) % 8 = index % 8 := by omega
      have later : index / 8 = (index - 8) / 8 + 1 := by omega
      rw [later, List.getElem?_cons_succ, earlier, BitVec.getLsbD_of_ge byte index (by omega)]
      by_cases inside : index < 8 * count
      · simp [low, inside, show index - 8 < 8 * count by omega]
      · simp [inside]

/-- Different bytes make different values. -/
theorem toValue_inj {count : Nat} {one other : List Byte} (length : one.length = count)
    (alsoLength : other.length = count) (same : toValue count one = toValue count other) :
    one = other := by
  refine List.ext_getElem (length.trans alsoLength.symm) fun position bound alsoBound => ?_
  refine BitVec.eq_of_getLsbD_eq fun index inside => ?_
  have place : (8 * position + index) / 8 = position := by omega
  have within : (8 * position + index) % 8 = index := by omega
  have below : 8 * position + index < 8 * count := by omega
  have bit : (toValue count one).getLsbD (8 * position + index) =
    (toValue count other).getLsbD (8 * position + index) := by rw [same]
  rwa [getLsbD_toValue, getLsbD_toValue, place, within, decide_eq_true below, Bool.true_and,
    Bool.true_and, List.getElem?_eq_getElem bound, List.getElem?_eq_getElem alsoBound] at bit

end ArmBoard.Bytes
