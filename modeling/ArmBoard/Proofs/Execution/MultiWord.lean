import Mathlib.Tactic.LinearCombination
import Mathlib.Tactic.Zify
import ArmBoard.Execution.Arithmetic

/-!
# Numbers of several words

A number wider than a register is kept in several words, the lowest one first.
Sums and differences are formed word by word, and the carry of each result goes
into the next. The carry and the overflow of the last result are then those of
the whole, read as an unsigned or as a two's complement number. A program keeps
the carry in the status from one instruction to the next.
-/
namespace ArmBoard

/-- The number that words stand for, the lowest one first. -/
def unsignedOf : List Word → Nat
  | [] => 0
  | word :: rest => word.toNat + 2 ^ 32 * unsignedOf rest

/-- The bits of the words read as one two's complement number. -/
def signedOf (words : List Word) : Int := (unsignedOf words : Int).bmod (2 ^ (32 * words.length))

/-- The numbers that have a two's complement form of so many words. -/
def FitsSigned (count : Nat) (number : Int) : Prop :=
  -2 ^ (32 * count - 1) ≤ number ∧ number < 2 ^ (32 * count - 1)

instance (count : Nat) (number : Int) : Decidable (FitsSigned count number) :=
  inferInstanceAs (Decidable (_ ∧ _))

section Numbers

variable {words : List Word}

theorem two_pow_words {count : Nat} (positive : 0 < count) :
    2 ^ (32 * count) = 2 * 2 ^ (32 * count - 1) := by
  rw [← Nat.pow_succ', Nat.succ_eq_add_one, Nat.sub_add_cancel (by omega)]

theorem fitsSigned_signedOf (nonempty : words ≠ []) : FitsSigned words.length (signedOf words) := by
  have range := two_pow_words (List.length_pos_iff.mpr nonempty)
  have above := Int.le_bmod (x := unsignedOf words) (Nat.two_pow_pos (32 * words.length))
  have below := Int.bmod_lt (x := unsignedOf words) (Nat.two_pow_pos (32 * words.length))
  rw [FitsSigned, signedOf]
  norm_cast at *
  omega

/-- Numbers that differ by full rounds have one two's complement form, and one of them fits. -/
theorem signedOf_eq (nonempty : words ≠ []) {number : Int} (fits : FitsSigned words.length number)
    (rounds : Int) (same : unsignedOf words = number + (2 ^ (32 * words.length) : Nat) * rounds) :
    signedOf words = number := by
  have range := two_pow_words (List.length_pos_iff.mpr nonempty)
  rw [signedOf, same, Int.add_mul_bmod_self_left]
  obtain ⟨above, below⟩ := fits
  apply Int.bmod_eq_of_le_mul_two <;> norm_cast at * <;> omega

/-- The lowest word has no share in whether a number fits. -/
theorem fitsSigned_succ {count : Nat} (positive : 0 < count) (word : Word) (number : Int) :
    FitsSigned (count + 1) (word.toNat + 2 ^ 32 * number) ↔ FitsSigned count number := by
  have bound := word.isLt
  have wider : (2 : Int) ^ (32 * (count + 1) - 1) = 2 ^ 32 * 2 ^ (32 * count - 1) := by
    rw [← pow_add]
    congr 1
    omega
  rw [FitsSigned, FitsSigned, wider]
  generalize (2 : Int) ^ (32 * count - 1) = half
  omega

theorem signedOf_cons (word : Word) (nonempty : words ≠ []) :
    signedOf (word :: words) = word.toNat + 2 ^ 32 * signedOf words := by
  have fits := (fitsSigned_succ (List.length_pos_iff.mpr nonempty) word _).mpr
    (fitsSigned_signedOf nonempty)
  refine signedOf_eq (List.cons_ne_nil _ _) fits
    ((unsignedOf words : Int).bdiv (2 ^ (32 * words.length))) ?_
  have rounds := Int.bmod_add_bdiv (unsignedOf words) (2 ^ (32 * words.length))
  rw [List.length_cons, Nat.mul_succ, Nat.pow_add, unsignedOf, signedOf]
  push_cast at *
  linear_combination (2 ^ 32) * -rounds

theorem signedOf_singleton (word : Word) : signedOf [word] = word.toInt := by
  rw [BitVec.toInt_eq_toNat_bmod]
  rfl

theorem unsignedOf_lt (words : List Word) : unsignedOf words < 2 ^ (32 * words.length) := by
  induction words with
  | nil => simp [unsignedOf]
  | cons word rest ih =>
    have bound := word.isLt
    rw [unsignedOf, List.length_cons, Nat.mul_succ, Nat.pow_add]
    omega

theorem unsignedOf_complement (words : List Word) :
    unsignedOf (words.map (~~~·)) + unsignedOf words + 1 = 2 ^ (32 * words.length) := by
  induction words with
  | nil => rfl
  | cons word rest ih =>
    have bound := word.isLt
    rw [List.map_cons, unsignedOf, unsignedOf, BitVec.toNat_not, List.length_cons, Nat.mul_succ,
      Nat.pow_add, ← ih]
    omega

theorem signedOf_complement (nonempty : words ≠ []) :
    signedOf (words.map (~~~·)) = -1 - signedOf words := by
  have total := unsignedOf_complement words
  have rounds := Int.bmod_add_bdiv (unsignedOf words) (2 ^ (32 * words.length))
  obtain ⟨above, below⟩ := fitsSigned_signedOf nonempty
  have fits : FitsSigned (words.map (~~~·)).length (-1 - signedOf words) := by
    -- The range of two's complement is taken to itself.
    rw [FitsSigned, List.length_map]
    omega
  refine signedOf_eq (by simpa using nonempty) fits
    (1 - (unsignedOf words : Int).bdiv (2 ^ (32 * words.length))) ?_
  rw [List.length_map, signedOf]
  zify at *
  linear_combination total + rounds

end Numbers

namespace AluResult

/-- Combines two numbers word by word. The carry of each result goes into the next. -/
def chain (combine : Word → Word → Bool → AluResult) :
    List Word → List Word → Bool → List AluResult
  | first :: firsts, second :: seconds, carry =>
      let result := combine first second carry
      result :: chain combine firsts seconds result.carry
  | _, _, _ => []

section Words

variable (first second : Word) (carry : Bool)

/-- Value and carry together are the exact sum. -/
theorem addWithCarry_sum :
    (addWithCarry first second carry).value.toNat +
        2 ^ 32 * (addWithCarry first second carry).carry.toNat =
      first.toNat + second.toNat + carry.toNat := by
  have firstBound := first.isLt
  have secondBound := second.isLt
  have small := carry.toNat_lt
  have wide : (first.setWidth 64 + second.setWidth 64 + (BitVec.ofBool carry).setWidth 64).toNat =
      first.toNat + second.toNat + carry.toNat := by
    simp
    omega
  -- The carry is set exactly when the sum, formed on 64 bits, does not fit a word.
  have carried : (addWithCarry first second carry).carry =
      decide (2 ^ 32 ≤ first.toNat + second.toNat + carry.toNat) := by
    rw [addWithCarry, ofValue]
    dsimp only
    rw [decide_eq_decide, gt_iff_lt, BitVec.lt_def, wide]
    simp
    omega
  have value : (addWithCarry first second carry).value.toNat =
      (first.toNat + second.toNat + carry.toNat) % 2 ^ 32 := by
    rw [addWithCarry, ofValue, BitVec.toNat_setWidth, wide]
  rw [carried, value]
  by_cases full : 2 ^ 32 ≤ first.toNat + second.toNat + carry.toNat
  · rw [decide_eq_true full, Bool.toNat_true]
    omega
  · rw [decide_eq_false full, Bool.toNat_false]
    omega

theorem overflow_addWithCarry :
    (addWithCarry first second carry).overflow = true ↔
      ¬ FitsSigned 1 (first.toInt + second.toInt + carry.toNat) := by
  have sum := addWithCarry_sum first second carry
  have carried := (addWithCarry first second carry).carry.toNat_lt
  have small := carry.toNat_lt
  have firstBound := first.isLt
  have secondBound := second.isLt
  have bound := (addWithCarry first second carry).value.isLt
  have same : (addWithCarry first second carry).overflow =
      Bits.test ((first ^^^ (addWithCarry first second carry).value) &&&
        (second ^^^ (addWithCarry first second carry).value)) 31 := rfl
  have top (word : Word) : word.getLsbD 31 = decide (2 ^ 31 ≤ word.toNat) := by
    rw [← BitVec.msb_eq_getLsbD_last (x := word), BitVec.msb_eq_decide]
  have signed (word : Word) : 2 ^ 31 ≤ word.toNat ∧ word.toInt = word.toNat - 2 ^ 32 ∨
      word.toNat < 2 ^ 31 ∧ word.toInt = word.toNat := by
    rw [BitVec.toInt_eq_toNat_cond]
    split <;> omega
  rw [same, Bits.test, BitVec.getLsbD_and, BitVec.getLsbD_xor, BitVec.getLsbD_xor, top, top, top]
  simp only [Bool.and_eq_true, Bool.xor_iff_ne, ne_eq, decide_eq_decide, FitsSigned]
  -- The sum overflows when its sign is that of neither operand.
  rcases signed first with ⟨_, number⟩ | ⟨_, number⟩ <;>
    rcases signed second with ⟨_, other⟩ | ⟨_, other⟩ <;>
    rw [number, other] <;> omega

end Words

section Chains

variable {firsts seconds : List Word}

theorem length_chain (combine : Word → Word → Bool → AluResult)
    (same : firsts.length = seconds.length) (carry : Bool) :
    (chain combine firsts seconds carry).length = firsts.length := by
  induction firsts generalizing seconds carry with
  | nil => rfl
  | cons first firsts ih =>
    cases seconds with
    | nil => cases same
    | cons second seconds => simp [chain, ih (Nat.succ.inj same)]

/-- Complementing the second number word by word turns sums into differences. -/
theorem chain_subWithCarry (firsts seconds : List Word) (carry : Bool) :
    chain subWithCarry firsts seconds carry =
      chain addWithCarry firsts (seconds.map (~~~·)) carry := by
  induction firsts generalizing seconds carry with
  | nil => simp [chain]
  | cons first firsts ih =>
    cases seconds with
    | nil => simp [chain]
    | cons second seconds => simp [chain, subWithCarry, ih]

/-- What the words of a sum come to, and what the last of them tells. -/
structure Sums (firsts seconds : List Word) (carry : Bool) (results : List AluResult)
    (last : AluResult) : Prop where
  ends : results.getLast? = some last
  total : unsignedOf (results.map (·.value)) + 2 ^ (32 * firsts.length) * last.carry.toNat =
    unsignedOf firsts + unsignedOf seconds + carry.toNat
  overflow : last.overflow = true ↔
    ¬ FitsSigned firsts.length (signedOf firsts + signedOf seconds + carry.toNat)
  negative : last.negative = Bits.test last.value 31
  zero : last.zero = true ↔ last.value = 0

/-- The last word decides: the words below it only hand it their carry. -/
theorem exists_sums (same : firsts.length = seconds.length) (nonempty : firsts ≠ []) (carry : Bool) :
    ∃ last, Sums firsts seconds carry (chain addWithCarry firsts seconds carry) last := by
  induction firsts generalizing seconds carry with
  | nil => contradiction
  | cons first firsts ih =>
    obtain _ | ⟨second, seconds⟩ := seconds
    · cases same
    have sum := addWithCarry_sum first second carry
    have shorter := Nat.succ.inj same
    -- The first of the words is the only one, or the others are a shorter sum with its carry.
    by_cases others : firsts = []
    · subst others
      obtain rfl := List.eq_nil_of_length_eq_zero shorter.symm
      refine ⟨addWithCarry first second carry, rfl, ?_, ?_, rfl, by simp [addWithCarry, ofValue]⟩
      · simpa [chain, unsignedOf] using sum
      · rw [signedOf_singleton, signedOf_singleton]
        exact overflow_addWithCarry first second carry
    · have otherSeconds : seconds ≠ [] := by
        rintro rfl
        exact others (List.eq_nil_of_length_eq_zero shorter)
      obtain ⟨last, sums⟩ := ih shorter others (addWithCarry first second carry).carry
      refine ⟨last, ?_, ?_, ?_, sums.negative, sums.zero⟩
      · rw [chain, List.getLast?_cons, sums.ends]
        rfl
      · have total := sums.total
        rw [chain, List.map_cons, unsignedOf, unsignedOf, unsignedOf, List.length_cons, Nat.mul_succ,
          Nat.pow_add]
        linear_combination sum + 2 ^ 32 * total
      · -- The lowest word adds a number without a sign to 2^32 times the sum of the others.
        have total : (addWithCarry first second carry).value.toNat +
            2 ^ 32 * (signedOf firsts + signedOf seconds +
              (addWithCarry first second carry).carry.toNat) =
            signedOf (first :: firsts) + signedOf (second :: seconds) + carry.toNat := by
          rw [signedOf_cons _ others, signedOf_cons _ otherSeconds]
          zify at sum
          linear_combination sum
        rw [sums.overflow, List.length_cons, ← total,
          fitsSigned_succ (List.length_pos_iff.mpr others)]

end Chains

/--
The results, word by word, of a calculation on numbers of so many words. The values are what it
comes to apart from full rounds, and the conditions of the last result are those of the whole.
-/
structure Completes (results : List AluResult) (count : Nat) (unsigned signed : Int)
    (carries : Prop) : Prop where
  length : results.length = count
  value : (unsignedOf (results.map (·.value)) : Int) = unsigned % 2 ^ (32 * count)
  last : ∃ last, results.getLast? = some last ∧
    (last.carry = true ↔ carries) ∧
    (last.overflow = true ↔ ¬ FitsSigned count signed) ∧
    last.negative = Bits.test last.value 31 ∧
    (last.zero = true ↔ last.value = 0)

section Whole

variable {firsts seconds : List Word} (same : firsts.length = seconds.length)
  (nonempty : firsts ≠ []) (carry : Bool)
include same nonempty

theorem completes_sum :
    Completes (chain addWithCarry firsts seconds carry) firsts.length
      (unsignedOf firsts + unsignedOf seconds + carry.toNat)
      (signedOf firsts + signedOf seconds + carry.toNat)
      (2 ^ (32 * firsts.length) ≤ unsignedOf firsts + unsignedOf seconds + carry.toNat) := by
  obtain ⟨last, sums⟩ := exists_sums same nonempty carry
  have length := length_chain addWithCarry same carry
  have bound := unsignedOf_lt ((chain addWithCarry firsts seconds carry).map (·.value))
  rw [List.length_map, length] at bound
  have total := sums.total
  refine ⟨length, ?_, last, sums.ends, ?_, sums.overflow, sums.negative, sums.zero⟩
  · norm_cast
    rw [← total, Nat.add_mul_mod_self_left, Nat.mod_eq_of_lt bound]
  · rw [← total]
    cases last.carry <;> simp [bound]

theorem completes_difference :
    Completes (chain subWithCarry firsts seconds carry) firsts.length
      (unsignedOf firsts - unsignedOf seconds - (1 - carry.toNat))
      (signedOf firsts - signedOf seconds - (1 - carry.toNat))
      (unsignedOf seconds + (1 - carry.toNat) ≤ unsignedOf firsts) := by
  have complemented : firsts.length = (seconds.map (~~~·)).length := by
    rw [List.length_map, same]
  have someSeconds : seconds ≠ [] := by
    rintro rfl
    exact nonempty (List.eq_nil_of_length_eq_zero same)
  have complement := unsignedOf_complement seconds
  have sum := completes_sum complemented nonempty carry
  have small := carry.toNat_lt
  rw [← same] at complement
  rw [← chain_subWithCarry, signedOf_complement someSeconds] at sum
  obtain ⟨length, value, last, ends, carries, overflow, negative, zero⟩ := sum
  -- A complement lacks one to a full round, which is what a carry makes up for.
  refine ⟨length, ?_, last, ends, ?_, ?_, negative, zero⟩
  · have shifted : (unsignedOf firsts : Int) + unsignedOf (seconds.map (~~~·)) + carry.toNat =
        unsignedOf firsts - unsignedOf seconds - (1 - carry.toNat) + 2 ^ (32 * firsts.length) := by
      zify at complement
      linear_combination complement
    rw [value, shifted, Int.add_emod_right]
  · rw [carries]
    omega
  · have regrouped : signedOf firsts + (-1 - signedOf seconds) + carry.toNat =
        signedOf firsts - signedOf seconds - (1 - carry.toNat) := by omega
    rw [overflow, regrouped]

end Whole

end AluResult

namespace Core

open AluResult

/-- Performs one operation on word after word, each with the flags that the last one has set. -/
def cascade (op : AluOp) : List Word → List Shifted → Status → List AluResult
  | first :: firsts, second :: seconds, status =>
      let result := aluResult op first second status
      result :: cascade op firsts seconds (status.withFlags result)
  | _, _, _ => []

/-- An operation that reads the carry flag and sets it hands the carry on. -/
theorem cascade_eq_chain {op : AluOp} {combine : Word → Word → Bool → AluResult}
    (combines : ∀ first second status,
      aluResult op first second status = combine first second.value status.carry)
    (firsts : List Word) (seconds : List Shifted) (status : Status) :
    cascade op firsts seconds status =
      chain combine firsts (seconds.map (·.value)) status.carry := by
  induction firsts generalizing seconds status with
  | nil => simp [cascade, chain]
  | cons first firsts ih =>
    cases seconds with
    | nil => simp [cascade, chain]
    | cons second seconds => simp [cascade, chain, combines, ih]

/--
Words combined one after the other, each with the carry of the one before, give the sum or the
difference of the numbers they stand for. The last carry tells that the sum left the unsigned range,
or that the difference did not, the last overflow that the two's complement result has no room, and
sign and zero speak of the last word alone. `ADC` and `SBC` with their flags kept in the status
calculate in this way.
-/
theorem words_combine_to_exact_results {firsts seconds : List Word}
    (same : firsts.length = seconds.length) (nonempty : firsts ≠ []) (carry : Bool) :
    Completes (chain addWithCarry firsts seconds carry) firsts.length
      (unsignedOf firsts + unsignedOf seconds + carry.toNat)
      (signedOf firsts + signedOf seconds + carry.toNat)
      (2 ^ (32 * firsts.length) ≤ unsignedOf firsts + unsignedOf seconds + carry.toNat) ∧
    Completes (chain subWithCarry firsts seconds carry) firsts.length
      (unsignedOf firsts - unsignedOf seconds - (1 - carry.toNat))
      (signedOf firsts - signedOf seconds - (1 - carry.toNat))
      (unsignedOf seconds + (1 - carry.toNat) ≤ unsignedOf firsts) ∧
    ∀ (shifted : List Shifted) (status : Status), shifted.map (·.value) = seconds →
      status.carry = carry →
        cascade .adc firsts shifted status = chain addWithCarry firsts seconds carry ∧
        cascade .sbc firsts shifted status = chain subWithCarry firsts seconds carry := by
  refine ⟨completes_sum same nonempty carry, completes_difference same nonempty carry, ?_⟩
  rintro shifted status rfl rfl
  exact ⟨cascade_eq_chain (fun _ _ _ => rfl) firsts shifted status,
    cascade_eq_chain (fun _ _ _ => rfl) firsts shifted status⟩

/--
The largest number of two words and a carry make zero without an overflow, and zero minus zero and
a borrow makes minus one.
-/
theorem carry_runs_through_two_words :
    Completes (chain addWithCarry [0xFFFFFFFF, 0xFFFFFFFF] [0, 0] true) 2
      (0xFFFFFFFFFFFFFFFF + 0 + 1) (-1 + 0 + 1) (2 ^ 64 ≤ 0xFFFFFFFFFFFFFFFF + 0 + 1) ∧
    Completes (chain subWithCarry [0, 0] [0, 0] false) 2
      (0 - 0 - (1 - 0)) (0 - 0 - (1 - 0)) (0 + (1 - 0) ≤ 0) ∧
    cascade .adc [0xFFFFFFFF, 0xFFFFFFFF] [⟨0, false⟩, ⟨0, false⟩] ⟨0x20000000⟩ =
      chain addWithCarry [0xFFFFFFFF, 0xFFFFFFFF] [0, 0] true := by
  have ones : unsignedOf [0xFFFFFFFF, 0xFFFFFFFF] = 0xFFFFFFFFFFFFFFFF := by decide
  have minusOne : signedOf [0xFFFFFFFF, 0xFFFFFFFF] = -1 := by decide
  have nothing : unsignedOf [0, 0] = 0 := by decide
  have zero : signedOf [0, 0] = 0 := by decide
  obtain ⟨sum, _, cascades⟩ := words_combine_to_exact_results
    (show [0xFFFFFFFF, 0xFFFFFFFF].length = [0, 0].length from rfl) (by simp) true
  obtain ⟨_, difference, _⟩ := words_combine_to_exact_results
    (show [0, 0].length = [0, 0].length from rfl) (by simp) false
  rw [ones, nothing, minusOne, zero] at sum
  rw [nothing, zero] at difference
  exact ⟨sum, difference, (cascades [⟨0, false⟩, ⟨0, false⟩] ⟨0x20000000⟩ rfl (by decide)).1⟩

end Core

end ArmBoard
