import ArmBoard.Proofs.Decoding.Agreement
import ArmBoard.Proofs.Decoding.Bounds

/-!
# Unassigned words

Three parts of the encoding space are not filled by the families that share
them: the one of products and swaps, the one of tests that set no flags and the
one of byte reversals. All other words are taken, so that a word is unknown
exactly if it lies in one of these gaps and none of the few families with words
there recognises it.
-/
namespace ArmBoard

open Bits

/--
The words that no family has, by their fields: what is neither a product nor a swap but looks like
one, a test without flags that is no branch and no status transfer, and what is left of the words
around the byte reversals.
-/
inductive Unassigned (word : Word) : Prop
  | product (space : field word 25 27 = 0b000 ∧ field word 4 7 = 0b1001)
      (multiply : field word 22 27 ≠ 0b000000) (multiplyLong : field word 23 27 ≠ 0b00001)
      (swap : ¬ (field word 23 27 = 0b00010 ∧ field word 20 21 = 0b00 ∧ field word 8 11 = 0b0000))
  | silentTest (space : field word 26 27 = 0b00 ∧ field word 23 24 = 0b10 ∧ test word 20 = false)
      (operand : ¬ (test word 25 = false ∧ test word 7 = true ∧ test word 4 = true))
      (branchExchange : field word 4 27 ≠ 0x12FFF1)
      (statusRead : ¬ (field word 23 27 = 0b00010 ∧ field word 20 21 = 0b00 ∧
        field word 16 19 = 0b1111 ∧ field word 0 11 = 0))
      (statusWriteRegister : ¬ (field word 23 27 = 0b00010 ∧ field word 20 21 = 0b10 ∧
        field word 12 15 = 0b1111 ∧ field word 4 11 = 0))
      (statusWriteImmediate : ¬ (field word 23 27 = 0b00110 ∧ field word 20 21 = 0b10 ∧
        field word 12 15 = 0b1111))
  | reversal (space : field word 25 27 = 0b011 ∧ test word 4 = true)
      (reverse : ¬ (field word 16 27 = 0x6BF ∧ (field word 4 11 = 0xF3 ∨ field word 4 11 = 0xFB)))
      (reverseSigned : ¬ (field word 16 27 = 0x6FF ∧ field word 4 11 = 0xFB))

namespace Pattern

variable {pattern : Pattern}

/-- The bits that a pattern asks for, each with its value. -/
theorem matches_iff_bits {bits : List (Nat × Bool)}
    (within : pattern.value &&& pattern.mask = pattern.value)
    (listed : pattern.asked.map (fun index => (index, test pattern.value index)) = bits)
    (word : Word) :
    pattern.matches word = true ↔ ∀ bit ∈ bits, test word bit.1 = bit.2 := by
  rw [matches_iff_asked within, ← listed]
  simp

/-- The mask of several fields, each with its lowest bit, its highest bit and its value. -/
def maskOf (fields : List (Nat × Nat × Nat)) : Word :=
  fields.foldr (fun part mask => span 32 part.1 part.2.1 ||| mask) 0

/-- Whether a pattern asks for the values of some fields and for nothing else. -/
def spelledBy (pattern : Pattern) (fields : List (Nat × Nat × Nat)) : Bool :=
  maskOf fields == pattern.mask && pattern.value &&& pattern.mask == pattern.value &&
    fields.all fun part =>
      decide (part.2.1 < 32) && field pattern.value part.1 part.2.1 == part.2.2

theorem agreeOn_maskOf_iff {fields : List (Nat × Nat × Nat)}
    (inside : ∀ part ∈ fields, part.2.1 < 32) (first second : Word) :
    AgreeOn (maskOf fields) first second ↔
      ∀ part ∈ fields, field first part.1 part.2.1 = field second part.1 part.2.1 := by
  induction fields with
  | nil => simp [AgreeOn, maskOf]
  | cons part rest ih =>
    rw [List.forall_mem_cons] at inside
    rw [List.forall_mem_cons, field_eq_iff inside.1, ← ih inside.2]
    exact AgreeOn.or_iff

/-- A pattern that is spelled out by fields matches field by field. -/
theorem matches_iff_fields (fields : List (Nat × Nat × Nat))
    (spelled : pattern.spelledBy fields = true) (word : Word) :
    pattern.matches word = true ↔ ∀ part ∈ fields, field word part.1 part.2.1 = part.2.2 := by
  simp only [spelledBy, Bool.and_eq_true, beq_iff_eq, List.all_eq_true, decide_eq_true_eq]
    at spelled
  obtain ⟨⟨whole, within⟩, parts⟩ := spelled
  have agree := agreeOn_maskOf_iff (fun part member => (parts part member).1) word pattern.value
  rw [whole, AgreeOn, within] at agree
  rw [Pattern.matches, beq_iff_eq, agree]
  -- The value has in each field what the field asks for.
  refine forall₂_congr fun part member => ?_
  rw [(parts part member).2]

end Pattern

namespace Family

/-- A part of the encoding space, told by one pattern, of which some families have some words. -/
structure Gap where
  present : Pattern
  /-- What lies in these patterns is no part of the gap. -/
  absent : List Pattern
  sharers : List Family

def Gap.Holds (gap : Gap) (word : Word) : Prop :=
  gap.present.matches word = true ∧ ∀ pattern ∈ gap.absent, pattern.matches word = false

/-- Whether the patterns alone keep the words of a family out of the gap. -/
def Gap.shuts (gap : Gap) (family : Family) : Bool :=
  family.excluded.any gap.present.refines || family.accepted.all fun accepted =>
    gap.present.conflicts accepted || gap.absent.any accepted.refines

def productGap : Gap := ⟨⟨0x0E0000F0, 0x00000090⟩, [], [multiply, multiplyLong, swap]⟩

def silentTestGap : Gap :=
  ⟨⟨0x0D900000, 0x01000000⟩, [extensionPattern], [branchExchange, statusTransfer]⟩

def reversalGap : Gap := ⟨⟨0x0E000010, 0x06000010⟩, [], [byteReverse]⟩

def gaps : List Gap := [productGap, silentTestGap, reversalGap]

theorem not_recognises_of_shuts {gap : Gap} {family : Family} {word : Word}
    (shut : gap.shuts family = true) (holds : gap.Holds word) :
    family.recognises word = false := by
  obtain ⟨present, absent⟩ := holds
  rw [Bool.eq_false_iff]
  intro recognised
  obtain ⟨accepted, member, matched⟩ := ((recognises_iff family word).mp recognised).1
  rw [Gap.shuts, not_any_refines recognised present, Bool.false_or, List.all_eq_true] at shut
  have reason := shut accepted member
  rw [Bool.or_eq_true, List.any_eq_true] at reason
  rcases reason with conflict | ⟨outside, outsideMember, refined⟩
  · have apart := Pattern.not_matches_of_conflicts conflict present
    rw [matched] at apart
    cases apart
  · have inside := Pattern.matches_of_refines refined matched
    rw [absent outside outsideMember] at inside
    cases inside

theorem shuts_or_mem_sharers :
    ∀ gap ∈ gaps, ∀ family ∈ decodingOrder, gap.shuts family = true ∨ family ∈ gap.sharers := by
  decide

/-- A word with the bits of one of the accepted patterns belongs to the family, if not excluded. -/
theorem recognises_of_bits {family : Family} {word : Word} {pattern : Pattern} (index : Nat)
    (bits : List (Nat × Bool)) (accepts : family.accepted[index]? = some pattern)
    (within : pattern.value &&& pattern.mask = pattern.value)
    (listed : pattern.asked.map (fun index => (index, test pattern.value index)) = bits)
    (agree : ∀ bit ∈ bits, test word bit.1 = bit.2)
    (clear : ∀ excluded ∈ family.excluded, excluded.matches word = false) :
    family.recognises word = true := by
  have matched := (Pattern.matches_iff_bits within listed word).mpr agree
  exact (recognises_iff family word).mpr ⟨⟨pattern, List.mem_of_getElem? accepts, matched⟩, clear⟩

/-- The words with bit 27 are divided among six families that exclude nothing. -/
theorem exists_recognises_of_upper {word : Word} (upper : test word 27 = true) :
    ∃ family : Family, family.recognises word = true := by
  have taken (family : Family) (bits : List (Nat × Bool)) {pattern : Pattern}
      (accepts : family.accepted[0]? = some pattern) (free : family.excluded = [])
      (within : pattern.value &&& pattern.mask = pattern.value)
      (listed : pattern.asked.map (fun index => (index, test pattern.value index)) = bits)
      (agree : ∀ bit ∈ bits, test word bit.1 = bit.2) :
      ∃ family : Family, family.recognises word = true :=
    ⟨family, recognises_of_bits 0 bits accepts within listed agree (by simp [free])⟩
  cases six : test word 26 <;> cases five : test word 25
  · exact taken blockTransfer [(25, false), (26, false), (27, true)] rfl rfl rfl (by decide)
      (by simp [*])
  · exact taken branch [(25, true), (26, false), (27, true)] rfl rfl rfl (by decide) (by simp [*])
  · exact taken coprocessorTransfer [(25, false), (26, true), (27, true)] rfl rfl rfl (by decide)
      (by simp [*])
  -- With bits 25 to 27 set, bit 24 tells an interrupt and bit 4 the rest.
  cases interrupt : test word 24
  · cases moves : test word 4
    · exact taken coprocessorOperation
        [(4, false), (24, false), (25, true), (26, true), (27, true)] rfl rfl rfl (by decide)
        (by simp [*])
    · exact taken coprocessorRegister
        [(4, true), (24, false), (25, true), (26, true), (27, true)] rfl rfl rfl (by decide)
        (by simp [*])
  · exact taken softwareInterrupt [(24, true), (25, true), (26, true), (27, true)] rfl rfl rfl
      (by decide) (by simp [*])

theorem Gap.holds_of_bits {gap : Gap} {word : Word} (bits : List (Nat × Bool))
    (within : gap.present.value &&& gap.present.mask = gap.present.value)
    (listed : gap.present.asked.map (fun index => (index, test gap.present.value index)) = bits)
    (agree : ∀ bit ∈ bits, test word bit.1 = bit.2)
    (clear : ∀ pattern ∈ gap.absent, pattern.matches word = false) : gap.Holds word :=
  ⟨(Pattern.matches_iff_bits within listed word).mpr agree, clear⟩

/-- A word or byte transfer takes its class but for a register offset with bit 4. -/
theorem singleTransfer_or_gap {word : Word} (seven : test word 27 = false)
    (six : test word 26 = true) :
    singleTransfer.recognises word = true ∨ reversalGap.Holds word := by
  cases register : (Pattern.mk 0x02000010 0x02000010).matches word with
  | false =>
    left
    exact recognises_of_bits 0 [(26, true), (27, false)] rfl rfl (by decide) (by simp [*])
      (by simpa [excluded] using register)
  | true =>
    right
    rw [Pattern.matches_iff_bits rfl (show _ = [(4, true), (25, true)] by decide)] at register
    have four := register (4, true) (by simp)
    have five := register (25, true) (by simp)
    exact Gap.holds_of_bits [(4, true), (25, true), (26, true), (27, false)] rfl (by decide)
      (by simp [*]) (by simp [reversalGap])

/-- In the space that data processing leaves to others, bits 5 and 6 ask for a halfword. -/
theorem halfTransfer_or_gap {word : Word} (seven : test word 27 = false) (six : test word 26 = false)
    (extension : extensionPattern.matches word = true) :
    halfTransfer.recognises word = true ∨ productGap.Holds word := by
  have asked : extensionPattern.asked.map
    (fun index => (index, test extensionPattern.value index)) =
      [(4, true), (7, true), (25, false)] := by decide
  rw [Pattern.matches_iff_bits rfl asked] at extension
  simp only [List.forall_mem_cons] at extension
  obtain ⟨four, upper, five, -⟩ := extension
  cases signed : test word 6
  · cases half : test word 5
    · right
      exact Gap.holds_of_bits [(4, true), (5, false), (6, false), (7, true), (25, false),
        (26, false), (27, false)] rfl (by decide) (by simp [*]) (by simp [productGap])
    · left
      exact recognises_of_bits 1 [(4, true), (5, true), (7, true), (25, false), (26, false),
        (27, false)] rfl rfl (by decide) (by simp [*]) (by simp [excluded])
  · left
    exact recognises_of_bits 0 [(4, true), (6, true), (7, true), (25, false), (26, false),
      (27, false)] rfl rfl (by decide) (by simp [*]) (by simp [excluded])

theorem dataProcessing_or_gap {word : Word} (seven : test word 27 = false)
    (six : test word 26 = false) (plain : extensionPattern.matches word = false) :
    dataProcessing.recognises word = true ∨ silentTestGap.Holds word := by
  cases silent : silentTestPattern.matches word with
  | false =>
    left
    exact recognises_of_bits 0 [(26, false), (27, false)] rfl rfl (by decide) (by simp [*])
      (by simp [excluded, plain, silent])
  | true =>
    right
    have asked : silentTestPattern.asked.map
      (fun index => (index, test silentTestPattern.value index)) =
        [(20, false), (23, false), (24, true)] := by decide
    rw [Pattern.matches_iff_bits rfl asked] at silent
    simp only [List.forall_mem_cons] at silent
    obtain ⟨flags, low, high, -⟩ := silent
    exact Gap.holds_of_bits [(20, false), (23, false), (24, true), (26, false), (27, false)] rfl
      (by decide) (by simp [*]) (by simp [silentTestGap, plain])

/-- Outside the gaps every word is taken, mostly by the first bits of its class. -/
theorem exists_recognises_or_holds (word : Word) :
    (∃ family : Family, family.recognises word = true) ∨ ∃ gap ∈ gaps, gap.Holds word := by
  cases seven : test word 27 with
  | true => exact Or.inl (exists_recognises_of_upper seven)
  | false =>
    cases six : test word 26 with
    | true =>
      rcases singleTransfer_or_gap seven six with recognised | holds
      · exact Or.inl ⟨singleTransfer, recognised⟩
      · exact Or.inr ⟨reversalGap, by simp [gaps], holds⟩
    | false =>
      cases extension : extensionPattern.matches word with
      | true =>
        rcases halfTransfer_or_gap seven six extension with recognised | holds
        · exact Or.inl ⟨halfTransfer, recognised⟩
        · exact Or.inr ⟨productGap, by simp [gaps], holds⟩
      | false =>
        rcases dataProcessing_or_gap seven six extension with recognised | holds
        · exact Or.inl ⟨dataProcessing, recognised⟩
        · exact Or.inr ⟨silentTestGap, by simp [gaps], holds⟩

/-- No family has a word exactly if it lies in a gap and none of those that share the gap has it. -/
theorem unrecognised_iff (word : Word) :
    (∀ family : Family, family.recognises word = false) ↔
      ∃ gap ∈ gaps, gap.Holds word ∧ ∀ family ∈ gap.sharers, family.recognises word = false := by
  constructor
  · intro unrecognised
    rcases exists_recognises_or_holds word with ⟨family, recognised⟩ | ⟨gap, member, holds⟩
    · rw [unrecognised family] at recognised
      cases recognised
    · exact ⟨gap, member, holds, fun family _ => unrecognised family⟩
  · rintro ⟨gap, member, holds, apart⟩ family
    rcases shuts_or_mem_sharers gap member family (mem_decodingOrder family) with shut | sharer
    · exact not_recognises_of_shuts shut holds
    · exact apart family sharer

end Family

namespace Instruction

/-- Decoding does not know a word exactly if no family recognises it. -/
theorem decode_eq_unknown_iff (word : Word) :
    decode word = .error (.unknown word 0) ↔
      ∀ family : Family, family.recognises word = false := by
  have unfound : Family.ofWord? word = none ↔
      ∀ family : Family, family.recognises word = false := by
    simp [Family.ofWord?, Family.first?, List.find?_eq_none, Family.mem_decodingOrder]
  rw [← unfound]
  constructor
  · intro unknown
    cases found : Family.ofWord? word with
    | none => rfl
    | some family =>
      -- A family that recognises the word can read it, so that at most an objection is left.
      obtain ⟨instruction, built⟩ := Family.build_of_recognises (Family.ofWord?_eq_some found)
      rw [Family.ofWord?] at found
      simp only [decode, decodeWith, found, built] at unknown
      split at unknown <;> cases unknown
  · intro missing
    rw [Family.ofWord?] at missing
    simp only [decode, decodeWith, missing]

end Instruction

namespace Family

section Fields

variable {word : Word}

@[simp]
theorem field_self (word : Word) (index : Nat) :
    field word index index = (test word index).toNat := by
  have one : 1 <<< (index + 1 - index) = 2 := by simp
  rw [field_eq_shiftRight_mod, one, test, BitVec.getLsbD, Nat.toNat_testBit,
    Nat.shiftRight_eq_div_pow]

theorem productGap_iff :
    productGap.Holds word ↔ field word 25 27 = 0b000 ∧ field word 4 7 = 0b1001 := by
  have present : productGap.present.matches word = true ↔ _ :=
    Pattern.matches_iff_fields [(25, 27, 0b000), (4, 7, 0b1001)] (by decide) word
  rw [Gap.Holds, present]
  simp [productGap]

theorem silentTestGap_iff :
    silentTestGap.Holds word ↔
      (field word 26 27 = 0b00 ∧ field word 23 24 = 0b10 ∧ test word 20 = false) ∧
        ¬ (test word 25 = false ∧ test word 7 = true ∧ test word 4 = true) := by
  have present : silentTestGap.present.matches word = true ↔ _ :=
    Pattern.matches_iff_fields [(26, 27, 0b00), (23, 24, 0b10), (20, 20, 0)] (by decide) word
  have extension : extensionPattern.matches word = true ↔ _ :=
    Pattern.matches_iff_fields [(25, 25, 0), (7, 7, 1), (4, 4, 1)] (by decide) word
  rw [Gap.Holds, present]
  simp [silentTestGap, ← Bool.not_eq_true, extension]

theorem reversalGap_iff :
    reversalGap.Holds word ↔ field word 25 27 = 0b011 ∧ test word 4 = true := by
  have present : reversalGap.present.matches word = true ↔ _ :=
    Pattern.matches_iff_fields [(25, 27, 0b011), (4, 4, 1)] (by decide) word
  rw [Gap.Holds, present]
  simp [reversalGap]

theorem recognises_eq_any (family : Family) (free : family.excluded = []) (word : Word) :
    family.recognises word = family.accepted.any (·.matches word) := by
  simp [recognises, free]

/-- A family with a single pattern has the words with its fields. -/
theorem recognises_iff_fields {family : Family} {pattern : Pattern}
    (fields : List (Nat × Nat × Nat)) (only : family.accepted = [pattern])
    (free : family.excluded = []) (spelled : pattern.spelledBy fields = true) :
    family.recognises word = true ↔ ∀ part ∈ fields, field word part.1 part.2.1 = part.2.2 := by
  rw [← Pattern.matches_iff_fields fields spelled, recognises_eq_any family free, only]
  simp

theorem recognises_multiply_iff :
    multiply.recognises word = true ↔ field word 22 27 = 0b000000 ∧ field word 4 7 = 0b1001 := by
  rw [recognises_iff_fields [(22, 27, 0b000000), (4, 7, 0b1001)] rfl rfl (by decide)]
  simp

theorem recognises_multiplyLong_iff :
    multiplyLong.recognises word = true ↔ field word 23 27 = 0b00001 ∧ field word 4 7 = 0b1001 := by
  rw [recognises_iff_fields [(23, 27, 0b00001), (4, 7, 0b1001)] rfl rfl (by decide)]
  simp

theorem recognises_swap_iff :
    swap.recognises word = true ↔
      field word 23 27 = 0b00010 ∧ field word 20 21 = 0b00 ∧ field word 8 11 = 0b0000 ∧
        field word 4 7 = 0b1001 := by
  rw [recognises_iff_fields [(23, 27, 0b00010), (20, 21, 0b00), (8, 11, 0b0000), (4, 7, 0b1001)]
    rfl rfl (by decide)]
  simp

theorem recognises_branchExchange_iff :
    branchExchange.recognises word = true ↔ field word 4 27 = 0x12FFF1 := by
  rw [recognises_iff_fields [(4, 27, 0x12FFF1)] rfl rfl (by decide)]
  simp

theorem recognises_statusTransfer_iff :
    statusTransfer.recognises word = true ↔
      (field word 23 27 = 0b00010 ∧ field word 20 21 = 0b00 ∧ field word 16 19 = 0b1111 ∧
        field word 0 11 = 0) ∨
      (field word 23 27 = 0b00010 ∧ field word 20 21 = 0b10 ∧ field word 12 15 = 0b1111 ∧
        field word 4 11 = 0) ∨
      (field word 23 27 = 0b00110 ∧ field word 20 21 = 0b10 ∧ field word 12 15 = 0b1111) := by
  have read : statusReadPattern.matches word = true ↔ _ :=
    Pattern.matches_iff_fields [(23, 27, 0b00010), (20, 21, 0b00), (16, 19, 0b1111), (0, 11, 0)]
      (by decide) word
  have register : statusWriteRegisterPattern.matches word = true ↔ _ :=
    Pattern.matches_iff_fields [(23, 27, 0b00010), (20, 21, 0b10), (12, 15, 0b1111), (4, 11, 0)]
      (by decide) word
  have immediate : statusWriteImmediatePattern.matches word = true ↔ _ :=
    Pattern.matches_iff_fields [(23, 27, 0b00110), (20, 21, 0b10), (12, 15, 0b1111)]
      (by decide) word
  rw [recognises_eq_any _ rfl]
  simp [accepted, read, register, immediate]

theorem recognises_byteReverse_iff :
    byteReverse.recognises word = true ↔
      (field word 16 27 = 0x6BF ∧ (field word 4 11 = 0xF3 ∨ field word 4 11 = 0xFB)) ∨
        (field word 16 27 = 0x6FF ∧ field word 4 11 = 0xFB) := by
  have all : (Pattern.mk 0x0FFF0FF0 0x06BF0F30).matches word = true ↔ _ :=
    Pattern.matches_iff_fields [(16, 27, 0x6BF), (4, 11, 0xF3)] (by decide) word
  have halves : (Pattern.mk 0x0FFF0FF0 0x06BF0FB0).matches word = true ↔ _ :=
    Pattern.matches_iff_fields [(16, 27, 0x6BF), (4, 11, 0xFB)] (by decide) word
  have low : (Pattern.mk 0x0FFF0FF0 0x06FF0FB0).matches word = true ↔ _ :=
    Pattern.matches_iff_fields [(16, 27, 0x6FF), (4, 11, 0xFB)] (by decide) word
  rw [recognises_eq_any _ rfl]
  simp only [accepted, List.any_cons, List.any_nil, Bool.or_false, Bool.or_eq_true, all, halves, low,
    List.forall_mem_cons, List.not_mem_nil, false_implies, implies_true, and_true]
  rw [← or_assoc, ← and_or_left]

/-- With the last bits of a product, the first ones tell who has the word. -/
theorem unshared_productGap_iff (space : productGap.Holds word) :
    (∀ family ∈ productGap.sharers, family.recognises word = false) ↔
      field word 22 27 ≠ 0b000000 ∧ field word 23 27 ≠ 0b00001 ∧
        ¬ (field word 23 27 = 0b00010 ∧ field word 20 21 = 0b00 ∧ field word 8 11 = 0b0000) := by
  have last := (productGap_iff.mp space).2
  have sharers : productGap.sharers = [multiply, multiplyLong, swap] := rfl
  simp [sharers, ← Bool.not_eq_true, recognises_multiply_iff, recognises_multiplyLong_iff,
    recognises_swap_iff, last]

theorem unshared_silentTestGap_iff :
    (∀ family ∈ silentTestGap.sharers, family.recognises word = false) ↔
      field word 4 27 ≠ 0x12FFF1 ∧
      ¬ (field word 23 27 = 0b00010 ∧ field word 20 21 = 0b00 ∧ field word 16 19 = 0b1111 ∧
        field word 0 11 = 0) ∧
      ¬ (field word 23 27 = 0b00010 ∧ field word 20 21 = 0b10 ∧ field word 12 15 = 0b1111 ∧
        field word 4 11 = 0) ∧
      ¬ (field word 23 27 = 0b00110 ∧ field word 20 21 = 0b10 ∧ field word 12 15 = 0b1111) := by
  have sharers : silentTestGap.sharers = [branchExchange, statusTransfer] := rfl
  simp only [sharers, List.forall_mem_cons, List.not_mem_nil, false_implies, implies_true,
    and_true, ← Bool.not_eq_true, recognises_branchExchange_iff, recognises_statusTransfer_iff,
    not_or, ne_eq]

theorem unshared_reversalGap_iff :
    (∀ family ∈ reversalGap.sharers, family.recognises word = false) ↔
      ¬ (field word 16 27 = 0x6BF ∧ (field word 4 11 = 0xF3 ∨ field word 4 11 = 0xFB)) ∧
        ¬ (field word 16 27 = 0x6FF ∧ field word 4 11 = 0xFB) := by
  have sharers : reversalGap.sharers = [byteReverse] := rfl
  simp only [sharers, List.forall_mem_cons, List.not_mem_nil, false_implies, implies_true,
    and_true, ← Bool.not_eq_true, recognises_byteReverse_iff, not_or]

end Fields

end Family

/-- The unassigned words are those in the gaps that no family with words there recognises. -/
theorem unassigned_iff (word : Word) :
    Unassigned word ↔ ∃ gap ∈ Family.gaps, gap.Holds word ∧
      ∀ family ∈ gap.sharers, family.recognises word = false := by
  constructor
  · rintro (⟨space, multiply, long, swap⟩ | ⟨space, operand, branch, read, register, immediate⟩ |
      ⟨space, reverse, signed⟩)
    · have holds := Family.productGap_iff.mpr space
      exact ⟨Family.productGap, by simp [Family.gaps], holds,
        (Family.unshared_productGap_iff holds).mpr ⟨multiply, long, swap⟩⟩
    · exact ⟨Family.silentTestGap, by simp [Family.gaps],
        Family.silentTestGap_iff.mpr ⟨space, operand⟩,
        Family.unshared_silentTestGap_iff.mpr ⟨branch, read, register, immediate⟩⟩
    · exact ⟨Family.reversalGap, by simp [Family.gaps], Family.reversalGap_iff.mpr space,
        Family.unshared_reversalGap_iff.mpr ⟨reverse, signed⟩⟩
  · rintro ⟨gap, member, holds, apart⟩
    simp only [Family.gaps, List.mem_cons, List.not_mem_nil, or_false] at member
    rcases member with rfl | rfl | rfl
    · obtain ⟨multiply, long, swap⟩ := (Family.unshared_productGap_iff holds).mp apart
      exact .product (Family.productGap_iff.mp holds) multiply long swap
    · obtain ⟨space, operand⟩ := Family.silentTestGap_iff.mp holds
      obtain ⟨branch, read, register, immediate⟩ := Family.unshared_silentTestGap_iff.mp apart
      exact .silentTest space operand branch read register immediate
    · obtain ⟨reverse, signed⟩ := Family.unshared_reversalGap_iff.mp apart
      exact .reversal (Family.reversalGap_iff.mp holds) reverse signed

namespace Instruction

/--
Decoding does not know exactly the unassigned words. Every other word is decoded, or is refused
because of its operands.
-/
theorem exactly_the_unassigned_words_are_unknown (word : Word) :
    (decode word = .error (.unknown word 0) ↔ Unassigned word) ∧
    (Unassigned word ∨ (∃ instruction, decode word = .ok instruction) ∨
      ∃ objection, decode word = .error (.illegal word 0 objection)) := by
  have unknown : decode word = .error (.unknown word 0) ↔ Unassigned word := by
    rw [decode_eq_unknown_iff, Family.unrecognised_iff, unassigned_iff]
  refine ⟨unknown, ?_⟩
  cases decoded : decode word with
  | ok instruction => exact Or.inr (Or.inl ⟨instruction, rfl⟩)
  | error fault =>
    rcases decode_eq_error decoded with rfl | ⟨objection, rfl⟩
    · exact Or.inl (unknown.mp decoded)
    · exact Or.inr (Or.inr ⟨objection, rfl⟩)

end Instruction

end ArmBoard
