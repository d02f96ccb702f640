import ArmBoard.Proofs.Decoding.Layout

/-!
# Decoding loses no operand

The word behind a decoded instruction can be recovered from the instruction
and its condition, apart from the bits that its family leaves unread: four
bits of a register offset, and what the coprocessor families pass over. Those
bits may be changed at will.
-/
namespace ArmBoard

open Bits

namespace Family

variable {first second mask : Word}

/-- Whether a word belongs to a family is told by the bits of its patterns. -/
theorem recognises_of_agreeOn {family : Family} (agree : AgreeOn mask first second)
    (asked : ∀ pattern ∈ family.accepted ++ family.excluded, pattern.mask &&& mask = pattern.mask)
    (recognised : family.recognises first = true) : family.recognises second = true := by
  have same (pattern : Pattern) (member : pattern ∈ family.accepted ++ family.excluded) :
      pattern.matches first = pattern.matches second := by
    have on : first &&& pattern.mask = second &&& pattern.mask :=
      agree.within (asked pattern member)
    rw [Pattern.matches, Pattern.matches, on]
  rw [recognises_iff] at recognised ⊢
  obtain ⟨⟨pattern, member, matched⟩, apart⟩ := recognised
  constructor
  · refine ⟨pattern, member, ?_⟩
    rwa [← same pattern (List.mem_append_left _ member)]
  · intro pattern member
    rw [← same pattern (List.mem_append_right _ member)]
    exact apart pattern member

/-- A family that recognises a word is the one it is decoded with, doublewords before halfwords. -/
theorem ofWord?_of_recognises {family : Family} {word : Word}
    (recognised : family.recognises word = true)
    (first : family = halfTransfer → doubleTransfer.recognises word = false) :
    ofWord? word = some family := by
  have member : family ∈ recognisers word :=
    List.mem_filter.mpr ⟨mem_decodingOrder family, recognised⟩
  rw [ofWord?, first?, ← List.head?_filter]
  change (recognisers word).head? = some family
  -- The family recognises the word, so it is the only one or one of the two.
  rcases recognisers_cases word with unrecognised | ⟨only, one⟩ | both
  · rw [unrecognised] at member
    cases member
  · rw [one, List.mem_singleton] at member
    rw [one, member]
    rfl
  · have double := (recognisers_eq_pair_iff word).mp both
    rw [both] at member ⊢
    simp only [List.mem_cons, List.not_mem_nil, or_false] at member
    rcases member with rfl | rfl
    · rfl
    · rw [first rfl] at double
      cases double

end Family

namespace Instruction

variable {first second : Word} {instruction : Instruction}

/-- The family whose words are decoded to the instruction. -/
def family : Instruction → Family
  | dataProcessing .. => .dataProcessing
  | statusRead .. | statusWrite .. => .statusTransfer
  | multiply .. => .multiply
  | multiplyLong .. => .multiplyLong
  | swap .. => .swap
  | branchExchange _ => .branchExchange
  | byteReverse .. => .byteReverse
  | halfTransfer .. => .halfTransfer
  | doubleTransfer .. => .doubleTransfer
  | singleTransfer .. => .singleTransfer
  | blockTransfer .. => .blockTransfer
  | branch .. => .branch
  | coprocessorTransfer .. => .coprocessorTransfer
  | coprocessorOperation _ => .coprocessorOperation
  | coprocessorRegister .. => .coprocessorRegister
  | softwareInterrupt _ => .softwareInterrupt

theorem family_of_build {family : Family} (built : family.build first = .ok instruction) :
    instruction.family = family := by
  cases family
  case halfTransfer =>
    simp only [Family.build] at built
    split at built <;> cases built
    rfl
  case statusTransfer =>
    simp only [Family.build] at built
    split at built <;> cases built <;> rfl
  all_goals
    cases built
    rfl

theorem decode_of_recognises {family : Family} (recognised : family.recognises first = true)
    (before : family = .halfTransfer → Family.doubleTransfer.recognises first = false)
    (built : family.build first = .ok instruction) (accepted : instruction.objection? = none) :
    decode first = .ok instruction := by
  have found := Family.ofWord?_of_recognises recognised before
  rw [Family.ofWord?] at found
  simp only [decode, decodeWith, found, built, accepted]

theorem agreeOn_of_decode (decoded : decode first = .ok instruction)
    (also : decode second = .ok instruction) :
    AgreeOn (0x0FFFFFFF &&& ~~~instruction.unread) first second := by
  obtain ⟨family, found, built, _⟩ := decode_eq_ok decoded
  obtain ⟨other, otherFound, otherBuilt, _⟩ := decode_eq_ok also
  -- The instruction tells the family, so both words are of the same one.
  have same : other = family := (family_of_build otherBuilt).symm.trans (family_of_build built)
  subst same
  exact Family.agreeOn_of_build (Family.ofWord?_eq_some found) (Family.ofWord?_eq_some otherFound)
    built otherBuilt

/-- The condition is never left out. -/
theorem condition_read (instruction : Instruction) :
    span 32 28 31 &&& ~~~instruction.unread = span 32 28 31 := by
  have plain (offset : PlainOffset) : span 32 28 31 &&& ~~~offset.unread = span 32 28 31 := by
    cases offset <;> simp only [PlainOffset.unread] <;> decide
  cases instruction
  case halfTransfer direction kind rd addressing => exact plain addressing.offset
  case doubleTransfer direction rd addressing => exact plain addressing.offset
  all_goals
    simp only [unread]
    decide

theorem unread_of_transfer {family : Family} (built : family.build first = .ok instruction)
    (transfers : family = .doubleTransfer ∨ family = .halfTransfer) :
    instruction.unread = if test first 22 then 0 else span 32 8 11 := by
  rw [← Family.unread_plainOffsetOf]
  rcases transfers with rfl | rfl
  · cases built
    rfl
  · simp only [Family.build] at built
    split at built <;> cases built
    rfl

/-- A word that differs in unread bits only is decoded like the other. -/
theorem decode_of_agreeOn (decoded : decode first = .ok instruction)
    (agree : AgreeOn (~~~instruction.unread) first second) : decode second = .ok instruction := by
  obtain ⟨family, found, built, accepted⟩ := decode_eq_ok decoded
  have recognised := Family.ofWord?_eq_some found
  have equal (everything : instruction.unread = 0) : decode second = .ok instruction := by
    rw [everything] at agree
    rwa [← eq_of_agreeOn_allOnes (agree.within (by decide))]
  -- Where a bit is left out, neither the patterns nor the operands ask for it.
  cases family
  case coprocessorTransfer =>
    cases built
    simp only [unread] at agree
    have also := Family.recognises_of_agreeOn agree (by decide) recognised
    exact decode_of_recognises also (by simp) (Family.coprocessorTransfer_congr agree).symm accepted
  case coprocessorOperation =>
    cases built
    simp only [unread] at agree
    have also := Family.recognises_of_agreeOn agree (by decide) recognised
    exact decode_of_recognises also (by simp) (Family.coprocessorOperation_congr agree).symm accepted
  case coprocessorRegister =>
    cases built
    simp only [unread] at agree
    have also := Family.recognises_of_agreeOn agree (by decide) recognised
    exact decode_of_recognises also (by simp) (Family.coprocessorRegister_congr agree).symm accepted
  case doubleTransfer =>
    have open_bits := unread_of_transfer built (Or.inl rfl)
    cases form : test first 22 with
    | true => exact equal (by rw [open_bits, form, if_pos rfl])
    | false =>
      rw [open_bits, form, if_neg Bool.false_ne_true] at agree
      have also := Family.recognises_of_agreeOn agree (by decide) recognised
      rw [Family.doubleTransfer_congr agree form] at built
      exact decode_of_recognises also (by simp) built accepted
  case halfTransfer =>
    have open_bits := unread_of_transfer built (Or.inr rfl)
    cases form : test first 22 with
    | true => exact equal (by rw [open_bits, form, if_pos rfl])
    | false =>
      rw [open_bits, form, if_neg Bool.false_ne_true] at agree
      have also := Family.recognises_of_agreeOn agree (by decide) recognised
      rw [Family.halfTransfer_congr agree form] at built
      refine decode_of_recognises also (fun _ => ?_) built accepted
      -- A doubleword transfer would have been one before.
      rw [Bool.eq_false_iff]
      intro double
      have before := Family.recognises_of_agreeOn agree.symm (by decide) double
      rw [Family.not_doubleTransfer_of_ofWord? found] at before
      cases before
  case statusTransfer =>
    apply equal
    simp only [Family.build] at built
    split at built <;> cases built <;> rfl
  all_goals
    cases built
    exact equal rfl

end Instruction

namespace Opcode

variable {first second : Word} {opcode : Opcode}

theorem decode_eq_ok_iff {word : Word} :
    decode word = .ok opcode ↔
      Instruction.decode word = .ok opcode.instruction ∧ .ofWord word = opcode.condition ∧
        word = opcode.raw := by
  obtain ⟨instruction, condition, raw⟩ := opcode
  cases found : Instruction.decode word with
  | error fault => simp [decode, found, Except.map]
  | ok decoded => simp [decode, found, Except.map]

/-- Words are decoded alike exactly if they differ in unread bits only. -/
theorem decodes_alike_iff_differs_in_unread (decoded : decode first = .ok opcode) :
    (∃ other, decode second = .ok other ∧ other.instruction = opcode.instruction ∧
        other.condition = opcode.condition) ↔
      ∀ index < 32, test opcode.instruction.unread index = false →
        test second index = test first index := by
  obtain ⟨instruction, condition, raw⟩ := decode_eq_ok_iff.mp decoded
  constructor
  · rintro ⟨other, also, sameInstruction, sameCondition⟩ index bound read
    obtain ⟨otherInstruction, otherCondition, _⟩ := decode_eq_ok_iff.mp also
    rw [sameInstruction] at otherInstruction
    rw [sameCondition, ← condition] at otherCondition
    have below := Instruction.agreeOn_of_decode instruction otherInstruction
    have above := Condition.agreeOn_of_ofWord otherCondition
    -- The condition lies above the operands.
    by_cases operand : index ≤ 27
    · refine (below.test_eq bound ?_).symm
      have low : test (0x0FFFFFFF : Word) index = true := by
        rw [show (0x0FFFFFFF : Word) = span 32 0 27 by decide]
        exact (test_span bound).mpr ⟨Nat.zero_le _, operand⟩
      simp only [test] at low read ⊢
      rw [BitVec.getLsbD_and, BitVec.getLsbD_not, low, read, decide_eq_true bound]
      rfl
    · exact above.test_eq bound ((test_span bound).mpr ⟨by omega, by omega⟩)
  · intro same
    have agree : AgreeOn (~~~opcode.instruction.unread) first second := by
      rw [agreeOn_iff]
      intro index bound set
      refine (same index bound ?_).symm
      simpa [test, bound] using set
    refine ⟨⟨opcode.instruction, opcode.condition, second⟩, ?_, rfl, rfl⟩
    refine decode_eq_ok_iff.mpr ⟨Instruction.decode_of_agreeOn instruction agree, ?_, rfl⟩
    have read := agree.within (Instruction.condition_read opcode.instruction)
    rw [← condition, Condition.ofWord, Condition.ofWord, (field_eq_iff (by decide)).mpr read]

/--
Two words that decode to the same instruction under the same condition are equal, or differ in the
bits that this instruction leaves unread; and any change of those bits decodes to the same again.
-/
theorem decoding_loses_no_operand {one other : Opcode} (decoded : decode first = .ok one)
    (also : decode second = .ok other) (instruction : one.instruction = other.instruction)
    (condition : one.condition = other.condition) :
    (one.instruction.unread = 0 → first = second) ∧
      (∀ index < 32, test one.instruction.unread index = false →
        test first index = test second index) ∧
      ∀ word, (∀ index < 32, test one.instruction.unread index = false →
          test word index = test first index) →
        ∃ alike, decode word = .ok alike ∧ alike.instruction = one.instruction ∧
          alike.condition = one.condition := by
  have read := (decodes_alike_iff_differs_in_unread decoded).mp
    ⟨other, also, instruction.symm, condition.symm⟩
  refine ⟨fun everything => ?_, fun index bound kept => (read index bound kept).symm,
    fun word same => (decodes_alike_iff_differs_in_unread decoded).mpr same⟩
  apply BitVec.eq_of_getLsbD_eq
  intro index bound
  refine (read index bound ?_).symm
  rw [everything]
  exact BitVec.getLsbD_zero

/-- Bits 8 to 11 of `LDRH R0, [R1, R2]` may be anything, here all clear, all set or mixed. -/
theorem halfword_with_register_offset_leaves_four_bits :
    ∃ one other alike, decode 0xE19100B2 = .ok one ∧ decode 0xE1910FB2 = .ok other ∧
      one.instruction = other.instruction ∧ one.condition = other.condition ∧
      (∀ index < 32, test one.instruction.unread index = false →
        test (0xE19100B2 : Word) index = test (0xE1910FB2 : Word) index) ∧
      decode 0xE19105B2 = .ok alike ∧ alike.instruction = one.instruction := by
  let instruction : Instruction :=
    .halfTransfer .load .unsignedHalf 0 ⟨1, .register 2, .pre, .up, false⟩
  have decoded : decode 0xE19100B2 = .ok ⟨instruction, .al, 0xE19100B2⟩ := rfl
  have also : decode 0xE1910FB2 = .ok ⟨instruction, .al, 0xE1910FB2⟩ := rfl
  obtain ⟨_, agree, change⟩ := decoding_loses_no_operand decoded also rfl rfl
  obtain ⟨alike, found, same, _⟩ := change 0xE19105B2 (by decide)
  exact ⟨_, _, alike, decoded, also, rfl, rfl, agree, found, same⟩

end Opcode

end ArmBoard
