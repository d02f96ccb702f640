import ArmBoard.Proofs.Decoding.Priority

/-!
# Decoded instructions stay within bounds

A field of four bits names one of sixteen registers and a field of five bits
one of thirty-two distances, so a decoded instruction names no register and no
distance beyond them. What the width of a field cannot exclude is refused: the
second register of a pair is never r15, a halfword store is never signed and a
test always sets the flags.
-/
namespace ArmBoard

/-- The register that a status source names, if it does. -/
def StatusSource.registers : StatusSource → List Nat
  | immediate _ _ => []
  | register number => [number]

/-- The registers that an operand names. -/
def Operand.registers : Operand → List Nat
  | immediate _ _ => []
  | register (.immediate _) _ number => [number]
  | register (.register amount) _ number => [amount, number]

/-- The distances that an operand encodes. An immediate is rotated by twice the encoded number. -/
def Operand.distances : Operand → List Nat
  | immediate _ rotate => [2 * rotate]
  | register (.immediate amount) _ _ => [amount]
  | register (.register _) _ _ => []

namespace Instruction

/-- All registers that executing the instruction looks up, those of a listed block apart. -/
def registers : Instruction → List Nat
  | dataProcessing _ _ rn rd operand => rn :: rd :: operand.registers
  | statusRead _ rd => [rd]
  | statusWrite _ source _ => source.registers
  | multiply _ _ rd rn rs rm => [rd, rn, rs, rm]
  | multiplyLong _ _ rdHi rdLo rs rm => [rdHi, rdLo, rs, rm]
  | swap _ rn rd rm => [rn, rd, rm]
  | branchExchange rm => [rm]
  | byteReverse _ rd rm => [rd, rm]
  | halfTransfer _ _ rd addressing =>
      rd :: addressing.base :: addressing.offset.register?.toList
  | doubleTransfer _ rd addressing =>
      rd :: (rd + 1) :: addressing.base :: addressing.offset.register?.toList
  | singleTransfer _ _ rd addressing =>
      rd :: addressing.base :: addressing.offset.register?.toList
  | blockTransfer _ _ _ _ _ rn _ => [rn]
  | branch _ _ | coprocessorTransfer .. | coprocessorOperation _ | coprocessorRegister _ _
  | softwareInterrupt _ => []

/-- All distances by which the instruction tells the shifter to move a value. -/
def distances : Instruction → List Nat
  | dataProcessing _ _ _ _ operand => operand.distances
  | statusWrite _ (.immediate _ rotate) _ => [2 * rotate]
  | singleTransfer _ _ _ ⟨_, .register amount _ _, _, _, _⟩ => [amount]
  | _ => []

/-- Halfword stores come in one kind only. -/
def storesPlainHalves : Instruction → Prop
  | halfTransfer .store kind _ _ => kind = .unsignedHalf
  | _ => True

/-- Only a test that sets the flags does anything, and only such a test is decoded. -/
def testsSetFlags : Instruction → Prop
  | dataProcessing op setFlags _ _ _ => op.isTest = true → setFlags = true
  | _ => True

/-- What execution relies on: every number is in range and the operands have a meaning. -/
structure WithinBounds (instruction : Instruction) : Prop where
  registers_lt : ∀ number ∈ instruction.registers, number < 16
  distances_lt : ∀ distance ∈ instruction.distances, distance < 32
  plainHalves : instruction.storesPlainHalves
  accepted : instruction.objection? = none

theorem WithinBounds.exists_fin {instruction : Instruction} (bounds : instruction.WithinBounds)
    (number : Nat) (named : number ∈ instruction.registers) :
    ∃ register : Fin 16, register.val = number :=
  ⟨⟨number, bounds.registers_lt number named⟩, rfl⟩

end Instruction

namespace Family

theorem registerAt_lt (word : Word) (low : Nat) : registerAt word low < 16 := by
  have bound := Bits.field_lt word low (low + 3)
  rwa [show low + 3 + 1 - low = 4 by omega] at bound

theorem registers_operandOf (word : Word) : ∀ number ∈ (operandOf word).registers, number < 16 := by
  intro number member
  unfold operandOf at member
  split at member
  · simp [Operand.registers] at member
  · split at member
    · simp only [Operand.registers, List.mem_cons, List.not_mem_nil, or_false] at member
      rcases member with rfl | rfl <;> exact registerAt_lt word _
    · simp only [Operand.registers, List.mem_singleton] at member
      subst number
      exact registerAt_lt word 0

theorem distances_operandOf (word : Word) :
    ∀ distance ∈ (operandOf word).distances, distance < 32 := by
  intro distance member
  have rotate : Bits.field word 8 11 < 16 := Bits.field_lt word 8 11
  have amount : Bits.field word 7 11 < 32 := Bits.field_lt word 7 11
  unfold operandOf at member
  split at member
  · simp only [Operand.distances, List.mem_singleton] at member
    omega
  · split at member
    · simp [Operand.distances] at member
    · simp only [Operand.distances, List.mem_singleton] at member
      omega

theorem registers_statusSourceOf (word : Word) :
    ∀ number ∈ (statusSourceOf word).registers, number < 16 := by
  intro number member
  unfold statusSourceOf at member
  split at member
  · simp [StatusSource.registers] at member
  · simp only [StatusSource.registers, List.mem_singleton] at member
    subst number
    exact registerAt_lt word 0

theorem register?_plainOffsetOf (word : Word) :
    ∀ number ∈ (plainOffsetOf word).register?, number < 16 := by
  intro number member
  unfold plainOffsetOf at member
  split at member
  · simp [PlainOffset.register?] at member
  · simp only [PlainOffset.register?, Option.mem_def, Option.some.injEq] at member
    subst number
    exact registerAt_lt word 0

theorem register?_shiftedOffsetOf (word : Word) :
    ∀ number ∈ (shiftedOffsetOf word).register?, number < 16 := by
  intro number member
  unfold shiftedOffsetOf at member
  split at member
  · simp only [ShiftedOffset.register?, Option.mem_def, Option.some.injEq] at member
    subst number
    exact registerAt_lt word 0
  · simp [ShiftedOffset.register?] at member

theorem bits_of_halfTransfer {word : Word} (recognised : halfTransfer.recognises word = true) :
    Bits.field word 25 27 = 0 ∧ Bits.test word 7 = true ∧ Bits.test word 4 = true ∧
      (Bits.test word 5 = true ∨ Bits.test word 6 = true) := by
  rw [classField_eq_zero_iff]
  obtain ⟨pattern, member, matched⟩ := ((recognises_iff _ word).mp recognised).1
  simp only [accepted, List.mem_cons, List.not_mem_nil, or_false] at member
  rcases member with rfl | rfl
  · have bit := (Pattern.matches_iff_asked (by decide) word).mp matched
    exact ⟨⟨bit 25 (by decide), bit 26 (by decide), bit 27 (by decide)⟩, bit 7 (by decide),
      bit 4 (by decide), Or.inr (bit 6 (by decide))⟩
  · have bit := (Pattern.matches_iff_asked (by decide) word).mp matched
    exact ⟨⟨bit 25 (by decide), bit 26 (by decide), bit 27 (by decide)⟩, bit 7 (by decide),
      bit 4 (by decide), Or.inl (bit 5 (by decide))⟩

theorem halfKind_of_recognises {word : Word} (recognised : halfTransfer.recognises word = true) :
    ∃ kind, HalfKind.ofCode? (Bits.field word 5 6) = some kind := by
  obtain ⟨_, _, _, nonzero⟩ := bits_of_halfTransfer recognised
  rw [Bits.field_pair]
  cases five : Bits.test word 5 <;> cases six : Bits.test word 6
  · simp [five, six] at nonzero
  · exact ⟨.signedByte, rfl⟩
  · exact ⟨.unsignedHalf, rfl⟩
  · exact ⟨.signedHalf, rfl⟩

/-- A family that recognises a word can read its operands. -/
theorem build_of_recognises {family : Family} {word : Word}
    (recognised : family.recognises word = true) :
    ∃ instruction, family.build word = .ok instruction := by
  cases family
  -- The kind of a halfword transfer is the only field that may have no meaning.
  case halfTransfer =>
    obtain ⟨kind, found⟩ := halfKind_of_recognises recognised
    simp only [build, found]
    exact ⟨_, rfl⟩
  case statusTransfer =>
    simp only [build]
    split <;> exact ⟨_, rfl⟩
  all_goals exact ⟨_, rfl⟩

theorem ofWord?_eq_some {word : Word} {family : Family} (found : ofWord? word = some family) :
    family.recognises word = true := by
  have recognised := List.find?_some found
  exact recognised

/-- Only words that are no doubleword transfers are decoded as halfword transfers. -/
theorem not_doubleTransfer_of_ofWord? {word : Word} (found : ofWord? word = some halfTransfer) :
    doubleTransfer.recognises word = false := by
  rw [Bool.eq_false_iff]
  intro recognised
  have both := (recognisers_eq_pair_iff word).mpr recognised
  rw [ofWord?, first?, ← List.head?_filter] at found
  change (recognisers word).head? = _ at found
  rw [both] at found
  cases found

/-- With L clear, kinds 2 and 3 are doubleword transfers, so a halfword store has kind 1. -/
theorem halfKind_of_store {word : Word} (found : ofWord? word = some halfTransfer)
    (stores : Bits.test word 20 = false) :
    HalfKind.ofCode? (Bits.field word 5 6) = some .unsignedHalf := by
  obtain ⟨high, seven, four, nonzero⟩ := bits_of_halfTransfer (ofWord?_eq_some found)
  have six : Bits.test word 6 = false := by
    rw [Bool.eq_false_iff]
    intro six
    have double := (recognises_doubleTransfer_iff word).mpr ⟨high, seven, four, stores, six⟩
    rw [not_doubleTransfer_of_ofWord? found] at double
    cases double
  have five : Bits.test word 5 = true := by simpa [six] using nonzero
  rw [Bits.field_pair, five, six]
  rfl

theorem setFlags_of_isTest {word : Word}
    (recognised : dataProcessing.recognises word = true)
    (test : (AluOp.ofCode (Bits.field word 21 24)).isTest = true) : Bits.test word 20 = true := by
  have known : ∀ code < 16, (AluOp.ofCode code).isTest = true →
      code.testBit 3 = true ∧ code.testBit 2 = false := by
    decide
  have bit (index : Nat) : (Bits.field word 21 24).testBit index =
      (decide (21 + index ≤ 24) && Bits.test word (21 + index)) := by
    rw [← Bits.test_slice, Bits.field, BitVec.testBit_toNat]
    rfl
  -- The codes of the tests begin with 10, and the flag is all that tells a test from the pattern
  -- that this family leaves to others.
  obtain ⟨high, low⟩ := known _ (Bits.field_lt word 21 24) test
  rw [bit] at high low
  have silent := ((recognises_iff _ word).mp recognised).2 silentTestPattern
    (by simp [excluded])
  rw [Bool.eq_false_iff] at silent
  rw [← Bool.not_eq_false]
  intro clear
  apply silent
  rw [Pattern.matches_iff_asked (by decide)]
  have asked : silentTestPattern.asked = [20, 23, 24] := by decide
  intro index member
  rw [asked] at member
  simp only [List.mem_cons, List.not_mem_nil, or_false] at member
  rcases member with rfl | rfl | rfl
  · exact clear
  · exact low
  · exact high

end Family

namespace Instruction

theorem decode_eq_ok {word : Word} {instruction : Instruction}
    (decoded : decode word = .ok instruction) :
    ∃ family, Family.ofWord? word = some family ∧ family.build word = .ok instruction ∧
      instruction.objection? = none := by
  unfold decode decodeWith at decoded
  split at decoded
  · cases decoded
  · next family found =>
    split at decoded
    · cases decoded
    · next built =>
      split at decoded
      · cases decoded
      · next accepted =>
        cases decoded
        exact ⟨family, found, built, accepted⟩

/-- Decoding fails only with an unknown word or with an objection to a known one. -/
theorem decode_eq_error {word : Word} {fault : Fault} (failed : decode word = .error fault) :
    fault = .unknown word 0 ∨ ∃ objection, fault = .illegal word 0 objection := by
  unfold decode decodeWith at failed
  split at failed
  · cases failed
    exact Or.inl rfl
  · next family found =>
    obtain ⟨instruction, built⟩ := Family.build_of_recognises (Family.ofWord?_eq_some found)
    rw [built] at failed
    simp only at failed
    split at failed
    · next objection _ =>
      cases failed
      exact Or.inr ⟨objection, rfl⟩
    · cases failed

/-- The second register of an accepted pair is not r15 or beyond. -/
theorem pair_lt {rd base : Nat} {offset : Option Nat} (bound : rd < 16)
    (accepted : pairObjection? rd base offset = none) : rd + 1 < 15 := by
  unfold pairObjection? at accepted
  split at accepted
  · cases accepted
  · next even =>
    split at accepted
    · cases accepted
    · next low =>
      simp only [bne_iff_ne, ne_eq, Decidable.not_not, beq_iff_eq] at even low
      omega

theorem pair_accepted {direction : Direction} {rd : Nat} {addressing : Addressing PlainOffset}
    (accepted : (doubleTransfer direction rd addressing).objection? = none) :
    addressing.baseObjection? = none ∧
      pairObjection? rd addressing.base addressing.offset.register? = none := by
  simp only [objection?, Option.orElse_eq_orElse, Option.orElse_eq_or,
    Option.or_eq_none_iff] at accepted
  exact ⟨accepted.1, accepted.2.2⟩

/-- What a transfer names: a register, its base and perhaps an offset. -/
theorem lt_of_transfer {rd base : Nat} {offset : Option Nat}
    (inside : ∀ number ∈ rd :: base :: offset.toList, number < 16) :
    rd < 16 ∧ base < 16 ∧ ∀ number ∈ offset, number < 16 := by
  refine ⟨inside rd (by simp), inside base (by simp), fun number member => inside number ?_⟩
  exact List.mem_cons_of_mem _ (List.mem_cons_of_mem _ (Option.mem_toList.mpr member))

/-- The registers that a transfer of one of them names. -/
theorem exists_fin_of_transfer {rd base : Nat} {offset : Option Nat}
    (inside : ∀ number ∈ rd :: base :: offset.toList, number < 16) :
    (∃ register : Fin 16, register.val = rd) ∧ (∃ rn : Fin 16, base = rn) ∧
      ∀ number ∈ offset, number < 16 := by
  obtain ⟨first, second, third⟩ := lt_of_transfer inside
  exact ⟨⟨⟨rd, first⟩, rfl⟩, ⟨⟨base, second⟩, rfl⟩, third⟩

/-- An accepted pair lies below r15, with its base and its offset in range. -/
theorem WithinBounds.of_pair {direction : Direction} {rd : Nat}
    {addressing : Addressing PlainOffset}
    (bounds : (doubleTransfer direction rd addressing).WithinBounds) :
    rd + 1 < 15 ∧ addressing.base < 16 ∧
      (∀ number ∈ addressing.offset.register?, number < 16) ∧
      addressing.baseObjection? = none := by
  have inside := bounds.registers_lt rd (by simp [registers])
  obtain ⟨_, base, offset⟩ := lt_of_transfer fun number member =>
    bounds.registers_lt number (List.mem_cons_of_mem rd member)
  obtain ⟨baseAccepted, pairAccepted⟩ := pair_accepted bounds.accepted
  exact ⟨pair_lt inside pairAccepted, base, offset, baseAccepted⟩

/-- The registers that an accepted transfer of a pair names. -/
theorem WithinBounds.exists_fin_of_pair {direction : Direction} {number : Nat}
    {addressing : Addressing PlainOffset}
    (bounds : (doubleTransfer direction number addressing).WithinBounds) :
    ∃ rd next rn : Fin 16, rd.val = number ∧ next.val = rd.val + 1 ∧ next.val < 15 ∧
      addressing.base = rn ∧ ∀ number ∈ addressing.offset.register?, number < 16 := by
  obtain ⟨below, base, offset, -⟩ := bounds.of_pair
  exact ⟨⟨number, by omega⟩, ⟨number + 1, by omega⟩, ⟨_, base⟩, rfl, rfl, below, rfl, offset⟩

theorem transfer_accepted {offset : Type} {addressing : Addressing offset} {number : Option Nat}
    (accepted : (addressing.baseObjection? <|> offsetObjection? number) = none) :
    addressing.baseObjection? = none := by
  simp only [Option.orElse_eq_orElse, Option.orElse_eq_or, Option.or_eq_none_iff] at accepted
  exact accepted.1

theorem statusRead_accepted {kind : StatusKind} {rd : Nat}
    (accepted : (statusRead kind rd).objection? = none) : rd ≠ 15 := by
  rintro rfl
  simp [objection?] at accepted

theorem multiply_accepted {variant : Multiplication} {setFlags : Bool} {rd rn rs rm : Nat}
    (accepted : (multiply variant setFlags rd rn rs rm).objection? = none) : rd ≠ 15 := by
  rintro rfl
  simp [objection?] at accepted

theorem multiplyLong_accepted {variant : LongMultiplication} {setFlags : Bool}
    {rdHi rdLo rs rm : Nat}
    (accepted : (multiplyLong variant setFlags rdHi rdLo rs rm).objection? = none) :
    rdHi ≠ 15 ∧ rdLo ≠ 15 := by
  constructor
  · rintro rfl
    simp [objection?] at accepted
  · rintro rfl
    simp [objection?] at accepted

theorem swap_accepted {quantity : Quantity} {rn rd rm : Nat}
    (accepted : (swap quantity rn rd rm).objection? = none) : rd ≠ 15 := by
  rintro rfl
  simp [objection?] at accepted

theorem blockTransfer_accepted {direction : Direction} {indexing : Indexing}
    {offsetting : Offsetting} {statusBit writeBack : Bool} {rn : Nat} {registers : Half}
    (accepted : (blockTransfer direction indexing offsetting statusBit writeBack rn
      registers).objection? = none) : writeBack = true → rn ≠ 15 := by
  rintro rfl rfl
  simp [objection?] at accepted

theorem byteReverse_accepted {variant : ByteReversal} {rd rm : Nat}
    (accepted : (byteReverse variant rd rm).objection? = none) : rd ≠ 15 := by
  rintro rfl
  simp [objection?] at accepted

theorem registers_of_build {family : Family} {word : Word} {instruction : Instruction}
    (built : family.build word = .ok instruction) (accepted : instruction.objection? = none) :
    ∀ number ∈ instruction.registers, number < 16 := by
  intro number member
  have field := Family.registerAt_lt word
  cases family
  case halfTransfer =>
    simp only [Family.build] at built
    split at built
    · cases built
      simp only [registers, Family.addressingOf, List.mem_cons, Option.mem_toList] at member
      rcases member with rfl | rfl | offset
      · exact field 12
      · exact field 16
      · exact Family.register?_plainOffsetOf word number offset
    · cases built
  case doubleTransfer =>
    cases built
    -- The second register of a pair is not in the encoding; the check keeps it below r15.
    have pair := pair_lt (field 12) (pair_accepted accepted).2
    simp only [registers, Family.addressingOf, List.mem_cons, Option.mem_toList] at member
    rcases member with rfl | rfl | rfl | offset
    · exact field 12
    · omega
    · exact field 16
    · exact Family.register?_plainOffsetOf word number offset
  case statusTransfer =>
    simp only [Family.build] at built
    split at built
    · cases built
      simp only [registers, List.mem_singleton] at member
      subst number
      exact field 12
    · cases built
      exact Family.registers_statusSourceOf word number member
  case dataProcessing =>
    cases built
    simp only [registers, List.mem_cons] at member
    rcases member with rfl | rfl | operand
    · exact field 16
    · exact field 12
    · exact Family.registers_operandOf word number operand
  case singleTransfer =>
    cases built
    simp only [registers, Family.addressingOf, List.mem_cons, Option.mem_toList] at member
    rcases member with rfl | rfl | offset
    · exact field 12
    · exact field 16
    · exact Family.register?_shiftedOffsetOf word number offset
  case multiply | multiplyLong =>
    cases built
    simp only [registers, List.mem_cons, List.not_mem_nil, or_false] at member
    rcases member with rfl | rfl | rfl | rfl <;> exact field _
  case swap =>
    cases built
    simp only [registers, List.mem_cons, List.not_mem_nil, or_false] at member
    rcases member with rfl | rfl | rfl <;> exact field _
  case byteReverse =>
    cases built
    simp only [registers, List.mem_cons, List.not_mem_nil, or_false] at member
    rcases member with rfl | rfl <;> exact field _
  case branchExchange | blockTransfer =>
    cases built
    simp only [registers, List.mem_singleton] at member
    subst number
    exact field _
  all_goals
    cases built
    cases member

theorem distances_of_build {family : Family} {word : Word} {instruction : Instruction}
    (built : family.build word = .ok instruction) :
    ∀ distance ∈ instruction.distances, distance < 32 := by
  intro distance member
  have rotate : Bits.field word 8 11 < 16 := Bits.field_lt word 8 11
  have amount : Bits.field word 7 11 < 32 := Bits.field_lt word 7 11
  cases family
  case dataProcessing =>
    cases built
    exact Family.distances_operandOf word distance member
  case statusTransfer =>
    simp only [Family.build] at built
    split at built
    · cases built
      cases member
    · cases built
      unfold Family.statusSourceOf at member
      split at member
      · simp only [distances, List.mem_singleton] at member
        omega
      · cases member
  case singleTransfer =>
    cases built
    unfold Family.addressingOf Family.shiftedOffsetOf at member
    split at member
    · simp only [distances, List.mem_singleton] at member
      omega
    · cases member
  case halfTransfer =>
    simp only [Family.build] at built
    split at built
    · cases built
      cases member
    · cases built
  all_goals
    cases built
    cases member

theorem plainHalves_of_build {family : Family} {word : Word} {instruction : Instruction}
    (found : Family.ofWord? word = some family) (built : family.build word = .ok instruction) :
    instruction.storesPlainHalves := by
  cases family
  case halfTransfer =>
    simp only [Family.build] at built
    split at built
    · next kind known =>
      cases built
      cases loads : Bits.test word 20 with
      | false =>
        have plain := Family.halfKind_of_store found loads
        rw [known] at plain
        cases plain
        rfl
      | true => trivial
    · cases built
  case statusTransfer =>
    simp only [Family.build] at built
    split at built <;> cases built <;> trivial
  all_goals
    cases built
    trivial

theorem testsSetFlags_of_decode {word : Word} {instruction : Instruction}
    (decoded : decode word = .ok instruction) : instruction.testsSetFlags := by
  obtain ⟨family, found, built, _⟩ := decode_eq_ok decoded
  cases family
  case dataProcessing =>
    cases built
    exact Family.setFlags_of_isTest (Family.ofWord?_eq_some found)
  case halfTransfer | statusTransfer =>
    simp only [Family.build] at built
    split at built <;> cases built <;> trivial
  all_goals
    cases built
    trivial

/-- Whatever a word decodes to is within bounds. -/
theorem withinBounds_of_decode {word : Word} {instruction : Instruction}
    (decoded : decode word = .ok instruction) : instruction.WithinBounds := by
  obtain ⟨family, found, built, accepted⟩ := decode_eq_ok decoded
  exact ⟨registers_of_build built accepted, distances_of_build built,
    plainHalves_of_build found built, accepted⟩

end Instruction

end ArmBoard
