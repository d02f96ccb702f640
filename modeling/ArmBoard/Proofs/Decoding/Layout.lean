import ArmBoard.Proofs.Decoding.Operands

/-!
# Words of one family

The pattern of a family fixes some bits of its words and the operands tell the
others. For each family it is added up here what two of its words have in
common when they carry the same operands: all bits below the condition, or all
but those that the family leaves unread.
-/
namespace ArmBoard

open Bits

/-- The bits that a word of the family may have either way. -/
def Instruction.unread : Instruction → Word
  | halfTransfer _ _ _ addressing | doubleTransfer _ _ addressing => addressing.offset.unread
  | coprocessorTransfer .. => span 32 21 24
  | coprocessorOperation _ => span 32 0 3 ||| span 32 5 7 ||| span 32 12 23
  | coprocessorRegister .. =>
      span 32 0 3 ||| span 32 5 7 ||| span 32 12 19 ||| span 32 21 23
  | _ => 0

namespace Family

variable {first second : Word}

theorem agreeOn_of_matches {pattern : Pattern} (one : pattern.matches first = true)
    (other : pattern.matches second = true) : AgreeOn pattern.mask first second := by
  simp only [Pattern.matches, beq_iff_eq] at one other
  exact one.trans other.symm

/-- A family with a single pattern fixes the bits of that pattern. -/
theorem agreeOn_pattern {family : Family} {pattern : Pattern} (only : family.accepted = [pattern])
    (one : family.recognises first = true) (other : family.recognises second = true) :
    AgreeOn pattern.mask first second := by
  have matched {word : Word} (recognised : family.recognises word = true) :
      pattern.matches word = true := by
    obtain ⟨found, member, found_matches⟩ := ((recognises_iff family word).mp recognised).1
    rw [only, List.mem_singleton] at member
    rwa [← member]
  exact agreeOn_of_matches (matched one) (matched other)

/-- A word of a family misses some bit of every pattern that the family excludes. -/
theorem not_asked_of_excluded {family : Family} {pattern : Pattern} {word : Word}
    (recognised : family.recognises word = true) (member : pattern ∈ family.excluded)
    (within : pattern.value &&& pattern.mask = pattern.value) :
    ¬ ∀ index ∈ pattern.asked, test word index = test pattern.value index := by
  rw [← Pattern.matches_iff_asked within, Bool.not_eq_true]
  exact ((recognises_iff _ word).mp recognised).2 pattern member

theorem branchExchange_agrees (one : branchExchange.recognises first = true)
    (other : branchExchange.recognises second = true)
    (same : branchExchange.build first = branchExchange.build second) :
    AgreeOn 0x0FFFFFFF first second := by
  have pattern := agreeOn_pattern rfl one other
  simp only [build, Except.ok.injEq, Instruction.branchExchange.injEq] at same
  have rm := (registerAt_eq_iff (by decide)).mp same
  exact (pattern.union rm).within (by decide)

/-- Each of the three patterns is told by the variant. -/
theorem byteReverse_agrees (one : byteReverse.recognises first = true)
    (other : byteReverse.recognises second = true)
    (same : byteReverse.build first = byteReverse.build second) :
    AgreeOn 0x0FFFFFFF first second := by
  simp only [build, Except.ok.injEq, Instruction.byteReverse.injEq] at same
  obtain ⟨variant, rd, rm⟩ := same
  have rd := (registerAt_eq_iff (by decide)).mp rd
  have rm := (registerAt_eq_iff (by decide)).mp rm
  -- The variant is read from two bits that every pattern asks for.
  have variantOf {pattern : Pattern} {word : Word} (member : pattern ∈ byteReverse.accepted)
      (matched : pattern.matches word = true) :
      byteReversalOf word = byteReversalOf pattern.value := by
    have known : ∀ pattern ∈ byteReverse.accepted,
        pattern.value &&& pattern.mask = pattern.value ∧
          22 ∈ pattern.asked ∧ 7 ∈ pattern.asked := by
      decide
    obtain ⟨within, upper, lower⟩ := known pattern member
    have bit := (Pattern.matches_iff_asked within word).mp matched
    rw [byteReversalOf, byteReversalOf, bit 22 upper, bit 7 lower]
  obtain ⟨pattern, member, matched⟩ := ((recognises_iff _ first).mp one).1
  obtain ⟨also, alsoMember, alsoMatched⟩ := ((recognises_iff _ second).mp other).1
  have distinct : ∀ one ∈ byteReverse.accepted, ∀ other ∈ byteReverse.accepted,
      byteReversalOf one.value = byteReversalOf other.value → one = other := by decide
  rw [variantOf member matched, variantOf alsoMember alsoMatched] at variant
  obtain rfl := distinct pattern member also alsoMember variant
  have fixed : ∀ pattern ∈ byteReverse.accepted, pattern.mask = 0x0FFF0FF0 := by decide
  have pattern := agreeOn_of_matches matched alsoMatched
  rw [fixed _ member] at pattern
  exact ((pattern.union rd).union rm).within (by decide)

theorem swap_agrees (one : swap.recognises first = true) (other : swap.recognises second = true)
    (same : swap.build first = swap.build second) : AgreeOn 0x0FFFFFFF first second := by
  have pattern := agreeOn_pattern rfl one other
  simp only [build, Except.ok.injEq, Instruction.swap.injEq] at same
  obtain ⟨quantity, rn, rd, rm⟩ := same
  have quantity := agreeOn_of_choice (by decide) (by decide) quantity
  have rn := (registerAt_eq_iff (by decide)).mp rn
  have rd := (registerAt_eq_iff (by decide)).mp rd
  have rm := (registerAt_eq_iff (by decide)).mp rm
  exact ((((pattern.union quantity).union rn).union rd).union rm).within (by decide)

theorem multiplyLong_agrees (one : multiplyLong.recognises first = true)
    (other : multiplyLong.recognises second = true)
    (same : multiplyLong.build first = multiplyLong.build second) :
    AgreeOn 0x0FFFFFFF first second := by
  have pattern := agreeOn_pattern rfl one other
  simp only [build, Except.ok.injEq, Instruction.multiplyLong.injEq] at same
  obtain ⟨variant, setFlags, rdHi, rdLo, rs, rm⟩ := same
  obtain ⟨signed, accumulates⟩ := LongMultiplication.ofBits_inj variant
  have signed := (test_eq_iff (by decide)).mp signed
  have accumulates := (test_eq_iff (by decide)).mp accumulates
  have setFlags := (test_eq_iff (by decide)).mp setFlags
  have rdHi := (registerAt_eq_iff (by decide)).mp rdHi
  have rdLo := (registerAt_eq_iff (by decide)).mp rdLo
  have rs := (registerAt_eq_iff (by decide)).mp rs
  have rm := (registerAt_eq_iff (by decide)).mp rm
  have bits := (signed.union accumulates).union setFlags
  have registers := ((rdHi.union rdLo).union rs).union rm
  exact ((pattern.union bits).union registers).within (by decide)

theorem multiply_agrees (one : multiply.recognises first = true)
    (other : multiply.recognises second = true)
    (same : multiply.build first = multiply.build second) : AgreeOn 0x0FFFFFFF first second := by
  have pattern := agreeOn_pattern rfl one other
  simp only [build, Except.ok.injEq, Instruction.multiply.injEq] at same
  obtain ⟨variant, setFlags, rd, rn, rs, rm⟩ := same
  have variant := agreeOn_of_choice (by decide) (by decide) variant
  have setFlags := (test_eq_iff (by decide)).mp setFlags
  have rd := (registerAt_eq_iff (by decide)).mp rd
  have rn := (registerAt_eq_iff (by decide)).mp rn
  have rs := (registerAt_eq_iff (by decide)).mp rs
  have rm := (registerAt_eq_iff (by decide)).mp rm
  have registers := ((rd.union rn).union rs).union rm
  exact (((pattern.union variant).union setFlags).union registers).within (by decide)

/-- Outside the offset a transfer with a plain offset leaves nothing open. -/
theorem agreeOn_of_transfer {offset : PlainOffset}
    (rest : AgreeOn (0x0FBFF0F0 : Word) first second)
    (read : AgreeOn (0x00400F0F &&& ~~~offset.unread) first second) :
    AgreeOn (0x0FFFFFFF &&& ~~~offset.unread) first second := by
  cases offset with
  | immediate offset =>
    simp only [PlainOffset.unread] at read ⊢
    exact (rest.union read).within (by decide)
  | register number =>
    simp only [PlainOffset.unread] at read ⊢
    exact (rest.union read).within (by decide)

theorem doubleTransfer_agrees {instruction : Instruction}
    (one : doubleTransfer.recognises first = true) (other : doubleTransfer.recognises second = true)
    (built : doubleTransfer.build first = .ok instruction)
    (also : doubleTransfer.build second = .ok instruction) :
    AgreeOn (0x0FFFFFFF &&& ~~~instruction.unread) first second := by
  have pattern := agreeOn_pattern rfl one other
  cases built
  simp only [build, Except.ok.injEq, Instruction.doubleTransfer.injEq] at also
  obtain ⟨direction, rd, addressing⟩ := also
  have direction := agreeOn_of_choice (by decide) (by decide) direction.symm
  have rd := (registerAt_eq_iff (by decide)).mp rd.symm
  obtain ⟨addressing, offset⟩ := agreeOn_of_addressingOf addressing.symm
  have rest := ((pattern.union direction).union rd).union addressing
  exact agreeOn_of_transfer (rest.within (by decide)) (agreeOn_of_plainOffsetOf offset)

theorem halfTransfer_agrees {instruction : Instruction}
    (one : halfTransfer.recognises first = true) (other : halfTransfer.recognises second = true)
    (built : halfTransfer.build first = .ok instruction)
    (also : halfTransfer.build second = .ok instruction) :
    AgreeOn (0x0FFFFFFF &&& ~~~instruction.unread) first second := by
  have fixed : AgreeOn (span 32 25 27 ||| span 32 7 7 ||| span 32 4 4) first second := by
    obtain ⟨high, seven, four, _⟩ := bits_of_halfTransfer one
    obtain ⟨alsoHigh, alsoSeven, alsoFour, _⟩ := bits_of_halfTransfer other
    have high := (field_eq_iff (by decide)).mp (high.trans alsoHigh.symm)
    have seven := (test_eq_iff (by decide)).mp (seven.trans alsoSeven.symm)
    have four := (test_eq_iff (by decide)).mp (four.trans alsoFour.symm)
    exact (high.union seven).union four
  obtain ⟨kind, found⟩ := halfKind_of_recognises one
  obtain ⟨alsoKind, alsoFound⟩ := halfKind_of_recognises other
  simp only [build, found, Except.ok.injEq] at built
  subst built
  simp only [build, alsoFound, Except.ok.injEq, Instruction.halfTransfer.injEq] at also
  obtain ⟨direction, rfl, rd, addressing⟩ := also
  have kind := (field_eq_iff (by decide)).mp
    ((HalfKind.index_ofCode? found).trans (HalfKind.index_ofCode? alsoFound).symm)
  have direction := agreeOn_of_choice (by decide) (by decide) direction.symm
  have rd := (registerAt_eq_iff (by decide)).mp rd.symm
  obtain ⟨addressing, offset⟩ := agreeOn_of_addressingOf addressing.symm
  have rest := (((fixed.union kind).union direction).union rd).union addressing
  exact agreeOn_of_transfer (rest.within (by decide)) (agreeOn_of_plainOffsetOf offset)

/-- A status write is told from a read by its constructor, and its source by the kind of operand. -/
theorem statusTransfer_agrees (one : statusTransfer.recognises first = true)
    (other : statusTransfer.recognises second = true)
    (same : statusTransfer.build first = statusTransfer.build second) :
    AgreeOn 0x0FFFFFFF first second := by
  have written {word : Word} (recognised : statusTransfer.recognises word = true)
      (unlike : ¬ statusReadPattern.matches word = true) :
      (test word 25 = false ∧ statusWriteRegisterPattern.matches word = true) ∨
        (test word 25 = true ∧ statusWriteImmediatePattern.matches word = true) := by
    obtain ⟨pattern, member, matched⟩ := ((recognises_iff _ word).mp recognised).1
    simp only [accepted, List.mem_cons, List.not_mem_nil, or_false] at member
    rcases member with rfl | rfl | rfl
    · exact absurd matched unlike
    · exact Or.inl ⟨(Pattern.matches_iff_asked (by decide) word).mp matched 25 (by decide), matched⟩
    · exact Or.inr ⟨(Pattern.matches_iff_asked (by decide) word).mp matched 25 (by decide), matched⟩
  -- A read and a write are built by different constructors.
  by_cases reads : statusReadPattern.matches first = true <;>
    by_cases alsoReads : statusReadPattern.matches second = true
  · simp only [build, reads, alsoReads, if_true, Except.ok.injEq,
      Instruction.statusRead.injEq] at same
    obtain ⟨kind, rd⟩ := same
    have kind := agreeOn_of_choice (by decide) (by decide) kind
    have rd := (registerAt_eq_iff (by decide)).mp rd
    have pattern := agreeOn_of_matches reads alsoReads
    exact ((pattern.union kind).union rd).within (by decide)
  · simp [build, reads, alsoReads] at same
  · simp [build, reads, alsoReads] at same
  · simp only [build, reads, alsoReads, Bool.false_eq_true, if_false, Except.ok.injEq,
      Instruction.statusWrite.injEq] at same
    obtain ⟨kind, source, fields⟩ := same
    have kind := agreeOn_of_choice (by decide) (by decide) kind
    have fields := (slice_eq_iff (by decide)).mp fields
    rcases written one reads with ⟨form, matched⟩ | ⟨form, matched⟩ <;>
      rcases written other alsoReads with ⟨alsoForm, alsoMatched⟩ | ⟨alsoForm, alsoMatched⟩ <;>
      simp only [statusSourceOf, form, alsoForm, Bool.false_eq_true, if_false, if_true,
        reduceCtorEq, StatusSource.register.injEq, StatusSource.immediate.injEq] at source
    · have rm := (registerAt_eq_iff (by decide)).mp source
      have pattern := agreeOn_of_matches matched alsoMatched
      exact (((pattern.union kind).union fields).union rm).within (by decide)
    · have base := (slice_eq_iff (by decide)).mp source.1
      have rotate := (field_eq_iff (by decide)).mp source.2
      have pattern := agreeOn_of_matches matched alsoMatched
      exact ((((pattern.union kind).union fields).union base).union rotate).within (by decide)

theorem dataProcessing_agrees (one : dataProcessing.recognises first = true)
    (other : dataProcessing.recognises second = true)
    (same : dataProcessing.build first = dataProcessing.build second) :
    AgreeOn 0x0FFFFFFF first second := by
  -- Bits 7 and 4 together would belong to another family.
  have clear {word : Word} (recognised : dataProcessing.recognises word = true)
      (register : test word 25 = false) (four : test word 4 = true) : test word 7 = false := by
    rw [Bool.eq_false_iff]
    intro seven
    have asked : extensionPattern.asked = [4, 7, 25] := by decide
    apply not_asked_of_excluded recognised (show extensionPattern ∈ _ by decide) (by decide)
    rw [asked]
    simp only [List.forall_mem_cons, register, four, seven]
    exact ⟨rfl, rfl, rfl, List.forall_mem_nil _⟩
  have pattern := agreeOn_pattern rfl one other
  simp only [build, Except.ok.injEq, Instruction.dataProcessing.injEq] at same
  obtain ⟨op, setFlags, rn, rd, operand⟩ := same
  have op : AgreeOn (span 32 21 24) first second := by
    have bound (word : Word) : field word 21 24 < 16 := field_lt word 21 24
    apply (field_eq_iff (by decide)).mp
    rw [← AluOp.code_ofCode (bound first), ← AluOp.code_ofCode (bound second)]
    exact congrArg AluOp.code op
  have setFlags := (test_eq_iff (by decide)).mp setFlags
  have rn := (registerAt_eq_iff (by decide)).mp rn
  have rd := (registerAt_eq_iff (by decide)).mp rd
  have operand := agreeOn_of_operandOf (clear one) (clear other) operand
  have rest := ((op.union setFlags).union rn).union rd
  exact ((pattern.union rest).union operand).within (by decide)

theorem singleTransfer_agrees (one : singleTransfer.recognises first = true)
    (other : singleTransfer.recognises second = true)
    (same : singleTransfer.build first = singleTransfer.build second) :
    AgreeOn 0x0FFFFFFF first second := by
  have clear {word : Word} (recognised : singleTransfer.recognises word = true)
      (register : test word 25 = true) : test word 4 = false := by
    rw [Bool.eq_false_iff]
    intro four
    have asked : (Pattern.mk 0x02000010 0x02000010).asked = [4, 25] := by decide
    apply not_asked_of_excluded recognised (show ⟨0x02000010, 0x02000010⟩ ∈ _ by decide) (by decide)
    rw [asked]
    simp only [List.forall_mem_cons, register, four]
    exact ⟨rfl, rfl, List.forall_mem_nil _⟩
  have pattern := agreeOn_pattern rfl one other
  simp only [build, Except.ok.injEq, Instruction.singleTransfer.injEq] at same
  obtain ⟨direction, quantity, rd, addressing⟩ := same
  have direction := agreeOn_of_choice (by decide) (by decide) direction
  have quantity := agreeOn_of_choice (by decide) (by decide) quantity
  have rd := (registerAt_eq_iff (by decide)).mp rd
  obtain ⟨addressing, offset⟩ := agreeOn_of_addressingOf addressing
  have offset := agreeOn_of_shiftedOffsetOf (clear one) (clear other) offset
  have rest := ((direction.union quantity).union rd).union addressing
  exact ((pattern.union rest).union offset).within (by decide)

theorem blockTransfer_agrees (one : blockTransfer.recognises first = true)
    (other : blockTransfer.recognises second = true)
    (same : blockTransfer.build first = blockTransfer.build second) :
    AgreeOn 0x0FFFFFFF first second := by
  have pattern := agreeOn_pattern rfl one other
  simp only [build, Except.ok.injEq, Instruction.blockTransfer.injEq] at same
  obtain ⟨direction, indexing, offsetting, statusBit, writeBack, rn, listed⟩ := same
  have direction := agreeOn_of_choice (by decide) (by decide) direction
  have indexing := agreeOn_of_choice (by decide) (by decide) indexing
  have offsetting := agreeOn_of_choice (by decide) (by decide) offsetting
  have statusBit := (test_eq_iff (by decide)).mp statusBit
  have writeBack := (test_eq_iff (by decide)).mp writeBack
  have rn := (registerAt_eq_iff (by decide)).mp rn
  have listed : AgreeOn (span 32 0 15) first second := by
    -- The list is a slice of sixteen bits, so that narrowing it loses nothing.
    have narrow (word : Word) : ((slice word 0 15).setWidth 16).setWidth 32 = slice word 0 15 := by
      apply BitVec.eq_of_toNat_eq
      have bound : (slice word 0 15).toNat < 2 ^ 16 := field_lt word 0 15
      rw [BitVec.toNat_setWidth, BitVec.toNat_setWidth, Nat.mod_eq_of_lt bound,
        Nat.mod_eq_of_lt (by omega)]
    rw [← slice_eq_iff (by decide), ← narrow first, ← narrow second, listed]
  have bits := (((direction.union indexing).union offsetting).union statusBit).union writeBack
  exact (((pattern.union bits).union rn).union listed).within (by decide)

theorem branch_agrees (one : branch.recognises first = true)
    (other : branch.recognises second = true)
    (same : branch.build first = branch.build second) : AgreeOn 0x0FFFFFFF first second := by
  have pattern := agreeOn_pattern rfl one other
  simp only [build, Except.ok.injEq, Instruction.branch.injEq] at same
  have link := (test_eq_iff (by decide)).mp same.1
  have offset := agreeOn_of_branchOffsetOf same.2
  exact ((pattern.union link).union offset).within (by decide)

theorem coprocessorTransfer_agrees (one : coprocessorTransfer.recognises first = true)
    (other : coprocessorTransfer.recognises second = true)
    (same : coprocessorTransfer.build first = coprocessorTransfer.build second) :
    AgreeOn (0x0FFFFFFF &&& ~~~span 32 21 24) first second := by
  have pattern := agreeOn_pattern rfl one other
  simp only [build, Except.ok.injEq, Instruction.coprocessorTransfer.injEq] at same
  obtain ⟨direction, coprocessor, crd, rn, offset⟩ := same
  have direction := agreeOn_of_choice (by decide) (by decide) direction
  have coprocessor := (field_eq_iff (by decide)).mp coprocessor
  have crd := (registerAt_eq_iff (by decide)).mp crd
  have rn := (registerAt_eq_iff (by decide)).mp rn
  have offset := (field_eq_iff (by decide)).mp offset
  have operands := (((direction.union coprocessor).union crd).union rn).union offset
  exact (pattern.union operands).within (by decide)

theorem coprocessorOperation_agrees (one : coprocessorOperation.recognises first = true)
    (other : coprocessorOperation.recognises second = true)
    (same : coprocessorOperation.build first = coprocessorOperation.build second) :
    AgreeOn (0x0FFFFFFF &&& ~~~(span 32 0 3 ||| span 32 5 7 ||| span 32 12 23)) first second := by
  have pattern := agreeOn_pattern rfl one other
  simp only [build, Except.ok.injEq, Instruction.coprocessorOperation.injEq] at same
  have coprocessor := (field_eq_iff (by decide)).mp same
  exact (pattern.union coprocessor).within (by decide)

theorem coprocessorRegister_agrees (one : coprocessorRegister.recognises first = true)
    (other : coprocessorRegister.recognises second = true)
    (same : coprocessorRegister.build first = coprocessorRegister.build second) :
    AgreeOn (0x0FFFFFFF &&&
      ~~~(span 32 0 3 ||| span 32 5 7 ||| span 32 12 19 ||| span 32 21 23)) first second := by
  have pattern := agreeOn_pattern rfl one other
  simp only [build, Except.ok.injEq, Instruction.coprocessorRegister.injEq] at same
  have direction := agreeOn_of_choice (by decide) (by decide) same.1
  have coprocessor := (field_eq_iff (by decide)).mp same.2
  exact ((pattern.union direction).union coprocessor).within (by decide)

theorem softwareInterrupt_agrees (one : softwareInterrupt.recognises first = true)
    (other : softwareInterrupt.recognises second = true)
    (same : softwareInterrupt.build first = softwareInterrupt.build second) :
    AgreeOn 0x0FFFFFFF first second := by
  have pattern := agreeOn_pattern rfl one other
  simp only [build, Except.ok.injEq, Instruction.softwareInterrupt.injEq] at same
  have comment := (slice_eq_iff (by decide)).mp same
  exact (pattern.union comment).within (by decide)

/-- Words of one family with the same operands differ below the condition in unread bits only. -/
theorem agreeOn_of_build {family : Family} {instruction : Instruction}
    (one : family.recognises first = true) (other : family.recognises second = true)
    (built : family.build first = .ok instruction) (also : family.build second = .ok instruction) :
    AgreeOn (0x0FFFFFFF &&& ~~~instruction.unread) first second := by
  have same := built.trans also.symm
  cases family with
  | doubleTransfer => exact doubleTransfer_agrees one other built also
  | halfTransfer => exact halfTransfer_agrees one other built also
  | coprocessorTransfer =>
    cases built
    exact coprocessorTransfer_agrees one other same
  | coprocessorOperation =>
    cases built
    exact coprocessorOperation_agrees one other same
  | coprocessorRegister =>
    cases built
    exact coprocessorRegister_agrees one other same
  -- The other families read every bit, so there is nothing to leave out.
  | branchExchange => exact (branchExchange_agrees one other same).part _
  | byteReverse => exact (byteReverse_agrees one other same).part _
  | swap => exact (swap_agrees one other same).part _
  | multiplyLong => exact (multiplyLong_agrees one other same).part _
  | multiply => exact (multiply_agrees one other same).part _
  | statusTransfer => exact (statusTransfer_agrees one other same).part _
  | dataProcessing => exact (dataProcessing_agrees one other same).part _
  | singleTransfer => exact (singleTransfer_agrees one other same).part _
  | blockTransfer => exact (blockTransfer_agrees one other same).part _
  | branch => exact (branch_agrees one other same).part _
  | softwareInterrupt => exact (softwareInterrupt_agrees one other same).part _

theorem doubleTransfer_congr (agree : AgreeOn (~~~span 32 8 11) first second)
    (register : test first 22 = false) :
    doubleTransfer.build first = doubleTransfer.build second := by
  have rd : registerAt first 12 = registerAt second 12 :=
    registerAt_congr agree (by decide) (by decide)
  simp only [build, rd, plainOffsetOf_congr agree register, addressingOf_congr agree (by decide),
    agree.test_eq (show 5 < 32 by decide) (by decide)]

theorem halfTransfer_congr (agree : AgreeOn (~~~span 32 8 11) first second)
    (register : test first 22 = false) :
    halfTransfer.build first = halfTransfer.build second := by
  have rd : registerAt first 12 = registerAt second 12 :=
    registerAt_congr agree (by decide) (by decide)
  have kind : slice first 5 6 = slice second 5 6 :=
    (slice_eq_iff (by decide)).mpr (agree.within (by decide))
  simp only [build, rd, field, kind, plainOffsetOf_congr agree register,
    addressingOf_congr agree (by decide), agree.test_eq (show 20 < 32 by decide) (by decide)]

theorem coprocessorTransfer_congr (agree : AgreeOn (~~~span 32 21 24) first second) :
    coprocessorTransfer.build first = coprocessorTransfer.build second := by
  have crd : registerAt first 12 = registerAt second 12 :=
    registerAt_congr agree (by decide) (by decide)
  have rn : registerAt first 16 = registerAt second 16 :=
    registerAt_congr agree (by decide) (by decide)
  have coprocessor : field first 8 11 = field second 8 11 :=
    (field_eq_iff (by decide)).mpr (agree.within (by decide))
  have offset : field first 0 7 = field second 0 7 :=
    (field_eq_iff (by decide)).mpr (agree.within (by decide))
  simp only [build, crd, rn, coprocessor, offset,
    agree.test_eq (show 20 < 32 by decide) (by decide)]

theorem coprocessorOperation_congr
    (agree : AgreeOn (~~~(span 32 0 3 ||| span 32 5 7 ||| span 32 12 23)) first second) :
    coprocessorOperation.build first = coprocessorOperation.build second := by
  have coprocessor : field first 8 11 = field second 8 11 :=
    (field_eq_iff (by decide)).mpr (agree.within (by decide))
  simp only [build, coprocessor]

theorem coprocessorRegister_congr
    (agree : AgreeOn (~~~(span 32 0 3 ||| span 32 5 7 ||| span 32 12 19 ||| span 32 21 23))
      first second) :
    coprocessorRegister.build first = coprocessorRegister.build second := by
  have coprocessor : field first 8 11 = field second 8 11 :=
    (field_eq_iff (by decide)).mpr (agree.within (by decide))
  simp only [build, coprocessor, agree.test_eq (show 20 < 32 by decide) (by decide)]

end Family

end ArmBoard
