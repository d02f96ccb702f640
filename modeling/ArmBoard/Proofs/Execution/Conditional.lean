import ArmBoard.Proofs.Decoding.Recovery
import ArmBoard.Proofs.Execution.ProgramCounter

/-!
# Conditional execution

The lower twenty-eight bits of a word say what to do and the upper four say
when. Decoding never looks at the upper four, and an instruction that is
performed does not know under which condition it stands: the word serves only
to be quoted in a fault. An instruction whose condition fails is not begun.
-/
namespace ArmBoard

open Bits

/-- The fault with another word in place of the one that it quotes. -/
def Fault.quoting (word : Word) : Fault → Fault
  | illegal _ address objection => illegal word address objection
  | unknown _ address => unknown word address
  | fault => fault

/-- The word with another condition in its top four bits. -/
def Condition.onWord (condition : Condition) (word : Word) : Word :=
  (word &&& span 32 0 27) ||| (BitVec.ofNat 32 condition.code <<< 28)

namespace Condition

variable (condition : Condition) (word : Word)

theorem test_onWord {index : Nat} (below : index < 28) :
    test (condition.onWord word) index = test word index := by
  have kept : (span 32 0 27).getLsbD index = true :=
    (test_span (show index < 32 by omega)).mpr ⟨Nat.zero_le _, by omega⟩
  simp [test, onWord, kept, below]

theorem ofWord_onWord : ofWord (condition.onWord word) = condition := by
  have agree : AgreeOn (span 32 28 31) (condition.onWord word)
      (BitVec.ofNat 32 condition.code <<< 28) := by
    rw [agreeOn_iff]
    intro index bound set
    have dropped : (span 32 0 27).getLsbD index = false := by
      rw [test_span bound] at set
      rw [Bool.eq_false_iff]
      intro kept
      have below := (test_span bound).mp kept
      omega
    simp [test, onWord, dropped]
  rw [ofWord, (field_eq_iff (by decide)).mpr agree]
  cases condition <;> rfl

end Condition

section Decoding

variable {first second : Word}

theorem Bits.agreeOn_below (same : ∀ index < 28, test first index = test second index)
    {low high : Nat} (below : high < 28) : AgreeOn (span 32 low high) first second := by
  rw [agreeOn_iff]
  intro index bound set
  rw [test_span bound] at set
  exact same index (by omega)

/-- No pattern asks for a bit of the condition. -/
theorem Family.recognises_congr (same : ∀ index < 28, test first index = test second index)
    (family : Family) : family.recognises first = family.recognises second := by
  have agree : AgreeOn (span 32 0 27) first second := agreeOn_below same (by decide)
  have asked : ∀ pattern ∈ family.accepted ++ family.excluded,
      pattern.mask &&& span 32 0 27 = pattern.mask := by
    cases family <;> decide
  rw [Bool.eq_iff_iff]
  exact ⟨recognises_of_agreeOn agree asked, recognises_of_agreeOn agree.symm asked⟩

/-- No operand is read from a bit of the condition. -/
theorem Family.build_congr (same : ∀ index < 28, test first index = test second index)
    (family : Family) : family.build first = family.build second := by
  have bit (index : Nat) (below : index < 28) : test first index = test second index :=
    same index below
  have part (low high : Nat) (below : high < 28) : slice first low high = slice second low high :=
    (slice_eq_iff (by omega)).mpr (agreeOn_below same below)
  have number (low high : Nat) (below : high < 28) :
      field first low high = field second low high := by
    rw [field, field, part low high below]
  cases family
  case statusTransfer =>
    have pattern : statusReadPattern.matches first = statusReadPattern.matches second := by
      have below : AgreeOn (span 32 0 27) first second := agreeOn_below same (by decide)
      have agree : AgreeOn statusReadPattern.mask first second := below.within (by decide)
      rw [Pattern.matches, Pattern.matches, agree]
    simp (disch := decide) only [build, pattern, statusKindOf, statusSourceOf, registerAt, bit,
      part, number]
  all_goals
    simp (disch := decide) only [build, byteReversalOf, addressingOf, plainOffsetOf,
      shiftedOffsetOf, operandOf, branchOffsetOf, registerAt, bit, part, number]

/-- Words that differ in their conditions only are decoded alike, and faults quote the word. -/
theorem Instruction.decode_congr (same : ∀ index < 28, test first index = test second index) :
    decode second = (decode first).mapError (Fault.quoting second) := by
  have found : Family.ofWord? second = Family.ofWord? first := by
    simp only [Family.ofWord?, Family.first?, Family.recognises_congr same]
  rw [Family.ofWord?, Family.ofWord?] at found
  simp only [decode, decodeWith, found]
  cases chosen : Family.first? Family.decodingOrder first with
  | none => rfl
  | some family =>
    -- Building does not fail where a family is recognised, so that only an objection is left.
    obtain ⟨instruction, built⟩ := Family.build_of_recognises (Family.ofWord?_eq_some chosen)
    dsimp only
    rw [← Family.build_congr same family, built]
    dsimp only
    cases instruction.objection? <;> rfl

end Decoding

theorem Fault.RaisedBy.quoting {raw : Word} {fault : Fault} (raised : fault.RaisedBy raw) :
    fault.quoting raw = fault := by
  cases raised <;> rfl

namespace Core

open ArmBoard.Action

variable {opcode : Opcode} {core : Core}

/-- An instruction does the same for every word; what differs is the word that a fault quotes. -/
theorem performInstruction_quoting {instruction : Instruction} (bounds : instruction.WithinBounds)
    (first second : Word) (core : Core) :
    (performInstruction second instruction).perform core =
      (mapFault (Fault.quoting second) (performInstruction first instruction)).perform core := by
  -- Only one family quotes the word, but the others have to be shown not to.
  have elsewhere
      (same : performInstruction first instruction = performInstruction second instruction) :
      (performInstruction second instruction).perform core =
        (mapFault (Fault.quoting second) (performInstruction first instruction)).perform core := by
    rw [same, perform_mapFault]
    rcases performed : (performInstruction second instruction).perform core with
      ⟨fault | value, reached⟩
    · have raised : fault.RaisedBy second :=
        ((performInstruction_follows bounds second).faulted performed).1
      dsimp only
      rw [raised.quoting]
    · rfl
  cases instruction
  case branchExchange rm =>
    have bound := bounds.registers_lt rm (by simp [Instruction.registers])
    simp only [performInstruction, branchExchange, perform_mapFault, perform_bind, readRegister,
      perform_ask, Registers.get?_of_lt _ bound]
    split <;> rfl
  all_goals exact elsewhere rfl

/-- An opcode whose condition passes is executed as if it always did. -/
theorem execute_of_passes (passes : core.cpu.status.passes opcode.condition = some true)
    (bounds : opcode.instruction.WithinBounds) (raw : Word) :
    (execute opcode).perform core = (mapFault (Fault.quoting opcode.raw)
      (execute ⟨opcode.instruction, .al, raw⟩)).perform core := by
  have always : core.cpu.status.passes .al = some true := rfl
  rw [perform_mapFault, perform_execute, perform_execute, passes, always]
  dsimp only
  rw [performInstruction_quoting bounds raw opcode.raw core, perform_mapFault]
  rcases (performInstruction raw opcode.instruction).perform core with ⟨fault | value, reached⟩ <;>
    rfl

/--
Words that differ in their conditions only are decoded to the same instruction or fail alike. An
opcode whose condition passes is executed like its word under the condition that always passes,
down to the fault, which quotes its own word. An opcode whose condition fails changes nothing and
branches nowhere, and one under the reserved condition is illegal and changes nothing.
-/
theorem condition_says_when_and_never_what :
    (∀ first second : Word, (∀ index < 28, test first index = test second index) →
      Instruction.decode second = (Instruction.decode first).mapError (Fault.quoting second)) ∧
    (∀ (word : Word) (opcode : Opcode), Opcode.decode word = .ok opcode →
      ∃ always, Opcode.decode (Condition.al.onWord word) = .ok always ∧
        always.instruction = opcode.instruction ∧ always.condition = .al ∧
        ∀ core : Core,
          (core.cpu.status.passes opcode.condition = some true →
            (execute opcode).perform core =
              (mapFault (Fault.quoting word) (execute always)).perform core) ∧
          (core.cpu.status.passes opcode.condition = some false →
            (execute opcode).perform core = (.ok false, core)) ∧
          (core.cpu.status.passes opcode.condition = none ↔ opcode.condition = .nv) ∧
          (opcode.condition = .nv →
            (execute opcode).perform core = (.error (.illegal word 0 .reservedCondition), core))) := by
  refine ⟨fun first second same => Instruction.decode_congr same, ?_⟩
  intro word opcode decoded
  have bounds := Opcode.withinBounds_of_decode decoded
  obtain ⟨instruction, _, rfl⟩ := Opcode.decode_eq_ok_iff.mp decoded
  have same (index : Nat) (below : index < 28) :
      test opcode.raw index = test (Condition.al.onWord opcode.raw) index :=
    (Condition.al.test_onWord opcode.raw below).symm
  have also : Opcode.decode (Condition.al.onWord opcode.raw) =
      .ok ⟨opcode.instruction, .al, Condition.al.onWord opcode.raw⟩ := by
    refine Opcode.decode_eq_ok_iff.mpr ⟨?_, Condition.al.ofWord_onWord opcode.raw, rfl⟩
    rw [Instruction.decode_congr same, instruction]
    rfl
  refine ⟨_, also, rfl, rfl, fun core => ?_⟩
  refine ⟨fun passes => ?_, fun fails => ?_, ?_, fun reserved => ?_⟩
  · exact execute_of_passes passes bounds _
  · rw [perform_execute, fails]
  · cases opcode.condition <;> simp [Status.passes]
  · rw [perform_execute, reserved]
    rfl

/-- An odd address in r1, and the zero flag. -/
def oddTarget : Core where
  cpu := { Cpu.zeroed with
    registers := Registers.zeroed.set ⟨1, by decide⟩ 5, status := ⟨0x40000000⟩ }
  bus := .ofMemory (.blank 0 0)

/--
A branch to an odd address is refused with the word that asked for it, be it `BX` or `BXEQ`; `BXNE`
is passed over, and under the reserved condition the same bits are illegal. Words that are unknown
under one condition are unknown under another.
-/
theorem branch_to_odd_address_under_four_conditions :
    Instruction.decode 0x07F000F0 = .error (.unknown 0x07F000F0 0) ∧
    (∃ opcode, Opcode.decode 0x012FFF11 = .ok opcode ∧
      (execute opcode).perform oddTarget =
        (.error (.illegal 0x012FFF11 0 .thumbTarget), oddTarget)) ∧
    (∃ opcode, Opcode.decode 0x112FFF11 = .ok opcode ∧
      (execute opcode).perform oddTarget = (.ok false, oddTarget)) ∧
    (∃ opcode, Opcode.decode 0xF12FFF11 = .ok opcode ∧
      (execute opcode).perform oddTarget =
        (.error (.illegal 0xF12FFF11 0 .reservedCondition), oddTarget)) := by
  obtain ⟨decodes, executes⟩ := condition_says_when_and_never_what
  have opcode (condition : Condition) (word : Word)
      (decoded : Opcode.decode word = .ok ⟨.branchExchange 1, condition, word⟩) :=
    executes word _ decoded
  refine ⟨?_, ⟨_, rfl, ?_⟩, ⟨_, rfl, ?_⟩, ⟨_, rfl, ?_⟩⟩
  · exact (decodes 0xE7F000F0 0x07F000F0 (by decide)).trans rfl
  · obtain ⟨always, decoded, _, _, cases⟩ := opcode .eq 0x012FFF11 rfl
    have found : Opcode.decode (Condition.al.onWord 0x012FFF11) =
        .ok ⟨.branchExchange 1, .al, 0xE12FFF11⟩ := rfl
    rw [found] at decoded
    cases decoded
    exact ((cases oddTarget).1 rfl).trans rfl
  · obtain ⟨_, _, _, _, cases⟩ := opcode .ne 0x112FFF11 rfl
    exact (cases oddTarget).2.1 rfl
  · obtain ⟨_, _, _, _, cases⟩ := opcode .nv 0xF12FFF11 rfl
    exact (cases oddTarget).2.2.2 rfl

end Core

end ArmBoard
