import Mathlib.Tactic.IntervalCases
import ArmBoard.Proofs.Decoding.Recovery
import ArmBoard.Proofs.Execution.StoreLoad
import ArmBoard.Proofs.Machine.Blocks

/-!
# Calling and returning

A branch with link and a return at its target take two cycles and lead back
behind the branch, wherever the target lies: at the branch itself, at the words
that were fetched ahead of it, or around the end of the address space. Both
instructions leave through r15, the second one possibly with the value that r15
held before.
-/
namespace ArmBoard

open Bits

/-- The word of an unconditional branch with link. The field counts words, with a sign. -/
def callWord (field : BitVec 24) : Word := 0xEB000000 ||| field.setWidth 32

/-- The word of an unconditional move of r14 to r15. A move does not read its first operand. -/
def moveBackWord (ignored : Fin 16) : Word := 0xE1A0F00E ||| (BitVec.ofNat 32 ignored <<< 16)

/-- The word of an unconditional branch and exchange to r14. -/
def exchangeBackWord : Word := 0xE12FFF1E

/-- The words that send r15 to where r14 points. -/
def Returns (word : Word) : Prop :=
  word = exchangeBackWord ∨ ∃ ignored, word = moveBackWord ignored

/-- The field counts from where r15 is when the call is executed. -/
def callTarget (here : Word) (field : BitVec 24) : Word :=
  here + pipelineDistance + BitVec.ofInt 32 (4 * field.toInt)

section Words

variable (field : BitVec 24)

theorem test_callWord (index : Nat) :
    test (callWord field) index = (test (0xEB000000 : Word) index || test field index) := by
  by_cases inside : index < 32
  · simp [callWord, test, inside]
  · simp [callWord, test, BitVec.getLsbD_of_ge field index (by omega)]

/-- The field leaves all bits from 24 up as they are. -/
theorem callWord_agreeOn : AgreeOn (span 32 24 31) 0xEB000000 (callWord field) := by
  rw [agreeOn_iff]
  intro index bound set
  rw [test_span bound] at set
  rw [test_callWord, test, test, BitVec.getLsbD_of_ge field index set.1, Bool.or_false]

theorem slice_callWord : slice (callWord field) 0 23 = field.setWidth 32 := by
  apply BitVec.eq_of_getLsbD_eq
  intro index bound
  change test _ _ = _
  rw [test_slice, Nat.zero_add, test_callWord, BitVec.getLsbD_setWidth]
  by_cases inside : index ≤ 23
  · have clear : test (0xEB000000 : Word) index = false := by
      clear bound
      revert index
      decide
    rw [clear, decide_eq_true inside, decide_eq_true bound]
    rfl
  · rw [decide_eq_false inside, BitVec.getLsbD_of_ge field index (by omega), Bool.false_and,
      Bool.and_false]

/-- The displacement is four times the field, read with its sign. -/
theorem branchOffsetOf_callWord :
    Family.branchOffsetOf (callWord field) = BitVec.ofInt 32 (4 * field.toInt) := by
  have moved : (field.setWidth 32 : Word) <<< 2 = (field ++ 0#2 : BitVec 26).setWidth 32 := by
    apply BitVec.eq_of_getLsbD_eq
    intro index bound
    simp only [BitVec.getLsbD_shiftLeft, BitVec.getLsbD_setWidth, BitVec.getLsbD_append]
    by_cases low : index < 2
    · simp [low]
    · simp [low, bound]
      omega
  rw [Family.branchOffsetOf, slice_callWord, moved, signExtend_setWidth _ (by decide) (by decide),
    BitVec.signExtend, BitVec.toInt_append_zero]
  rfl

theorem decode_callWord :
    Opcode.decode (callWord field) =
      .ok ⟨.branch true (BitVec.ofInt 32 (4 * field.toInt)), .al, callWord field⟩ := by
  -- Which family a word belongs to is settled by bits that the field leaves alone.
  have agree := callWord_agreeOn field
  have recognised : Family.branch.recognises (callWord field) = true :=
    Family.recognises_of_agreeOn agree (by decide) (by decide)
  have link : test (callWord field) 24 = true := by
    rw [test_callWord]
    rfl
  have built : Family.branch.build (callWord field) =
      .ok (.branch true (BitVec.ofInt 32 (4 * field.toInt))) := by
    rw [Family.build, branchOffsetOf_callWord, link]
  have always : Condition.ofWord (callWord field) = .al := by
    have same : Bits.field 0xEB000000#32 28 31 = Bits.field (callWord field) 28 31 :=
      (field_eq_iff (by decide)).mpr (agree.within (by decide))
    rw [Condition.ofWord, ← same]
    rfl
  have unshared : Family.branch = .halfTransfer →
      Family.doubleTransfer.recognises (callWord field) = false := by
    intro same
    cases same
  rw [Opcode.decode, Instruction.decode_of_recognises recognised unshared built rfl, always]
  rfl

theorem decode_moveBackWord (ignored : Fin 16) :
    Opcode.decode (moveBackWord ignored) =
      .ok ⟨.dataProcessing .mov false ignored 15 (.register (.immediate 0) .lsl 14), .al,
        moveBackWord ignored⟩ := by
  have decoded : ∀ ignored : Fin 16, (Opcode.decode (moveBackWord ignored)).toOption =
      some ⟨.dataProcessing .mov false ignored 15 (.register (.immediate 0) .lsl 14), .al,
        moveBackWord ignored⟩ := by
    decide
  have here := decoded ignored
  cases found : Opcode.decode (moveBackWord ignored) with
  | error fault =>
    rw [found] at here
    cases here
  | ok opcode =>
    rw [found] at here
    rw [Option.some.inj here]

end Words

section Aligned

variable {address : Word} (aligned : 4 ∣ address.toNat)
include aligned

theorem low_bit_of_aligned {index : Nat} (low : index < 2) : test address index = false := by
  rw [test, BitVec.getLsbD, Nat.testBit_eq_decide_div_mod_eq, decide_eq_false_iff_not]
  interval_cases index <;> omega

theorem cleared_of_aligned : address &&& ~~~0b11 = address := by
  apply BitVec.eq_of_getLsbD_eq
  intro index bound
  rw [BitVec.getLsbD_and]
  by_cases low : index < 2
  · have clear : address.getLsbD index = false := low_bit_of_aligned aligned low
    rw [clear, Bool.false_and]
  · have kept : (~~~0b11 : Word).getLsbD index = true := by
      revert index
      decide
    rw [kept, Bool.and_true]

theorem aligned_add_instructionSize : 4 ∣ (address + instructionSize).toNat := by
  rw [BitVec.toNat_add, instructionSize]
  change 4 ∣ (_ + 4) % _
  omega

end Aligned

namespace Core

variable (cpu : Cpu) (bus : Bus) (raw : Word)

theorem perform_call (offset : Word) :
    (performInstruction raw (.branch true offset)).perform ⟨cpu, bus⟩ =
      (.ok (), ⟨(cpu.withRegister 14
        (cpu.registers.pc - pipelineDistance + instructionSize)).withRegister 15
          (cpu.registers.pc + offset), bus⟩) := rfl

theorem perform_moveBack (ignored : Fin 16) :
    (performInstruction raw
      (.dataProcessing .mov false ignored 15 (.register (.immediate 0) .lsl 14))).perform
        ⟨cpu, bus⟩ = (.ok (), ⟨cpu.withRegister 15 (cpu.registers.get 14), bus⟩) := by
  rw [performInstruction, dataProcessing, Action.perform_bind, perform_readOperand]
  rfl

theorem perform_exchangeBack (aligned : 4 ∣ (cpu.registers.get 14).toNat) :
    (performInstruction raw (.branchExchange 14)).perform ⟨cpu, bus⟩ =
      (.ok (), ⟨cpu.withRegister 15 (cpu.registers.get 14), bus⟩) := by
  have target : (readRegister 14).perform ⟨cpu, bus⟩ = (.ok (cpu.registers.get 14), ⟨cpu, bus⟩) :=
    rfl
  rw [performInstruction, branchExchange, Action.perform_bind, target]
  dsimp only
  rw [low_bit_of_aligned aligned (by decide), cleared_of_aligned aligned]
  rfl

end Core

namespace Sequential

variable {cpu : Cpu} {bus : Bus} {here word ahead : Word}

/-- The processor with r15 where an instruction at an address finds it. -/
def executing (cpu : Cpu) (here : Word) : Cpu :=
  { cpu with registers := cpu.registers.setPc (here + pipelineDistance) }

theorem executing_eq (cpu : Cpu) (here : Word) :
    executing cpu here = cpu.withRegister 15 (here + pipelineDistance) := rfl

/-- An unconditional instruction that writes r15 on a core goes there. -/
theorem leads_left {instruction : Instruction} {reached : Cpu} {target : Word}
    (read : bus.memory.readWord here = .ok word)
    (behind : bus.memory.readWord (here + instructionSize) = .ok ahead)
    (decoded : Opcode.decode word = .ok ⟨instruction, .al, word⟩)
    (leaves : instruction.targetsPc = true)
    (performed : (Core.performInstruction word instruction).perform ⟨executing cpu here, bus⟩ =
      (.ok (), ⟨reached.withRegister 15 target, bus⟩)) :
    Leads 1 ⟨⟨cpu, bus⟩, here⟩ ⟨⟨reached.withRegister 15 target, bus⟩, target⟩ := by
  have leads := leads_performed ⟨⟨cpu, bus⟩, here⟩ read behind decoded rfl performed rfl
  dsimp only at leads
  rwa [if_pos leaves, Cpu.pc_withRegister] at leads

/-- A call goes to its target and leaves in r14 where it came from. -/
theorem leads_call {field : BitVec 24} (read : bus.memory.readWord here = .ok (callWord field))
    (behind : bus.memory.readWord (here + instructionSize) = .ok ahead) :
    Leads 1 ⟨⟨cpu, bus⟩, here⟩
      ⟨⟨((executing cpu here).withRegister 14 (here + instructionSize)).withRegister 15
          (callTarget here field), bus⟩, callTarget here field⟩ := by
  refine leads_left read behind (decode_callWord field) rfl ?_
  have performed := Core.perform_call (executing cpu here) bus (callWord field)
    (BitVec.ofInt 32 (4 * field.toInt))
  rw [executing_eq, Cpu.pc_withRegister, BitVec.add_sub_cancel] at performed
  exact performed

/-- A return goes where r14 points. -/
theorem leads_back (read : bus.memory.readWord here = .ok word)
    (behind : bus.memory.readWord (here + instructionSize) = .ok ahead) (returns : Returns word)
    (aligned : 4 ∣ (cpu.registers.get 14).toNat) :
    Leads 1 ⟨⟨cpu, bus⟩, here⟩
      ⟨⟨(executing cpu here).withRegister 15 (cpu.registers.get 14), bus⟩,
        cpu.registers.get 14⟩ := by
  -- Putting r15 ahead has not changed r14.
  have link : (executing cpu here).registers.get 14 = cpu.registers.get 14 :=
    cpu.get_withRegister 15 14 _
  rcases returns with rfl | ⟨ignored, rfl⟩
  · rw [← link] at aligned ⊢
    exact leads_left read behind rfl rfl (Core.perform_exchangeBack _ bus _ aligned)
  · rw [← link]
    exact leads_left read behind (decode_moveBackWord ignored) rfl
      (Core.perform_moveBack _ bus _ ignored)

end Sequential

namespace Machine

variable {machine : Machine} {state final : Sequential}

/-- Where one instruction leads, one cycle goes. -/
theorem Tracks.cycled (tracks : machine.Tracks state) (leads : state.Leads 1 final) :
    ∃ after, cycle.perform machine = (.ok (), after) ∧ after.Tracks final ∧
      after.cycles = machine.cycles + 1 := by
  obtain ⟨after, ran, tracked, counted⟩ := tracks.run leads.completed leads.undisturbed
  rw [perform_run_succ] at ran
  rcases cycled : cycle.perform machine with ⟨_ | _, reached⟩ <;> rw [cycled] at ran <;> cases ran
  exact ⟨after, rfl, tracked, counted⟩

/-- What a call and a return leave behind: r14 and r15 at an address, and all else as it was. -/
structure BackAt (address : Word) (machine reached : Machine) : Prop where
  pc : reached.cpu.registers.pc = address
  link : reached.cpu.registers.lr = address
  others : ∀ number, number ≠ 14 → number ≠ 15 →
    reached.cpu.registers.get number = machine.cpu.registers.get number
  status : reached.cpu.status = machine.cpu.status
  saved : reached.cpu.saved = machine.cpu.saved
  bus : reached.bus = machine.bus
  fetched : reached.fetched = []
  attachments : reached.attachments = machine.attachments
  cycles : reached.cycles = machine.cycles + 2

/--
A call to a return takes two cycles and ends behind the call, for every field of the call: at the
return r14 points behind the call, and afterwards r15 does as well. Nothing else has changed.
-/
theorem call_and_return_end_behind_the_call {field : BitVec 24} {word : Word}
    (unattended : machine.attachments = []) (empty : machine.fetched = [])
    (aligned : 4 ∣ machine.cpu.registers.pc.toNat)
    (call : machine.bus.memory.readWord machine.cpu.registers.pc = .ok (callWord field))
    (behindCall : ∃ ahead,
      machine.bus.memory.readWord (machine.cpu.registers.pc + instructionSize) = .ok ahead)
    (called : machine.bus.memory.readWord (callTarget machine.cpu.registers.pc field) = .ok word)
    (returns : Returns word)
    (behindCalled : ∃ ahead, machine.bus.memory.readWord
      (callTarget machine.cpu.registers.pc field + instructionSize) = .ok ahead) :
    ∃ inside reached, cycle.perform machine = (.ok (), inside) ∧
      inside.cpu.registers.pc = callTarget machine.cpu.registers.pc field ∧
      inside.cpu.registers.lr = machine.cpu.registers.pc + instructionSize ∧
      cycle.perform inside = (.ok (), reached) ∧
      BackAt (machine.cpu.registers.pc + instructionSize) machine reached := by
  obtain ⟨first, behindCall⟩ := behindCall
  obtain ⟨second, behindCalled⟩ := behindCalled
  have tracks : machine.Tracks ⟨machine.toCore, machine.cpu.registers.pc⟩ :=
    ⟨unattended, rfl, Or.inl ⟨empty, rfl⟩⟩
  obtain ⟨inside, calls, entered, once⟩ := tracks.cycled (Sequential.leads_call call behindCall)
  -- What the call leaves in r14 is aligned again, as an exchange demands.
  have link := aligned_add_instructionSize aligned
  obtain ⟨reached, comes, arrived, twice⟩ :=
    entered.cycled (Sequential.leads_back called behindCalled returns
      (by simpa [Cpu.get_withRegister] using link))
  have between : inside.cpu = _ := congrArg Core.cpu entered.core
  have core : reached.toCore = _ := arrived.core
  have after : reached.cpu = _ := congrArg Core.cpu core
  have back : reached.cpu.registers.pc = machine.cpu.registers.pc + instructionSize := by
    rw [after, Cpu.pc_withRegister]
    simp [Cpu.get_withRegister]
  refine ⟨inside, reached, calls, ?_, ?_, comes, {
    pc := back
    link := ?_
    others := fun number general counter => ?_
    status := by rw [after]; rfl
    saved := by rw [after]; rfl
    bus := by rw [core]
    fetched := arrived.fetched_eq_nil (Cpu.pc_withRegister _ _)
    attachments := by rw [arrived.unattended, unattended]
    cycles := by rw [twice, once] }⟩
  · rw [between, Cpu.pc_withRegister]
  · rw [between]
    simp [Registers.lr, Cpu.get_withRegister]
  · rw [after]
    simp [Registers.lr, Cpu.get_withRegister, Sequential.executing_eq]
  · rw [after]
    simp [Cpu.get_withRegister, Sequential.executing_eq, general.symm, counter.symm]

/-- A call with an empty field eight bytes before the end of memory, and a return at its start. -/
def callingAround : Machine :=
  let memory : Memory := .blank 0x100000000 4
  let words := (memory.setBytes 0xFFFFFFF8 (Bytes.ofValue 4 (callWord 0))).setBytes 0
    (Bytes.ofValue 4 exchangeBackWord)
  let cpu := { Cpu.zeroed with registers := Registers.zeroed.setPc 0xFFFFFFF8 }
  { ofMemory words with cpu }

/-- The call leads around the end of the address space, to the two words fetched ahead of it. -/
theorem call_around_the_end_returns :
    ∃ inside reached, cycle.perform callingAround = (.ok (), inside) ∧
      inside.cpu.registers.pc = 0 ∧ cycle.perform inside = (.ok (), reached) ∧
      BackAt 0xFFFFFFFC callingAround reached := by
  have called : callingAround.bus.memory.readWord callingAround.cpu.registers.pc =
      .ok (callWord 0) := rfl
  obtain ⟨inside, reached, calls, entered, _, comes, back⟩ :=
    call_and_return_end_behind_the_call rfl rfl (by decide) called ⟨_, rfl⟩ rfl (Or.inl rfl)
      ⟨_, rfl⟩
  exact ⟨inside, reached, calls, entered, comes, back⟩

end Machine

end ArmBoard
