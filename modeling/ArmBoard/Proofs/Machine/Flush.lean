import ArmBoard.Proofs.Machine.Sequential

/-!
# When the queue is dropped

The words fetched behind an instruction are stale once the instruction has
written r15. The executor says so of exactly those instructions that have r15
among their results and whose condition passes, also when they write the value
that r15 already held. Nothing else writes r15: no other result, no updated
base, no link, and no instruction that stops with a fault.
-/
namespace ArmBoard.Core

/--
A decoded opcode that is executed answers true exactly if its condition passes and its instruction
has r15 for a result. Otherwise, and after every fault, r15 is as it was.
-/
theorem answers_exactly_whether_r15_is_written {word : Word} {opcode : Opcode}
    (decoded : Opcode.decode word = .ok opcode) (core reached : Core) :
    (opcode.instruction.targetsPc = true ↔ 15 ∈ opcode.instruction.results) ∧
    (∀ branched, (execute opcode).perform core = (.ok branched, reached) →
      (branched = true ↔ core.cpu.status.passes opcode.condition = some true ∧
        opcode.instruction.targetsPc = true) ∧
      (branched = false → reached.cpu.registers.pc = core.cpu.registers.pc)) ∧
    (∀ fault, (execute opcode).perform core = (.error fault, reached) →
      reached.cpu.registers.pc = core.cpu.registers.pc) := by
  -- An instruction beyond the bounds might write r15 on the side, as a base or as a second half.
  have bounds := Opcode.withinBounds_of_decode decoded
  refine ⟨(Instruction.mem_results_iff bounds).symm, ?_, ?_⟩
  · intro branched performed
    obtain ⟨answer, kept⟩ := execute_ok bounds performed
    refine ⟨?_, kept⟩
    rw [answer, Opcode.jumps, Bool.and_eq_true, beq_iff_eq]
  · intro fault performed
    exact (execute_error bounds performed).2

/-- A core with r15 at address 8 and the rest blank. -/
def atEight : Core := Core.atPc ⟨.zeroed, .ofMemory (.blank 0 0)⟩ 8

/--
A move of r15 to itself is reported although r15 is as before. A load of r15 from memory that is
not there stops, and r15 is as before as well.
-/
theorem move_of_r15_to_itself_is_reported :
    (∃ opcode reached, Opcode.decode 0xE1A0F00F = .ok opcode ∧
      (execute opcode).perform atEight = (.ok true, reached) ∧
      reached.cpu.registers.pc = atEight.cpu.registers.pc ∧
      atEight.cpu.status.passes opcode.condition = some true ∧ 15 ∈ opcode.instruction.results) ∧
    (∃ opcode fault reached, Opcode.decode 0xE59FF000 = .ok opcode ∧
      (execute opcode).perform atEight = (.error fault, reached) ∧
      reached.cpu.registers.pc = atEight.cpu.registers.pc) := by
  constructor
  · obtain ⟨opcode, reached, decoded, performed, same⟩ : ∃ opcode reached,
        Opcode.decode 0xE1A0F00F = .ok opcode ∧
        (execute opcode).perform atEight = (.ok true, reached) ∧
        reached.cpu.registers.pc = atEight.cpu.registers.pc := ⟨_, _, rfl, rfl, rfl⟩
    obtain ⟨listed, answers, _⟩ := answers_exactly_whether_r15_is_written decoded atEight reached
    obtain ⟨passes, targets⟩ := (answers true performed).1.mp rfl
    exact ⟨opcode, reached, decoded, performed, same, passes, listed.mp targets⟩
  · obtain ⟨opcode, fault, reached, decoded, performed⟩ : ∃ opcode fault reached,
        Opcode.decode 0xE59FF000 = .ok opcode ∧
        (execute opcode).perform atEight = (.error fault, reached) := ⟨_, _, _, rfl, rfl⟩
    obtain ⟨_, _, kept⟩ := answers_exactly_whether_r15_is_written decoded atEight reached
    exact ⟨opcode, fault, reached, decoded, performed, kept fault performed⟩

end ArmBoard.Core
