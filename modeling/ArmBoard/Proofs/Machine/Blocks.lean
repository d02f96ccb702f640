import ArmBoard.Proofs.Machine.Sequential

/-!
# Runs put together from blocks

A block of instructions leads from one state of the interpreter to another in a
number of steps. Blocks that follow one another lead on, and where they lead
the machine goes too. An instruction that leaves memory alone is a block by
itself.
-/
namespace ArmBoard

namespace Cpu

variable (cpu : Cpu) (number other : Fin 16) (value : Word)

/-- The processor with another value in a register. -/
def withRegister : Cpu := { cpu with registers := cpu.registers.set number value }

theorem get_withRegister :
    (cpu.withRegister number value).registers.get other =
      if number = other then value else cpu.registers.get other :=
  Registers.get_set cpu.registers number other value

theorem pc_withRegister : (cpu.withRegister 15 value).registers.pc = value :=
  Registers.pc_setPc cpu.registers value

end Cpu

namespace Sequential

/-- A number of steps, none of which disturbs the word behind it, leads to a state. -/
structure Leads (count : Nat) (state final : Sequential) : Prop where
  completed : state.run count = .ok final
  undisturbed : state.Undisturbed count

variable {state middle final : Sequential}

theorem Leads.refl (state : Sequential) : Leads 0 state state := ⟨rfl, trivial⟩

theorem Leads.head {count : Nat} {left : Bool} (stepped : state.step = .ok (left, middle))
    (undisturbed : left = false → middle.wordAt (state.next + instructionSize) =
      state.wordAt (state.next + instructionSize))
    (rest : Leads count middle final) : Leads (count + 1) state final where
  completed := by
    rw [run, stepped]
    exact rest.completed
  undisturbed other reached same := by
    rw [stepped] at same
    cases same
    exact ⟨undisturbed, rest.undisturbed⟩

theorem Leads.trans {first second : Nat} (before : Leads first state middle)
    (after : Leads second middle final) : Leads (first + second) state final := by
  -- On the steps of the first block: each is put before what follows it.
  induction first generalizing state with
  | zero =>
    obtain ⟨completed, _⟩ := before
    cases completed
    rwa [Nat.zero_add]
  | succ first ih =>
    obtain ⟨⟨left, reached⟩, stepped, completed⟩ := Fault.eq_ok_of_bind before.completed
    obtain ⟨here, later⟩ := before.undisturbed left reached stepped
    rw [Nat.succ_add]
    exact .head stepped here (ih ⟨completed, later⟩)

instance (first second : Nat) : Trans (Leads first) (Leads second) (Leads (first + second)) :=
  ⟨Leads.trans⟩

/-- A step that leaves memory alone disturbs nothing. -/
theorem leads_of_step {left : Bool} (stepped : state.step = .ok (left, final))
    (kept : final.core.bus.memory = state.core.bus.memory) : Leads 1 state final := by
  refine .head stepped (fun _ => ?_) (.refl final)
  rw [wordAt, wordAt, kept]

section Instructions

variable (state : Sequential) {word ahead : Word} {opcode : Opcode} {reached : Core}

/-- An instruction whose condition passes is performed with r15 two instructions ahead. -/
theorem leads_performed (here : state.wordAt state.next = .ok word)
    (behind : state.wordAt (state.next + instructionSize) = .ok ahead)
    (decoded : Opcode.decode word = .ok opcode)
    (passes : state.core.cpu.status.passes opcode.condition = some true)
    (performed : (Core.performInstruction opcode.raw opcode.instruction).perform
      (state.core.atPc (state.next + pipelineDistance)) = (.ok (), reached))
    (kept : reached.bus.memory = state.core.bus.memory) :
    Leads 1 state ⟨reached, if opcode.instruction.targetsPc then reached.cpu.registers.pc
      else state.next + instructionSize⟩ := by
  have bounds := Opcode.withinBounds_of_decode decoded
  have leaving : leaves opcode state.core.cpu.status = opcode.instruction.targetsPc := by
    rw [Machine.leaves_eq_jumps bounds, Opcode.jumps, passes]
    rfl
  have same : (state.core.atPc (state.next + pipelineDistance)).cpu.status =
      state.core.cpu.status := rfl
  have stepped : state.step = .ok (opcode.instruction.targetsPc, ⟨reached,
      if opcode.instruction.targetsPc then reached.cpu.registers.pc
      else state.next + instructionSize⟩) := by
    simp only [step, here, behind, decoded, Core.perform_execute, same, passes, performed, leaving,
      bind, Except.bind]
    cases opcode.instruction.targetsPc <;> rfl
  exact leads_of_step stepped kept

/-- An instruction whose condition fails leaves nothing behind but r15. -/
theorem leads_passed_over (here : state.wordAt state.next = .ok word)
    (behind : state.wordAt (state.next + instructionSize) = .ok ahead)
    (decoded : Opcode.decode word = .ok opcode)
    (fails : state.core.cpu.status.passes opcode.condition = some false) :
    Leads 1 state
      ⟨state.core.atPc (state.next + pipelineDistance), state.next + instructionSize⟩ := by
  have leaving : leaves opcode state.core.cpu.status = false := by
    rw [leaves, fails]
    rfl
  have same : (state.core.atPc (state.next + pipelineDistance)).cpu.status =
      state.core.cpu.status := rfl
  have stepped : state.step = .ok (false,
      ⟨state.core.atPc (state.next + pipelineDistance), state.next + instructionSize⟩) := by
    simp only [step, here, behind, decoded, Core.perform_execute, same, fails, leaving, bind,
      Except.bind]
    rfl
  exact leads_of_step stepped rfl

end Instructions

end Sequential

namespace Machine

variable {machine other : Machine} {state final : Sequential} {count : Nat}

/-- A machine that is where the interpreter is goes where the interpreter is led. -/
theorem Tracks.led (tracks : machine.Tracks state) (leads : state.Leads count final) :
    ∃ after, (runCounted count).perform machine = (.ok count, after) ∧ after.Tracks final ∧
      after.cycles = machine.cycles + count := by
  obtain ⟨after, ran, tracked, counted⟩ := tracks.run leads.completed leads.undisturbed
  refine ⟨after, ?_, tracked, counted⟩
  rw [perform_runCounted ran, counted, Nat.add_sub_cancel_left]

/-- Nothing is queued as long as r15 points at the next instruction. -/
theorem Tracks.fetched_eq_nil (tracks : machine.Tracks state)
    (here : state.core.cpu.registers.pc = state.next) : machine.fetched = [] := by
  rcases tracks.queue with ⟨empty, _⟩ | ⟨word, _, _, behind⟩
  · exact empty
  · have core : machine.toCore = state.core := tracks.core
    rw [core, here] at behind
    have moved : instructionSize = 0 := (BitVec.self_eq_add_right).mp behind
    exact absurd moved (by decide)

/-- Machines in the same place with nothing queued differ in their counts only. -/
theorem Tracks.eq_withCycles (tracks : machine.Tracks state) (also : other.Tracks state)
    (here : state.core.cpu.registers.pc = state.next) :
    other = { machine with cycles := other.cycles } := by
  have queue := (also.fetched_eq_nil here).trans (tracks.fetched_eq_nil here).symm
  have attachments := also.unattended.trans tracks.unattended.symm
  have core := also.core.trans tracks.core.symm
  cases other
  cases machine
  cases queue
  cases attachments
  cases core
  rfl

end Machine

end ArmBoard
