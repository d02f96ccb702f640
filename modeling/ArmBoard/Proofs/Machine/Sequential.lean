import ArmBoard.Proofs.Machine.Cycle

/-!
# The pipeline refines sequential execution

Fetching ahead is invisible. An interpreter that reads the word at its
instruction address, executes it and goes on at the next address or where it
was sent, ends in the state in which the pipeline ends, unless a program
overwrites the word that the pipeline has already fetched.
-/
namespace ArmBoard

namespace Instruction

/-- The registers that receive what is computed or loaded. An updated base is not among them. -/
def results : Instruction → List Nat
  | dataProcessing op _ _ rd _ => if op.isTest then [] else [rd]
  | statusRead _ rd => [rd]
  | multiply _ _ rd _ _ _ => [rd]
  | multiplyLong _ _ rdHi rdLo _ _ => [rdLo, rdHi]
  | swap _ _ rd _ => [rd]
  | byteReverse _ rd _ => [rd]
  | halfTransfer .load _ rd _ | singleTransfer .load _ rd _ => [rd]
  | doubleTransfer .load rd _ => [rd, rd + 1]
  | blockTransfer .load _ _ _ _ _ registers => (listedRegisters registers).map (·.val)
  | branchExchange _ => [15]
  | branch link _ => if link then [14, 15] else [15]
  | _ => []

theorem mem_results_iff {instruction : Instruction} (bounds : instruction.WithinBounds) :
    15 ∈ instruction.results ↔ instruction.targetsPc = true := by
  obtain ⟨registers, _, _, accepted⟩ := bounds
  cases instruction with
  | dataProcessing op setFlags rn rd operand =>
    cases test : op.isTest <;> simp [results, targetsPc, test, @eq_comm _ 15 rd]
  | statusRead kind rd => simp [results, targetsPc, (statusRead_accepted accepted).symm]
  | multiply variant setFlags rd rn rs rm =>
    simp [results, targetsPc, (multiply_accepted accepted).symm]
  | multiplyLong variant setFlags rdHi rdLo rs rm =>
    obtain ⟨hiOther, loOther⟩ := multiplyLong_accepted accepted
    simp [results, targetsPc, hiOther.symm, loOther.symm]
  | swap quantity rn rd rm => simp [results, targetsPc, (swap_accepted accepted).symm]
  | byteReverse variant rd rm => simp [results, targetsPc, (byteReverse_accepted accepted).symm]
  | halfTransfer direction kind rd addressing =>
    cases direction <;> simp [results, targetsPc, @eq_comm _ 15 rd]
  | singleTransfer direction quantity rd addressing =>
    cases direction <;> simp [results, targetsPc, @eq_comm _ 15 rd]
  | doubleTransfer direction rd addressing =>
    have pair := pair_lt (registers rd (by simp [Instruction.registers])) (pair_accepted accepted).2
    cases direction with
    | store => simp [results, targetsPc]
    | load =>
      have first : 15 ≠ rd := by omega
      have second : rd ≠ 14 := by omega
      simp [results, targetsPc, first, second]
  | blockTransfer direction indexing offsetting statusBit writeBack rn listed =>
    cases direction with
    | store => simp [results, targetsPc]
    | load =>
      -- Register 15 is listed when bit 15 is set.
      simp only [results, targetsPc, List.mem_map]
      constructor
      · rintro ⟨number, member, same⟩
        rw [Core.mem_listedRegisters] at member
        rwa [← same]
      · intro listed
        exact ⟨15, (Core.mem_listedRegisters _ 15).mpr listed, rfl⟩
  | branch link offset => cases link <;> simp [results, targetsPc]
  | _ => simp [results, targetsPc]

end Instruction

/-- A core and the address of the instruction that it executes next. -/
structure Sequential where
  core : Core
  next : Word

/-- The core with r15 at the given address. -/
def Core.atPc (core : Core) (address : Word) : Core :=
  { core with cpu := { core.cpu with registers := core.cpu.registers.setPc address } }

namespace Sequential

/-- The interpreter begins where r15 points. -/
def ofCore (core : Core) : Sequential := ⟨core, core.cpu.registers.pc⟩

/-- The word at an address. -/
def wordAt (state : Sequential) (address : Word) : Except Fault Word :=
  state.core.bus.memory.readWord address

/-- Whether an opcode sends the interpreter elsewhere: its condition passes and r15 is a result. -/
def leaves (opcode : Opcode) (status : Status) : Bool :=
  status.passes opcode.condition == some true && opcode.instruction.results.contains 15

/--
Executes the instruction at the next address. Both its word and the one behind it must be
readable. Tells whether the interpreter goes on elsewhere than at the word behind it.
-/
def step (state : Sequential) : Except Fault (Bool × Sequential) := do
  let word ← state.wordAt state.next
  let _ ← state.wordAt (state.next + instructionSize)
  let opcode ← Opcode.decode word
  let (outcome, reached) :=
    (Core.execute opcode).perform (state.core.atPc (state.next + pipelineDistance))
  let _ ← outcome
  if leaves opcode state.core.cpu.status then
    return (true, ⟨reached, reached.cpu.registers.pc⟩)
  else
    return (false, ⟨reached, state.next + instructionSize⟩)

/-- Executes a number of instructions. -/
def run : Nat → Sequential → Except Fault Sequential
  | 0, state => return state
  | count + 1, state => do
      let (_, reached) ← state.step
      run count reached

/-- No step of a run that goes on at the word behind it has changed that word. -/
def Undisturbed : Nat → Sequential → Prop
  | 0, _ => True
  | count + 1, state => ∀ left reached, state.step = .ok (left, reached) →
      (left = false → reached.wordAt (state.next + instructionSize) =
        state.wordAt (state.next + instructionSize)) ∧ Undisturbed count reached

/-- All that a successful step consists of. -/
theorem step_eq_ok {state reached : Sequential} {left : Bool}
    (stepped : state.step = .ok (left, reached)) :
    ∃ word ahead opcode branched,
      state.wordAt state.next = .ok word ∧
      state.wordAt (state.next + instructionSize) = .ok ahead ∧
      Opcode.decode word = .ok opcode ∧
      (Core.execute opcode).perform (state.core.atPc (state.next + pipelineDistance)) =
        (.ok branched, reached.core) ∧
      left = leaves opcode state.core.cpu.status ∧
      reached.next =
        if left then reached.core.cpu.registers.pc else state.next + instructionSize := by
  obtain ⟨word, first, stepped⟩ := Fault.eq_ok_of_bind stepped
  obtain ⟨ahead, second, stepped⟩ := Fault.eq_ok_of_bind stepped
  obtain ⟨opcode, decoded, stepped⟩ := Fault.eq_ok_of_bind stepped
  refine ⟨word, ahead, opcode, ?_⟩
  rcases executed : (Core.execute opcode).perform (state.core.atPc (state.next + pipelineDistance))
    with ⟨outcome, core⟩
  rw [executed] at stepped
  dsimp only at stepped
  obtain ⟨branched, rfl, stepped⟩ := Fault.eq_ok_of_bind stepped
  refine ⟨branched, first, second, decoded, ?_⟩
  split at stepped
  · next leaving =>
    cases stepped
    exact ⟨rfl, leaving.symm, rfl⟩
  · next staying =>
    cases stepped
    exact ⟨rfl, (Bool.eq_false_iff.mpr staying).symm, rfl⟩

end Sequential

namespace Core

variable (core : Core) (first second : Word)

theorem pc_atPc : (core.atPc first).cpu.registers.pc = first :=
  Registers.pc_setPc core.cpu.registers first

theorem atPc_atPc : (core.atPc first).atPc second = core.atPc second := by
  simp only [atPc, Registers.setPc_setPc]

end Core

namespace Machine

/--
A machine is where the interpreter is. Its queue is empty and r15 points at the instruction, or
the instruction is queued and r15 points behind it.
-/
structure Tracks (machine : Machine) (state : Sequential) : Prop where
  unattended : machine.attachments = []
  core : machine.toCore = state.core
  queue : machine.fetched = [] ∧ machine.cpu.registers.pc = state.next ∨
    ∃ word, machine.fetched = [word] ∧ state.wordAt state.next = .ok word ∧
      machine.cpu.registers.pc = state.next + instructionSize

variable {machine : Machine} {state : Sequential} {word ahead : Word}

theorem perform_fetch_of_read {core : Core} {address : Word} (queue : List Word)
    (attachments : List Attachment) (cycles : Nat) (here : core.cpu.registers.pc = address)
    (read : core.bus.memory.readWord address = .ok word) :
    fetch.perform ⟨core, queue, attachments, cycles⟩ =
      (.ok (), ⟨core.atPc (address + instructionSize), queue ++ [word], attachments, cycles⟩) := by
  subst here
  rw [perform_fetch]
  dsimp only
  rw [read]
  rfl

theorem add_instructionSize_twice (address : Word) :
    address + instructionSize + instructionSize = address + pipelineDistance := by
  rw [BitVec.add_assoc]
  rfl

/-- Whatever was queued before, both words are queued and r15 is two instructions ahead. -/
theorem Tracks.perform_fillQueue (tracks : machine.Tracks state)
    (first : state.wordAt state.next = .ok word)
    (second : state.wordAt (state.next + instructionSize) = .ok ahead) :
    (fillQueue (fetchDepth - machine.fetched.length)).perform machine =
      (.ok (), ⟨state.core.atPc (state.next + pipelineDistance), [word, ahead],
        machine.attachments, machine.cycles⟩) := by
  obtain ⟨core, queue, attachments, cycles⟩ := machine
  obtain ⟨_, same, queued⟩ := tracks
  change core = state.core at same
  subst same
  rcases queued with ⟨empty, here⟩ | ⟨queued, fetched, read, here⟩
  · -- Both words are fetched.
    change queue = [] at empty
    subst empty
    change (fillQueue 2).perform _ = _
    rw [perform_fillQueue_succ, perform_fetch_of_read _ _ _ here first]
    dsimp only
    rw [perform_fillQueue_succ,
      perform_fetch_of_read _ _ _ (Core.pc_atPc state.core _) second]
    dsimp only
    rw [Core.atPc_atPc, add_instructionSize_twice]
    rfl
  · -- The queued word is the one at the next address, and the one behind it is fetched.
    change queue = [queued] at fetched
    subst fetched
    rw [first] at read
    cases read
    change (fillQueue 1).perform _ = _
    rw [perform_fillQueue_succ, perform_fetch_of_read _ _ _ here second]
    dsimp only
    rw [add_instructionSize_twice]
    rfl

/-- The answer of an executed opcode is whether the interpreter leaves. -/
theorem leaves_eq_jumps {opcode : Opcode} (bounds : opcode.instruction.WithinBounds)
    (status : Status) : Sequential.leaves opcode status = opcode.jumps status := by
  have same : opcode.instruction.results.contains 15 = opcode.instruction.targetsPc := by
    rw [Bool.eq_iff_iff, List.contains_iff_mem]
    exact Instruction.mem_results_iff bounds
  rw [Sequential.leaves, Opcode.jumps, same]

/-- One step of the interpreter is one cycle of the machine. -/
theorem Tracks.step {reached : Sequential} {left : Bool} (tracks : machine.Tracks state)
    (stepped : state.step = .ok (left, reached))
    (undisturbed : left = false → reached.wordAt (state.next + instructionSize) =
      state.wordAt (state.next + instructionSize)) :
    ∃ after, cycle.perform machine = (.ok (), after) ∧ after.Tracks reached := by
  obtain ⟨word, ahead, opcode, branched, first, second, decoded, executed, leaving, goes⟩ :=
    Sequential.step_eq_ok stepped
  have bounds := Opcode.withinBounds_of_decode decoded
  obtain ⟨answer, kept⟩ := Core.execute_ok bounds executed
  have same : branched = left := by
    rw [answer, leaving, leaves_eq_jumps bounds]
    rfl
  subst same
  have cycled : cycle.perform machine = (.ok (), ⟨reached.core, if branched then [] else [ahead],
      machine.attachments, machine.cycles + 1⟩) := by
    rw [perform_cycle tracks.unattended, tracks.perform_fillQueue first second]
    dsimp only
    rw [perform_executeWord, decoded]
    dsimp only
    rw [executed]
  refine ⟨_, cycled, tracks.unattended, rfl, ?_⟩
  cases branched with
  | true =>
    -- The queue is dropped and r15 is the next address.
    exact Or.inl ⟨rfl, goes.symm⟩
  | false =>
    -- The word fetched behind the instruction is still the one in memory.
    refine Or.inr ⟨ahead, rfl, ?_, ?_⟩
    · rw [goes]
      exact (undisturbed rfl).trans second
    · have ahead := kept rfl
      rw [Core.pc_atPc] at ahead
      change reached.core.cpu.registers.pc = _
      rw [ahead, goes, ← add_instructionSize_twice]
      rfl

theorem perform_run_succ (count : Nat) (machine : Machine) :
    (run (count + 1)).perform machine =
      match cycle.perform machine with
      | (.ok _, cycled) => (run count).perform cycled
      | (.error fault, cycled) => (.error fault, cycled) := by
  rw [run, Action.perform_bind]
  rcases cycle.perform machine with ⟨_ | _, cycled⟩ <;> rfl

/-- The machine keeps up with the interpreter over any number of steps. -/
theorem Tracks.run {count : Nat} {final : Sequential} (tracks : machine.Tracks state)
    (completed : state.run count = .ok final) (undisturbed : state.Undisturbed count) :
    ∃ after, (run count).perform machine = (.ok (), after) ∧ after.Tracks final ∧
      after.cycles = machine.cycles + count := by
  induction count generalizing machine state with
  | zero =>
    cases completed
    exact ⟨machine, rfl, tracks, rfl⟩
  | succ count ih =>
    obtain ⟨⟨left, reached⟩, stepped, completed⟩ := Fault.eq_ok_of_bind completed
    obtain ⟨here, later⟩ := undisturbed left reached stepped
    obtain ⟨cycled, performed, tracked⟩ := tracks.step stepped here
    obtain ⟨after, ran, arrived, counted⟩ := ih tracked completed later
    refine ⟨after, ?_, arrived, ?_⟩
    · rw [perform_run_succ, performed]
      exact ran
    · have once := (cycle_ok tracks.unattended performed).2
      omega

theorem perform_runCounted {count : Nat} {after : Machine}
    (ran : (run count).perform machine = (.ok (), after)) :
    (runCounted count).perform machine = (.ok (after.cycles - machine.cycles), after) := by
  unfold runCounted
  rw [Action.perform_bind, Action.perform_ask]
  dsimp only
  rw [Action.perform_bind, ran]
  rfl

/--
A run of a machine with an empty queue and no peripherals does what the interpreter does, if the
interpreter completes and no step overwrites the word behind it without leaving.
-/
theorem runCounted_refines_sequential {count : Nat} {final : Sequential}
    (unattended : machine.attachments = []) (empty : machine.fetched = [])
    (completed : (Sequential.ofCore machine.toCore).run count = .ok final)
    (undisturbed : (Sequential.ofCore machine.toCore).Undisturbed count) :
    ∃ reached, (runCounted count).perform machine = (.ok count, reached) ∧
      reached.cpu = final.core.cpu ∧ reached.bus.memory = final.core.bus.memory := by
  have tracks : machine.Tracks (.ofCore machine.toCore) :=
    ⟨unattended, rfl, Or.inl ⟨empty, rfl⟩⟩
  obtain ⟨reached, ran, tracked, counted⟩ := tracks.run completed undisturbed
  have same : reached.toCore = final.core := tracked.core
  refine ⟨reached, ?_, congrArg Core.cpu same, congrArg (·.bus.memory) same⟩
  rw [perform_runCounted ran, counted, Nat.add_sub_cancel_left]

/-- A loop of two instructions, which sets r0 and branches back. -/
def looping : Machine :=
  let program := Bytes.ofValue 4 0xE3A00007#32 ++ Bytes.ofValue 4 0xEAFFFFFD#32
  ((ofMemory (.blank 64 4)).loadProgram program).2

/-- The third instruction of the loop is its first one again. -/
theorem looping_runs_three_instructions :
    ∃ final reached, (Sequential.ofCore looping.toCore).run 3 = .ok final ∧
      (runCounted 3).perform looping = (.ok 3, reached) ∧
      reached.cpu = final.core.cpu ∧ reached.cpu.registers.pc = 8 := by
  obtain ⟨final, completed, ahead⟩ : ∃ final,
      (Sequential.ofCore looping.toCore).run 3 = .ok final ∧ final.core.cpu.registers.pc = 8 :=
    ⟨_, rfl, rfl⟩
  have undisturbed : (Sequential.ofCore looping.toCore).Undisturbed 3 := by
    intro left reached stepped
    cases stepped
    refine ⟨fun _ => rfl, fun left reached stepped => ?_⟩
    cases stepped
    refine ⟨fun _ => rfl, fun left reached stepped => ?_⟩
    cases stepped
    exact ⟨fun _ => rfl, trivial⟩
  obtain ⟨reached, ran, cpu, _⟩ := runCounted_refines_sequential rfl rfl completed undisturbed
  exact ⟨final, reached, completed, ran, cpu, by rw [cpu, ahead]⟩

end Machine

end ArmBoard
