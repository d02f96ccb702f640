import Mathlib.Data.List.Basic
import ArmBoard.Proofs.Machine.Sequential

/-!
# The address of the next instruction

r15 runs ahead of the instruction by as many words as are queued. With these
taken off, it names the instruction that a cycle executes, whatever has been
fetched before. A cycle moves on by one instruction or goes where it was sent,
and it has moved on even if it stops with a fault of the instruction. Only a
cycle that cannot fetch stays where it is.
-/
namespace ArmBoard

/-- The faults of a word at an address. Opcode faults quote the word and the address. -/
inductive Fault.RaisedAt (address word : Word) : Fault → Prop
  | unknown : RaisedAt address word (.unknown word address)
  | illegal (objection : Objection) : RaisedAt address word (.illegal word address objection)
  | outOfRange (outside size : Nat) : RaisedAt address word (.outOfRange outside size)

theorem Fault.RaisedBy.atAddress {raw : Word} {fault : Fault} (raised : fault.RaisedBy raw)
    (address : Word) : (fault.atAddress address).RaisedAt address raw := by
  cases raised with
  | illegal objection => exact .illegal objection
  | outOfRange outside size => exact .outOfRange outside size

theorem Opcode.raisedAt_of_decode {word : Word} {fault : Fault}
    (failed : decode word = .error fault) (address : Word) :
    (fault.atAddress address).RaisedAt address word := by
  rcases decode_eq_error failed with rfl | ⟨objection, rfl⟩
  · exact .unknown
  · exact .illegal objection

theorem Core.atPc_self (core : Core) : core.atPc core.cpu.registers.pc = core := by
  simp [atPc, Registers.setPc, Registers.pc, Registers.set, Registers.get]

namespace Machine

/-- The address of the instruction that is executed next. -/
def next (machine : Machine) : Word :=
  machine.cpu.registers.pc - instructionSize * BitVec.ofNat 32 machine.fetched.length

/-- The word to be executed next: the oldest one in the queue, or the one to be fetched first. -/
def nextWord (machine : Machine) : Except Fault Word :=
  match machine.fetched with
  | word :: _ => .ok word
  | [] => machine.bus.memory.readWord machine.next

variable {machine reached : Machine}

theorem next_of_empty (empty : machine.fetched = []) :
    machine.next = machine.cpu.registers.pc := by
  rw [next, empty]
  exact BitVec.sub_zero _

theorem next_eq_of_fetched {word : Word} (queued : reached.fetched = machine.fetched ++ [word])
    (ahead : reached.cpu.registers.pc = machine.cpu.registers.pc + instructionSize) :
    reached.next = machine.next := by
  rw [next, next, queued, ahead, List.length_append, List.length_singleton, BitVec.ofNat_add]
  grind

theorem next_eq_of_taken {word : Word} {rest : List Word}
    (queued : machine.fetched = word :: rest) (left : reached.fetched = rest)
    (same : reached.cpu.registers.pc = machine.cpu.registers.pc) :
    reached.next = machine.next + instructionSize := by
  rw [next, next, queued, left, same, List.length_cons, BitVec.ofNat_add]
  grind

/--
What fetching ahead leaves alone: which instruction comes next, the core apart from r15, and all
that does not belong to the queue.
-/
def prefetching : Conduct Machine where
  admits fault := ∃ outside size, fault = .outOfRange outside size
  keeps machine reached :=
    reached.next = machine.next ∧ reached.nextWord = machine.nextWord ∧
      reached.toCore = machine.toCore.atPc reached.cpu.registers.pc ∧
      reached.attachments = machine.attachments ∧ reached.cycles = machine.cycles
  refl machine := ⟨rfl, rfl, (Core.atPc_self machine.toCore).symm, rfl, rfl⟩
  trans {first second third} before after := by
    obtain ⟨next, word, core, attachments, cycles⟩ := before
    obtain ⟨nextAfter, wordAfter, coreAfter, attachmentsAfter, cyclesAfter⟩ := after
    refine ⟨nextAfter.trans next, wordAfter.trans word, ?_, attachmentsAfter.trans attachments,
      cyclesAfter.trans cycles⟩
    rw [coreAfter, core, Core.atPc_atPc, Core.pc_atPc]

theorem fetch_prefetches : fetch.Follows prefetching False := by
  refine .ofFunction (fun {machine reached fault} performed => ?_)
    (fun {machine reached value} performed => Or.inr ?_)
  · split at performed
    · next failed =>
      cases performed
      exact ⟨Memory.outOfRange_of_read failed, prefetching.refl _⟩
    · cases performed
  · split at performed
    · cases performed
    · next word read =>
      cases performed
      have further := Registers.pc_setPc machine.cpu.registers
        (machine.cpu.registers.pc + instructionSize)
      refine ⟨next_eq_of_fetched rfl further, ?_, ?_, rfl, rfl⟩
      · -- With an empty queue the word that is fetched is the next one.
        cases queued : machine.fetched with
        | nil =>
          rw [nextWord, nextWord, queued, next_of_empty queued, read]
          rfl
        | cons oldest rest =>
          rw [nextWord, nextWord, queued]
          rfl
      · change _ = machine.toCore.atPc (Registers.pc (machine.cpu.registers.setPc _))
        rw [Registers.pc_setPc]
        rfl

theorem fillQueue_prefetches (missing : Nat) : (fillQueue missing).Follows prefetching False :=
  follows_fillQueue fetch_prefetches missing

/-- Filling the queue stops where the word at r15 cannot be read, before the queue is full. -/
theorem fillQueue_error {missing : Nat} {fault : Fault}
    (performed : (fillQueue missing).perform machine = (.error fault, reached)) :
    reached.bus.memory.readWord reached.cpu.registers.pc = .error fault ∧
      reached.fetched.length < machine.fetched.length + missing := by
  induction missing generalizing machine with
  | zero => cases performed
  | succ missing ih =>
    rw [perform_fillQueue_succ, perform_fetch] at performed
    split at performed
    · next fetched =>
      split at fetched
      · cases fetched
      · cases fetched
        obtain ⟨unreadable, short⟩ := ih performed
        simp only [List.length_append, List.length_singleton] at short
        exact ⟨unreadable, by omega⟩
    · next fetched =>
      split at fetched
      · next unreadable =>
        cases fetched
        cases performed
        exact ⟨unreadable, by omega⟩
      · cases fetched

/-- An instruction is about to be executed: both words are queued, r15 is two instructions ahead. -/
structure Filled (machine : Machine) (word ahead : Word) (filled : Machine) : Prop where
  fetched : filled.fetched = [word, ahead]
  core : filled.toCore = machine.toCore.atPc (machine.next + pipelineDistance)
  next : filled.next = machine.next
  word : machine.nextWord = .ok word
  attachments : filled.attachments = machine.attachments
  cycles : filled.cycles = machine.cycles

theorem Filled.pc {word ahead : Word} {filled : Machine} (full : Filled machine word ahead filled) :
    filled.cpu.registers.pc = machine.next + pipelineDistance := by
  rw [full.core]
  exact Core.pc_atPc _ _

theorem filled_of_fillQueue {filled : Machine} {answer : Unit} (short : machine.fetched.length ≤ 1)
    (filling : (fillQueue (fetchDepth - machine.fetched.length)).perform machine =
      (.ok answer, filled)) :
    ∃ word ahead, Filled machine word ahead filled := by
  have length := length_fetched_of_fillQueue filling
  obtain ⟨next, oldest, core, attachments, cycles⟩ :=
    ((fillQueue_prefetches _).returned filling).resolve_left id
  obtain ⟨word, ahead, queued⟩ : ∃ word ahead, filled.fetched = [word, ahead] := by
    apply List.length_eq_two.mp
    rw [length, fetchDepth]
    omega
  refine ⟨word, ahead, queued, ?_, next, ?_, attachments, cycles⟩
  · -- The next address is known, so that r15 is known from the length of the queue.
    rw [← next, Machine.next, queued]
    change _ = machine.toCore.atPc (filled.cpu.registers.pc - pipelineDistance + pipelineDistance)
    rw [BitVec.sub_add_cancel]
    exact core
  · rw [← oldest, nextWord, queued]

/-- A word cannot be decoded, or its instruction stops with a fault. -/
inductive Stops (core : Core) (word : Word) (fault : Fault) : Core → Prop
  | undecoded (refused : Opcode.decode word = .error fault) : Stops core word fault core
  | unexecuted {opcode : Opcode} {reached : Core} (decoded : Opcode.decode word = .ok opcode)
      (executed : (Core.execute opcode).perform core = (.error fault, reached)) :
      Stops core word fault reached

theorem Stops.raised {core reached : Core} {word : Word} {fault : Fault}
    (stops : Stops core word fault reached) (address : Word) :
    (fault.atAddress address).RaisedAt address word ∧
      reached.cpu.registers.pc = core.cpu.registers.pc := by
  cases stops with
  | undecoded refused => exact ⟨Opcode.raisedAt_of_decode refused address, rfl⟩
  | unexecuted decoded executed =>
    obtain ⟨raised, kept⟩ := Core.execute_raised (Opcode.withinBounds_of_decode decoded) executed
    rw [(Opcode.decode_eq_ok decoded).2] at raised
    exact ⟨raised.atAddress address, kept⟩

def executing (machine : Machine) : Core := machine.toCore.atPc (machine.next + pipelineDistance)

/-- What one cycle can come to, by what becomes of the word at the next address. -/
inductive Proceeds (machine : Machine) : Except Fault Unit → Machine → Prop
  /-- A word could not be fetched. -/
  | starved {outside size : Nat} {reached : Machine}
      (unreadable : reached.bus.memory.readWord reached.cpu.registers.pc =
        .error (.outOfRange outside size))
      (short : reached.fetched.length ≤ 1)
      (stays : reached.next = machine.next)
      (uncounted : reached.cycles = machine.cycles) :
      Proceeds machine (.error (.outOfRange outside size)) reached
  /-- The word could not be decoded, or its instruction stopped with a fault. -/
  | stopped {word : Word} {fault : Fault} {reached : Machine}
      (here : machine.nextWord = .ok word)
      (stops : Stops machine.executing word fault reached.toCore)
      (raised : (fault.atAddress machine.next).RaisedAt machine.next word)
      (short : reached.fetched.length = 1)
      (moves : reached.next = machine.next + instructionSize)
      (ahead : reached.cpu.registers.pc = machine.next + pipelineDistance)
      (uncounted : reached.cycles = machine.cycles) :
      Proceeds machine (.error (fault.atAddress machine.next)) reached
  /-- The instruction does not have r15 for a result, or its condition failed. -/
  | continued {word : Word} {opcode : Opcode} {reached : Machine}
      (here : machine.nextWord = .ok word)
      (decoded : Opcode.decode word = .ok opcode)
      (executed : (Core.execute opcode).perform machine.executing = (.ok false, reached.toCore))
      (stays : Sequential.leaves opcode machine.cpu.status = false)
      (short : reached.fetched.length = 1)
      (moves : reached.next = machine.next + instructionSize)
      (counted : reached.cycles = machine.cycles + 1) :
      Proceeds machine (.ok ()) reached
  /-- The instruction has r15 for a result. -/
  | sent {word : Word} {opcode : Opcode} {reached : Machine}
      (here : machine.nextWord = .ok word)
      (decoded : Opcode.decode word = .ok opcode)
      (executed : (Core.execute opcode).perform machine.executing = (.ok true, reached.toCore))
      (leaves : Sequential.leaves opcode machine.cpu.status = true)
      (empty : reached.fetched = [])
      (moves : reached.next = reached.cpu.registers.pc)
      (counted : reached.cycles = machine.cycles + 1) :
      Proceeds machine (.ok ()) reached

theorem Proceeds.short {outcome : Except Fault Unit} (proceeds : machine.Proceeds outcome reached) :
    reached.fetched.length ≤ 1 := by
  cases proceeds with
  | starved _ short => exact short
  | stopped _ _ _ short => exact Nat.le_of_eq short
  | continued _ _ _ _ short => exact Nat.le_of_eq short
  | sent _ _ _ _ empty => simp [empty]

section Full

variable {filled : Machine} {word ahead : Word} {opcode : Opcode} {core : Core}

/-- The machine after its word was taken and has left the given core. -/
def Filled.after (core : Core) (ahead : Word) (machine : Machine) : Machine :=
  ⟨core, [ahead], machine.attachments, machine.cycles⟩

theorem Filled.next_after (full : Filled machine word ahead filled)
    (kept : core.cpu.registers.pc = machine.executing.cpu.registers.pc) :
    (Filled.after core ahead filled).next = machine.next + instructionSize := by
  have same : core.cpu.registers.pc = filled.cpu.registers.pc := by
    rw [kept, full.pc]
    exact Core.pc_atPc _ _
  exact (next_eq_of_taken full.fetched rfl same).trans (congrArg (· + _) full.next)

theorem Filled.proceeds_of_stops {fault : Fault} (full : Filled machine word ahead filled)
    (stops : Stops machine.executing word fault core) :
    machine.Proceeds (.error (fault.atAddress machine.next)) (Filled.after core ahead filled) := by
  obtain ⟨raised, kept⟩ := stops.raised machine.next
  exact .stopped full.word stops raised rfl (full.next_after kept)
    (kept.trans (Core.pc_atPc _ _)) full.cycles

theorem Filled.proceeds_of_executed {branched : Bool} (full : Filled machine word ahead filled)
    (decoded : Opcode.decode word = .ok opcode)
    (executed : (Core.execute opcode).perform machine.executing = (.ok branched, core)) :
    machine.Proceeds (.ok ())
      ⟨core, if branched then [] else [ahead], filled.attachments, filled.cycles + 1⟩ := by
  have bounds := Opcode.withinBounds_of_decode decoded
  obtain ⟨answer, kept⟩ := Core.execute_ok bounds executed
  rw [← leaves_eq_jumps bounds] at answer
  have counted : filled.cycles + 1 = machine.cycles + 1 := congrArg (· + 1) full.cycles
  cases branched with
  | false =>
    exact .continued full.word decoded executed answer.symm rfl (full.next_after (kept rfl)) counted
  | true => exact .sent full.word decoded executed answer.symm rfl (next_of_empty rfl) counted

end Full

/-- A cycle of a machine without peripherals that has at most one word queued. -/
theorem cycle_proceeds (unattended : machine.attachments = [])
    (short : machine.fetched.length ≤ 1) :
    machine.Proceeds (cycle.perform machine).1 (cycle.perform machine).2 := by
  rw [perform_cycle unattended]
  rcases filling : (fillQueue (fetchDepth - machine.fetched.length)).perform machine with
    ⟨fault | answer, filled⟩
  · -- The cycle ends before a word is taken.
    obtain ⟨⟨outside, size, rfl⟩, stays, _, _, _, uncounted⟩ :=
      (fillQueue_prefetches _).faulted filling
    obtain ⟨unreadable, fewer⟩ := fillQueue_error filling
    have shorter : filled.fetched.length ≤ 1 := by
      rw [fetchDepth] at fewer
      omega
    exact .starved unreadable shorter stays uncounted
  · obtain ⟨word, ahead, full⟩ := filled_of_fillQueue short filling
    dsimp only
    rw [full.fetched]
    dsimp only
    -- The address that faults quote is the next address.
    have quoted : filled.cpu.registers.pc - pipelineDistance = machine.next := by
      rw [full.pc, BitVec.add_sub_cancel]
    rw [quoted, perform_executeWord]
    cases decoded : Opcode.decode word with
    | error fault =>
      have stops : Stops machine.executing word fault filled.toCore := by
        rw [full.core]
        exact .undecoded decoded
      exact full.proceeds_of_stops stops
    | ok opcode =>
      dsimp only
      rcases executed : (Core.execute opcode).perform filled.toCore with ⟨fault | branched, core⟩
      · rw [full.core] at executed
        exact full.proceeds_of_stops (.unexecuted decoded executed)
      · rw [full.core] at executed
        exact full.proceeds_of_executed decoded executed

end Machine

end ArmBoard
