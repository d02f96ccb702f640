import ArmBoard.Machine.Pipeline
import ArmBoard.Proofs.Execution.ProgramCounter
import ArmBoard.Proofs.Execution.Shifter

/-!
# One cycle

Without peripherals a cycle fills the queue, takes its oldest word and executes
it. The queue is never found empty, and the only faults are those of the word
that is executed and of the memory it is fetched from.
-/
namespace ArmBoard

/-- The faults of an instruction: its word is unknown or illegal, or memory ends too early. -/
inductive Fault.OfInstruction : Fault → Prop
  | illegal (opcode address : Word) (objection : Objection) :
      OfInstruction (.illegal opcode address objection)
  | unknown (opcode address : Word) : OfInstruction (.unknown opcode address)
  | outOfRange (address size : Nat) : OfInstruction (.outOfRange address size)

namespace Fault

theorem Ordinary.ofInstruction {fault : Fault} (ordinary : fault.Ordinary) :
    fault.OfInstruction := by
  cases ordinary with
  | illegal => exact .illegal _ _ _
  | outOfRange => exact .outOfRange _ _

theorem OfInstruction.atAddress {fault : Fault} (expected : fault.OfInstruction) (address : Word) :
    (fault.atAddress address).OfInstruction := by
  cases expected with
  | illegal => exact .illegal _ _ _
  | unknown => exact .unknown _ _
  | outOfRange => exact .outOfRange _ _

end Fault

namespace Opcode

theorem decode_eq_error {word : Word} {fault : Fault} (failed : decode word = .error fault) :
    fault = .unknown word 0 ∨ ∃ objection, fault = .illegal word 0 objection := by
  unfold decode at failed
  cases found : Instruction.decode word with
  | error fault =>
    rw [found] at failed
    cases failed
    exact Instruction.decode_eq_error found
  | ok instruction =>
    rw [found] at failed
    cases failed

theorem ofInstruction_of_decode {word : Word} {fault : Fault}
    (failed : decode word = .error fault) : fault.OfInstruction := by
  rcases decode_eq_error failed with rfl | ⟨objection, rfl⟩
  · exact .unknown _ _
  · exact .illegal _ _ _

end Opcode

namespace Machine

variable {machine reached : Machine}

theorem perform_stepPeripherals (unattended : machine.attachments = []) :
    stepPeripherals.perform machine = (.ok (), machine) := by
  unfold stepPeripherals
  rw [Action.perform_bind, Action.perform_ask]
  dsimp only
  rw [unattended]
  rfl

theorem perform_fetch (machine : Machine) :
    fetch.perform machine =
      match machine.bus.memory.readWord machine.cpu.registers.pc with
      | .error fault => (.error fault, machine)
      | .ok word =>
          (.ok (), { machine with
            fetched := machine.fetched ++ [word]
            cpu := { machine.cpu with
              registers := machine.cpu.registers.advancePc instructionSize } }) := rfl

theorem perform_fillQueue_succ (missing : Nat) (machine : Machine) :
    (fillQueue (missing + 1)).perform machine =
      match fetch.perform machine with
      | (.ok _, fetched) => (fillQueue missing).perform fetched
      | (.error fault, fetched) => (.error fault, fetched) := by
  rw [fillQueue, Action.perform_bind]
  rcases fetch.perform machine with ⟨_ | _, fetched⟩ <;> rfl

theorem perform_executeWord (address word : Word) (machine : Machine) :
    (executeWord address word).perform machine =
      match Opcode.decode word with
      | .error fault => (.error (fault.atAddress address), machine)
      | .ok opcode =>
        match (Core.execute opcode).perform machine.toCore with
        | (.error fault, core) =>
            (.error (fault.atAddress address), { machine with toCore := core })
        | (.ok branched, core) => (.ok branched, { machine with toCore := core }) := by
  unfold executeWord
  rw [Action.perform_mapFault, Action.perform_bind, Action.perform_ask]
  cases Opcode.decode word with
  | error fault => rfl
  | ok opcode =>
    dsimp only
    rw [onCore, Action.perform_onPart]
    rcases (Core.execute opcode).perform machine.toCore with ⟨_ | _, core⟩ <;> rfl

/-- What a cycle does when there are no peripherals to step. -/
theorem perform_cycle (unattended : machine.attachments = []) :
    cycle.perform machine =
      match (fillQueue (fetchDepth - machine.fetched.length)).perform machine with
      | (.error fault, filled) => (.error fault, filled)
      | (.ok _, filled) =>
        match filled.fetched with
        | [] => (.error (.misuse .emptyPrefetch), filled)
        | word :: rest =>
          match (executeWord (filled.cpu.registers.pc - pipelineDistance) word).perform
              { filled with fetched := rest } with
          | (.error fault, reached) => (.error fault, reached)
          | (.ok branched, reached) =>
              (.ok (), { reached with
                fetched := if branched then [] else reached.fetched
                cycles := reached.cycles + 1 }) := by
  unfold cycle
  rw [Action.perform_bind, perform_stepPeripherals unattended]
  dsimp only
  rw [Action.perform_bind, Action.perform_ask]
  dsimp only
  rw [Action.perform_bind]
  rcases (fillQueue (fetchDepth - machine.fetched.length)).perform machine with ⟨_ | _, filled⟩
  · rfl
  · dsimp only
    -- Reading r15 changes nothing, so what follows starts from the filled queue.
    rw [onCore, Action.perform_bind, Action.perform_onPart]
    change (takeFetched >>= _).perform filled = _
    rw [Action.perform_bind, takeFetched, Action.perform_ofFunction]
    cases filled.fetched with
    | nil => rfl
    | cons word rest =>
      dsimp only
      rw [Action.perform_bind]
      rcases (executeWord (filled.cpu.registers.pc - pipelineDistance) word).perform
        { filled with fetched := rest } with ⟨_ | _, reached⟩ <;> rfl

section Loops

variable {conduct : Conduct Machine}

theorem follows_fillQueue (fetched : fetch.Follows conduct False) (missing : Nat) :
    (fillQueue missing).Follows conduct False := by
  induction missing with
  | zero => exact .pure _
  | succ missing ih => exact .bind fetched fun _ => ih

theorem follows_stepPeripherals
    (stepped : ∀ index attachment, (stepAttachment index attachment).Follows conduct False) :
    stepPeripherals.Follows conduct False := by
  have all (index : Nat) (attachments : List Attachment) :
      (stepFrom index attachments).Follows conduct False := by
    induction attachments generalizing index with
    | nil => exact .pure ()
    | cons attachment rest ih => exact .bind (stepped index attachment) fun _ => ih (index + 1)
  exact .bind (.ask fun asked => by cases asked) fun attachments => all 0 attachments

end Loops

/-- The faults of an instruction, and neither the attachments nor the count change. -/
def quiet : Conduct Machine where
  admits := Fault.OfInstruction
  keeps machine reached :=
    reached.attachments = machine.attachments ∧ reached.cycles = machine.cycles
  refl _ := ⟨rfl, rfl⟩
  trans first second := ⟨second.1.trans first.1, second.2.trans first.2⟩

theorem fetch_follows : fetch.Follows quiet False := by
  refine .ofFunction (fun {machine reached fault} performed => ?_)
    (fun {machine reached value} performed => Or.inr ?_)
  · split at performed
    · next failed =>
      cases performed
      obtain ⟨_, _, rfl⟩ := Memory.outOfRange_of_read failed
      exact ⟨.outOfRange _ _, rfl, rfl⟩
    · cases performed
  · split at performed
    · cases performed
    · cases performed
      exact ⟨rfl, rfl⟩

theorem fillQueue_follows (missing : Nat) : (fillQueue missing).Follows quiet False :=
  follows_fillQueue fetch_follows missing

/-- Filling the queue adds exactly as many words as were missing. -/
theorem length_fetched_of_fillQueue {missing : Nat} {answer : Unit}
    (performed : (fillQueue missing).perform machine = (.ok answer, reached)) :
    reached.fetched.length = machine.fetched.length + missing := by
  induction missing generalizing machine with
  | zero =>
    cases performed
    rfl
  | succ missing ih =>
    rw [perform_fillQueue_succ, perform_fetch] at performed
    split at performed
    · next read =>
      split at read
      · cases read
      · cases read
        have added := ih performed
        simp only [List.length_append, List.length_singleton] at added
        omega
    · cases performed

theorem executeWord_follows (address word : Word) :
    (executeWord address word).Follows quiet False where
  faulted {machine reached fault} performed := by
    rw [perform_executeWord] at performed
    split at performed
    · next failed =>
      cases performed
      exact ⟨(Opcode.ofInstruction_of_decode failed).atAddress address, rfl, rfl⟩
    · next decoded =>
      split at performed
      · next failed =>
        cases performed
        have ordinary := (Core.execute_error (Opcode.withinBounds_of_decode decoded) failed).1
        exact ⟨ordinary.ofInstruction.atAddress address, rfl, rfl⟩
      · cases performed
  returned {machine reached value} performed := by
    rw [perform_executeWord] at performed
    split at performed
    · cases performed
    · split at performed
      · cases performed
      · cases performed
        exact Or.inr ⟨rfl, rfl⟩

/-- The queue is full when its oldest word is taken, so that there is one. -/
theorem fetched_of_fillQueue {answer : Unit}
    (performed : (fillQueue (fetchDepth - machine.fetched.length)).perform machine =
      (.ok answer, reached)) : reached.fetched ≠ [] := by
  intro empty
  have length := length_fetched_of_fillQueue performed
  rw [empty, List.length_nil, fetchDepth] at length
  omega

/-- Without peripherals a cycle counts itself, or stops with a fault of its instruction. -/
theorem cycle_cases (unattended : machine.attachments = []) :
    (∃ fault reached, cycle.perform machine = (.error fault, reached) ∧ fault.OfInstruction ∧
      reached.attachments = [] ∧ reached.cycles = machine.cycles) ∨
    (∃ reached, cycle.perform machine = (.ok (), reached) ∧
      reached.attachments = [] ∧ reached.cycles = machine.cycles + 1) := by
  rw [perform_cycle unattended]
  rcases filling : (fillQueue (fetchDepth - machine.fetched.length)).perform machine with
    ⟨fault | answer, filled⟩
  · obtain ⟨expected, attachments, cycles⟩ := (fillQueue_follows _).faulted filling
    exact Or.inl ⟨fault, filled, rfl, expected, attachments.trans unattended, cycles⟩
  · obtain ⟨attachments, cycles⟩ := ((fillQueue_follows _).returned filling).resolve_left id
    have alone := attachments.trans unattended
    dsimp only
    split
    · -- A filled queue has an oldest word.
      next empty => exact absurd empty (fetched_of_fillQueue filling)
    · next word rest _ =>
      rcases executing : (executeWord (filled.cpu.registers.pc - pipelineDistance) word).perform
        { filled with fetched := rest } with ⟨fault | branched, reached⟩
      · obtain ⟨expected, after, counted⟩ := (executeWord_follows _ _).faulted executing
        exact Or.inl ⟨fault, reached, rfl, expected, after.trans alone, counted.trans cycles⟩
      · obtain ⟨after, counted⟩ := ((executeWord_follows _ _).returned executing).resolve_left id
        exact Or.inr ⟨_, rfl, after.trans alone, congrArg (· + 1) (counted.trans cycles)⟩

theorem cycle_ok (unattended : machine.attachments = [])
    (performed : cycle.perform machine = (.ok (), reached)) :
    reached.attachments = [] ∧ reached.cycles = machine.cycles + 1 := by
  rcases cycle_cases unattended with ⟨fault, other, stopped, _⟩ | ⟨other, succeeded, kept⟩
  · rw [stopped] at performed
    cases performed
  · rw [succeeded] at performed
    cases performed
    exact kept

/-- What becomes of a machine by cycles, those that stop with a fault included. -/
inductive Reaches (start : Machine) : Machine → Prop
  | start : Reaches start start
  | later {machine : Machine} : Reaches start machine → Reaches start (cycle.perform machine).2

theorem Reaches.unattended {start : Machine} (reaches : Reaches start machine)
    (unattended : start.attachments = []) : machine.attachments = [] := by
  induction reaches with
  | start => exact unattended
  | @later machine _ ih =>
    rcases cycle_cases ih with ⟨fault, reached, stopped, _, alone, _⟩ | ⟨reached, cycled, alone, _⟩
    · rw [stopped]
      exact alone
    · rw [cycled]
      exact alone

/--
A family that recognises a word can build its instruction, decoding fails only with an unknown or
an illegal word, and whatever is decoded names no register above r15, never shifts by the width of
a word or more and stops only with an illegal opcode or an access outside memory. A machine
without peripherals therefore stops with nothing worse, as long as its count is not exhausted.
-/
theorem decoded_words_are_safe_to_execute :
    (∀ (word : Word) (family : Family), family.recognises word = true →
      ∃ instruction, family.build word = .ok instruction) ∧
    (∀ (word : Word) (fault : Fault), Opcode.decode word = .error fault →
      fault = .unknown word 0 ∨ ∃ objection, fault = .illegal word 0 objection) ∧
    (∀ (word : Word) (opcode : Opcode), Opcode.decode word = .ok opcode →
      (∀ number ∈ opcode.instruction.registers, number < 16) ∧
      Core.performGuarded opcode.raw opcode.instruction =
        Core.performInstruction opcode.raw opcode.instruction ∧
      ∀ (core reached : Core) (fault : Fault),
        (Core.execute opcode).perform core = (.error fault, reached) → fault.Ordinary) ∧
    (∀ start machine reached : Machine, start.attachments = [] → start.Reaches machine →
      machine.cycles < 0xFFFFFFFFFFFFFFFF → ∀ outcome, cycle.perform machine = (outcome, reached) →
        reached.cycles ≤ 0xFFFFFFFFFFFFFFFF ∧
          ∀ fault, outcome = .error fault → fault.OfInstruction) := by
  refine ⟨fun word family recognised => Family.build_of_recognises recognised,
    fun word fault failed => Opcode.decode_eq_error failed, ?_, ?_⟩
  · intro word opcode decoded
    have bounds := Opcode.withinBounds_of_decode decoded
    refine ⟨bounds.registers_lt, Core.performGuarded_eq bounds opcode.raw, ?_⟩
    intro core reached fault performed
    exact (Core.execute_error bounds performed).1
  · intro start machine reached unattended reaches counted outcome performed
    rcases cycle_cases (reaches.unattended unattended) with
      ⟨fault, other, stopped, expected, _, cycles⟩ | ⟨other, succeeded, _, cycles⟩
    · rw [stopped] at performed
      cases performed
      refine ⟨by omega, ?_⟩
      rintro _ ⟨⟩
      exact expected
    · rw [succeeded] at performed
      cases performed
      exact ⟨by omega, fun fault failed => by cases failed⟩

/-- A doubleword load, executed and cycled on a machine without memory. -/
theorem doubleword_load_without_memory :
    (∃ instruction, Family.doubleTransfer.build 0xE1C020D0 = .ok instruction) ∧
    Opcode.decode 0xE1C010D0 = .error (.illegal 0xE1C010D0 0 .oddPair) ∧
    (∃ opcode, Opcode.decode 0xE1C020D0 = .ok opcode ∧
      3 ∈ opcode.instruction.registers ∧ (Fault.outOfRange 0 0).Ordinary) ∧
    (cycle.perform (ofMemory (.blank 0 0))).1 = .error (.outOfRange 0 0) ∧
    (Fault.outOfRange 0 0).OfInstruction := by
  obtain ⟨builds, fails, executes, cycles⟩ := decoded_words_are_safe_to_execute
  let instruction : Instruction := .doubleTransfer .load 2 ⟨0, .immediate 0, .pre, .up, false⟩
  have decoded : Opcode.decode 0xE1C020D0 = .ok ⟨instruction, .al, 0xE1C020D0⟩ := rfl
  have refused : Opcode.decode 0xE1C010D0 = .error (.illegal 0xE1C010D0 0 .oddPair) := rfl
  have stopped : (Core.execute ⟨instruction, .al, 0xE1C020D0⟩).perform
      ⟨.zeroed, .ofMemory (.blank 0 0)⟩ =
        (.error (.outOfRange 0 0), ⟨.zeroed, .ofMemory (.blank 0 0)⟩) := rfl
  have cycled : cycle.perform (ofMemory (.blank 0 0)) =
      (.error (.outOfRange 0 0), ofMemory (.blank 0 0)) := rfl
  refine ⟨builds 0xE1C020D0 .doubleTransfer (by decide), ?_,
    ⟨_, decoded, by decide, (executes _ _ decoded).2.2 _ _ _ stopped⟩, by rw [cycled], ?_⟩
  · rcases fails _ _ refused with unknown | ⟨objection, illegal⟩
    · cases unknown
    · rw [refused]
  · exact (cycles _ _ _ rfl .start (by decide) _ cycled).2 _ rfl

end Machine

end ArmBoard
