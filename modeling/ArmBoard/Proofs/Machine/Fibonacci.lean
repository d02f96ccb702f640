import Mathlib.Data.Nat.Fib.Basic
import ArmBoard.Proofs.Machine.Blocks
import ArmBoard.Proofs.Memory.Frame

/-!
# A program that computes Fibonacci numbers

The program at address zero calls a routine and then waits in a branch to
itself. The routine counts r0 down while r1 and r2 move along the Fibonacci
numbers, and returns the number in r1. There are three blocks: the way to the
head of the loop, one round of the loop, and the way back from its head. What
holds at the head is carried round the loop by induction on r0.
-/
namespace ArmBoard.Fibonacci

open ArmBoard.Core (performInstruction)
open ArmBoard.Sequential (Leads)

def program : Vector Word 12 := #v[
  0xEB000000, -- BL #8
  0xEAFFFFFE, -- B .
  0xE3A01000, -- MOV R1, #0
  0xE3A02001, -- MOV R2, #1
  0xE3300000, -- TEQ R0, #0
  0x01A00001, -- MOVEQ R0, R1
  0x01A0F00E, -- MOVEQ PC, LR
  0xE0813002, -- ADD R3, R1, R2
  0xE1A01002, -- MOV R1, R2
  0xE1A02003, -- MOV R2, R3
  0xE2400001, -- SUB R0, R0, #1
  0xEAFFFFF7] -- B #-36

/-- What the words of the program say: when to do what. -/
def listing : Vector (Condition × Instruction) 12 := #v[
  (.al, .branch true 0),
  (.al, .branch false (-8)),
  (.al, .dataProcessing .mov false 0 1 (.immediate 0 0)),
  (.al, .dataProcessing .mov false 0 2 (.immediate 1 0)),
  (.al, .dataProcessing .teq true 0 0 (.immediate 0 0)),
  (.eq, .dataProcessing .mov false 0 0 (.register (.immediate 0) .lsl 1)),
  (.eq, .dataProcessing .mov false 0 15 (.register (.immediate 0) .lsl 14)),
  (.al, .dataProcessing .add false 1 3 (.register (.immediate 0) .lsl 2)),
  (.al, .dataProcessing .mov false 0 1 (.register (.immediate 0) .lsl 2)),
  (.al, .dataProcessing .mov false 0 2 (.register (.immediate 0) .lsl 3)),
  (.al, .dataProcessing .sub false 0 0 (.immediate 1 0)),
  (.al, .branch false (-36))]

theorem decode_program (index : Fin 12) :
    Opcode.decode program[index] = .ok ⟨listing[index].2, listing[index].1, program[index]⟩ := by
  match index with
  | 0 | 1 | 2 | 3 | 4 | 5 | 6 | 7 | 8 | 9 | 10 | 11 => rfl

def addressOf (index : Fin 12) : Word := BitVec.ofNat 32 (4 * index)

/-- Memory of 64 KiB with the program at address zero. -/
structure Loaded (memory : Memory) : Prop where
  size : memory.size = 0x10000
  word : ∀ index, memory.readWord (addressOf index) = .ok program[index]

/-- The program as it lies in memory. -/
def image : List Byte := program.toList.flatMap (Bytes.ofValue 4)

theorem image_at : ∀ (index : Fin 12) (place : Fin 4),
    image[(addressOf index).toNat + place]? = (Bytes.ofValue 4 program[index])[place.val]? := by
  decide

/-- Wherever it is loaded into memory of that size, the program is there afterwards. -/
theorem loaded_of_loadProgram {machine : Machine} (size : machine.bus.memory.size = 0x10000) :
    Loaded (machine.loadProgram image).2.bus.memory := by
  have put : (machine.loadProgram image).2.bus.memory = machine.bus.memory.setBytes 0 image := by
    have fits : machine.bus.memory.room 0 image.length = image.length := by
      rw [Memory.room, size]
      rfl
    simp only [Machine.loadProgram, Memory.putChunk, fits, List.take_length]
    rfl
  rw [put]
  refine ⟨size, fun index => ?_⟩
  have inside : (addressOf index).toNat + 4 ≤ (machine.bus.memory.setBytes 0 image).size := by
    rw [Memory.size_setBytes, size]
    revert index
    decide
  have bytes : (machine.bus.memory.setBytes 0 image).bytesAt (addressOf index).toNat 4 =
      Bytes.ofValue 4 program[index] := by
    rw [Memory.bytesAt_eq]
    refine List.ext_getElem (by simp [Bytes.length_ofValue]) fun place bound other => ?_
    rw [List.length_map, List.length_range] at bound
    have found := image_at index ⟨place, bound⟩
    rw [List.getElem?_eq_getElem other] at found
    rw [List.getElem_map, List.getElem_range, Memory.byteAt_setBytes, if_pos (Nat.zero_le _),
      Nat.sub_zero, found, Option.getD_some]
  rw [Memory.readWord, Memory.read, Memory.check_eq_ok inside]
  dsimp only
  rw [bytes, Bytes.toValue_ofValue]

theorem Loaded.exists_behind {memory : Memory} (loaded : Loaded memory) (index : Fin 12) :
    ∃ ahead, memory.readWord (addressOf index + instructionSize) = .ok ahead := by
  have inside : (addressOf index + instructionSize).toNat + 4 ≤ 0x10000 := by
    revert index
    decide
  rw [← loaded.size] at inside
  exact Memory.exists_read_eq_ok inside

/-- The processor when it executes an instruction of the program, with r15 ahead. -/
def executing (cpu : Cpu) (index : Fin 12) : Cpu :=
  { cpu with registers := cpu.registers.setPc (addressOf index + pipelineDistance) }

@[simp]
theorem get_executing (cpu : Cpu) (index : Fin 12) {number : Fin 16} (general : number ≠ 15) :
    (executing cpu index).registers.get number = cpu.registers.get number := by
  rw [executing, Registers.setPc, Registers.get_set, if_neg general.symm]

theorem pc_executing (cpu : Cpu) (index : Fin 12) :
    (executing cpu index).registers.pc = addressOf index + pipelineDistance :=
  Registers.pc_setPc _ _

section Instructions

variable {bus : Bus} (loaded : Loaded bus.memory) (cpu : Cpu) (index : Fin 12)
include loaded

theorem leads_performed {reached : Cpu}
    (passes : cpu.status.passes listing[index].1 = some true)
    (performed : (performInstruction program[index] listing[index].2).perform
      ⟨executing cpu index, bus⟩ = (.ok (), ⟨reached, bus⟩)) :
    Leads 1 ⟨⟨cpu, bus⟩, addressOf index⟩ ⟨⟨reached, bus⟩,
      if listing[index].2.targetsPc then reached.registers.pc
      else addressOf index + instructionSize⟩ := by
  obtain ⟨ahead, behind⟩ := loaded.exists_behind index
  exact Sequential.leads_performed ⟨⟨cpu, bus⟩, addressOf index⟩ (loaded.word index) behind
    (decode_program index) passes performed rfl

theorem leads_passed_over (fails : cpu.status.passes listing[index].1 = some false) :
    Leads 1 ⟨⟨cpu, bus⟩, addressOf index⟩
      ⟨⟨executing cpu index, bus⟩, addressOf index + instructionSize⟩ := by
  obtain ⟨ahead, behind⟩ := loaded.exists_behind index
  exact Sequential.leads_passed_over ⟨⟨cpu, bus⟩, addressOf index⟩ (loaded.word index) behind
    (decode_program index) fails

/-- An instruction that computes a register from the others and goes on behind itself. -/
theorem leads_assigned (number : Fin 16) (word : Word) (value : Registers → Word)
    (passes : cpu.status.passes listing[index].1 = some true)
    (stays : listing[index].2.targetsPc = false)
    (performed : ∀ cpu, (performInstruction program[index] listing[index].2).perform ⟨cpu, bus⟩ =
      (.ok (), ⟨cpu.withRegister number (value cpu.registers), bus⟩))
    (computed : value (executing cpu index).registers = word) :
    Leads 1 ⟨⟨cpu, bus⟩, addressOf index⟩
      ⟨⟨(executing cpu index).withRegister number word, bus⟩,
        addressOf index + instructionSize⟩ := by
  have here := performed (executing cpu index)
  rw [computed] at here
  have leads := leads_performed loaded cpu index passes here
  rw [if_neg (ne_true_of_eq_false stays)] at leads
  exact leads

/-- An instruction that computes r15 from the registers goes there. -/
theorem leads_jumped (word : Word) (value : Registers → Word)
    (passes : cpu.status.passes listing[index].1 = some true)
    (leaves : listing[index].2.targetsPc = true)
    (performed : ∀ cpu, (performInstruction program[index] listing[index].2).perform ⟨cpu, bus⟩ =
      (.ok (), ⟨cpu.withRegister 15 (value cpu.registers), bus⟩))
    (computed : value (executing cpu index).registers = word) :
    Leads 1 ⟨⟨cpu, bus⟩, addressOf index⟩
      ⟨⟨(executing cpu index).withRegister 15 word, bus⟩, word⟩ := by
  have here := performed (executing cpu index)
  rw [computed] at here
  have leads := leads_performed loaded cpu index passes here
  rw [if_pos leaves, Cpu.pc_withRegister] at leads
  exact leads

end Instructions

/--
At the head of the loop r0 is what is left to count, r1 and r2 are consecutive numbers, and r14
is where to return.
-/
structure AtHead (registers : Registers) (left current following : Word) : Prop where
  left : registers.get 0 = left
  current : registers.get 1 = current
  following : registers.get 2 = following
  link : registers.get 14 = 4

/-- The program has returned and is about to branch to itself. -/
structure Returned (registers : Registers) (result : Word) : Prop where
  pc : registers.pc = 4
  link : registers.get 14 = 4
  result : registers.get 0 = result

/-- The processor after a register was tested for being zero. -/
def compared (cpu : Cpu) (tested : Fin 16) : Cpu :=
  { cpu with
    status := cpu.status.withFlags
      (.logical (cpu.registers.get tested ^^^ 0) cpu.status.carry cpu.status.overflow) }

@[simp]
theorem get_compared (cpu : Cpu) (tested number : Fin 16) :
    (compared cpu tested).registers.get number = cpu.registers.get number := rfl

/-- The conditional instructions are performed when there is nothing left to count. -/
theorem passes_compared (cpu : Cpu) (tested : Fin 16) :
    (compared cpu tested).status.passes .eq = some (cpu.registers.get tested == 0) := by
  simp [Status.passes, compared, AluResult.logical, AluResult.ofValue]

section Blocks

variable {bus : Bus} (loaded : Loaded bus.memory) {cpu : Cpu} {left current following : Word}
include loaded

theorem leads_to_head :
    ∃ head, Leads 3 ⟨⟨cpu, bus⟩, 0⟩ ⟨⟨head, bus⟩, 16⟩ ∧
      AtHead head.registers (cpu.registers.get 0) 0 1 := by
  -- The call writes r14 before r15, so that it is neither an assignment nor a plain jump.
  have called : Leads 1 ⟨⟨cpu, bus⟩, 0⟩
      ⟨⟨((executing cpu 0).withRegister 14 4).withRegister 15 8, bus⟩, 8⟩ := by
    have performed : (performInstruction program[0] listing[0].2).perform ⟨executing cpu 0, bus⟩ =
        (.ok (), ⟨((executing cpu 0).withRegister 14
          ((executing cpu 0).registers.pc - pipelineDistance + instructionSize)).withRegister 15
            ((executing cpu 0).registers.pc + 0), bus⟩) := rfl
    rw [pc_executing] at performed
    have leads : Leads 1 ⟨⟨cpu, bus⟩, 0⟩ ⟨⟨((executing cpu 0).withRegister 14 4).withRegister 15 8,
        bus⟩, (((executing cpu 0).withRegister 14 4).withRegister 15 8).registers.pc⟩ :=
      leads_performed loaded cpu 0 rfl performed
    rw [Cpu.pc_withRegister] at leads
    exact leads
  have way := calc
    Leads 1 ⟨⟨cpu, bus⟩, 0⟩ _ := called
    Leads 1 _ _ := leads_assigned loaded _ 2 1 0 (fun _ => 0) rfl rfl (fun _ => rfl) rfl
    Leads 1 _ _ := leads_assigned loaded _ 3 2 1 (fun _ => 1) rfl rfl (fun _ => rfl) rfl
  refine ⟨_, way, ?_, ?_, ?_, ?_⟩ <;>
    simp [Cpu.get_withRegister]

theorem leads_compared : Leads 1 ⟨⟨cpu, bus⟩, 16⟩ ⟨⟨compared (executing cpu 4) 0, bus⟩, 20⟩ :=
  leads_performed loaded cpu 4 rfl rfl

/-- One round of the loop. -/
theorem leads_round (head : AtHead cpu.registers left current following) (more : left ≠ 0) :
    ∃ after, Leads 8 ⟨⟨cpu, bus⟩, 16⟩ ⟨⟨after, bus⟩, 16⟩ ∧
      AtHead after.registers (left - 1) following (current + following) := by
  obtain ⟨counts, first, second, link⟩ := head
  have skips : (compared (executing cpu 4) 0).status.passes .eq = some false := by
    rw [passes_compared, get_executing _ _ (by decide), counts, beq_false_of_ne more]
  have round := calc
    Leads 1 ⟨⟨cpu, bus⟩, 16⟩ _ := leads_compared loaded
    Leads 1 _ _ := leads_passed_over loaded _ 5 skips
    Leads 1 _ _ := leads_passed_over loaded _ 6 skips
    Leads 1 _ _ := leads_assigned loaded _ 7 3 (current + following)
      (fun registers => (AluResult.add (registers.get 1) (registers.get 2)).value) rfl rfl
      (fun _ => rfl) (by simp [AluResult.value_add, first, second])
    Leads 1 _ _ := leads_assigned loaded _ 8 1 following (·.get 2) rfl rfl (fun _ => rfl)
      (by simp [Cpu.get_withRegister, second])
    Leads 1 _ _ := leads_assigned loaded _ 9 2 (current + following) (·.get 3) rfl rfl
      (fun _ => rfl) (by simp [Cpu.get_withRegister])
    Leads 1 _ _ := leads_assigned loaded _ 10 0 (left - 1)
      (fun registers => (AluResult.sub (registers.get 0) 1).value) rfl rfl (fun _ => rfl)
      (by simp [Cpu.get_withRegister, AluResult.value_sub, counts])
    Leads 1 _ _ := leads_jumped loaded _ 11 16 (·.pc + -36) rfl rfl (fun _ => rfl)
      (by rw [pc_executing]; rfl)
  refine ⟨_, round, ?_, ?_, ?_, ?_⟩ <;>
    simp [Cpu.get_withRegister, link]

/-- The way back, when there is nothing left to count. -/
theorem leads_back (head : AtHead cpu.registers 0 current following) :
    ∃ final, Leads 3 ⟨⟨cpu, bus⟩, 16⟩ ⟨⟨final, bus⟩, 4⟩ ∧ Returned final.registers current := by
  obtain ⟨counts, first, _, link⟩ := head
  have passes : (compared (executing cpu 4) 0).status.passes .eq = some true := by
    rw [passes_compared, get_executing _ _ (by decide), counts]
    rfl
  have back := calc
    Leads 1 ⟨⟨cpu, bus⟩, 16⟩ _ := leads_compared loaded
    Leads 1 _ _ := leads_assigned loaded _ 5 0 current (·.get 1) passes rfl (fun _ => rfl)
      (by simp [first])
    Leads 1 _ _ := leads_jumped loaded _ 6 4 (·.get 14) passes rfl (fun _ => rfl)
      (by simp [Cpu.get_withRegister, link])
  refine ⟨_, back, Cpu.pc_withRegister _ _, ?_, ?_⟩ <;>
    simp [Cpu.get_withRegister, link]

/-- The branch to itself changes nothing at all. -/
theorem leads_nowhere {result : Word} (returned : Returned cpu.registers result) (count : Nat) :
    Leads count ⟨⟨cpu, bus⟩, 4⟩ ⟨⟨cpu, bus⟩, 4⟩ := by
  have same : (executing cpu 1).withRegister 15 4 = cpu := by
    rw [← returned.pc]
    simp [executing, Cpu.withRegister, Registers.setPc, Registers.set, Registers.pc, Registers.get]
  have once := leads_jumped loaded cpu 1 4 (·.pc + -8) rfl rfl (fun _ => rfl)
    (by rw [pc_executing]; rfl)
  rw [same] at once
  induction count with
  | zero => exact .refl _
  | succ count ih => exact ih.trans once

end Blocks

/-- The Fibonacci number of an index, as far as it fits into a word. -/
def number (index : Nat) : Word := BitVec.ofNat 32 (Nat.fib index)

theorem number_add_two (index : Nat) :
    number index + number (index + 1) = number (index + 2) := by
  rw [number, number, number, Nat.fib_add_two, BitVec.ofNat_add]

/-- From the head of the loop, by induction on what is left to count. -/
theorem leads_around {bus : Bus} (loaded : Loaded bus.memory) {cpu : Cpu} {count index : Nat}
    (small : count < 2 ^ 32)
    (head : AtHead cpu.registers (BitVec.ofNat 32 count) (number index) (number (index + 1))) :
    ∃ final, Leads (8 * count + 3) ⟨⟨cpu, bus⟩, 16⟩ ⟨⟨final, bus⟩, 4⟩ ∧
      Returned final.registers (number (index + count)) := by
  induction count generalizing cpu index with
  | zero => exact leads_back loaded head
  | succ count ih =>
    have more : BitVec.ofNat 32 (count + 1) ≠ 0 := by
      intro zero
      have value := congrArg BitVec.toNat zero
      rw [BitVec.toNat_ofNat, Nat.mod_eq_of_lt small] at value
      exact Nat.succ_ne_zero count value
    obtain ⟨after, round, next⟩ := leads_round loaded head more
    have less : BitVec.ofNat 32 (count + 1) - 1 = BitVec.ofNat 32 count := by
      rw [BitVec.ofNat_add]
      exact BitVec.add_sub_cancel _ _
    rw [less, number_add_two] at next
    -- The head is reached again one number further along.
    obtain ⟨final, rest, returned⟩ := ih (by omega) next
    refine ⟨final, ?_, ?_⟩
    · rw [show 8 * (count + 1) + 3 = 8 + (8 * count + 3) by omega]
      exact round.trans rest
    · rw [show index + (count + 1) = index + 1 + count by omega]
      exact returned

/--
For every word in r0 the program returns after eight instructions for each number it passes and
six more, with that Fibonacci number in r0, and then stays where it is.
-/
theorem computes_the_number_in_r0 {machine : Machine} {n : Word}
    (loaded : Loaded machine.bus.memory) (unattended : machine.attachments = [])
    (empty : machine.fetched = []) (start : machine.cpu.registers.pc = 0)
    (input : machine.cpu.registers.get 0 = n) :
    ∃ reached, (Machine.runCounted (8 * n.toNat + 6)).perform machine =
        (.ok (8 * n.toNat + 6), reached) ∧
      reached.cpu.registers.pc = 4 ∧ reached.cpu.registers.lr = 4 ∧
      reached.cpu.registers.get 0 = BitVec.ofNat 32 (Nat.fib n.toNat) ∧
      ∀ further, (Machine.runCounted further).perform reached =
        (.ok further, { reached with cycles := reached.cycles + further }) := by
  have tracks : machine.Tracks ⟨⟨machine.cpu, machine.bus⟩, 0⟩ :=
    ⟨unattended, rfl, .inl ⟨empty, start⟩⟩
  obtain ⟨head, way, atHead⟩ : ∃ head, Leads 3 ⟨⟨machine.cpu, machine.bus⟩, 0⟩
      ⟨⟨head, machine.bus⟩, 16⟩ ∧ AtHead head.registers (machine.cpu.registers.get 0) 0 1 :=
    leads_to_head loaded
  have counted : machine.cpu.registers.get 0 = BitVec.ofNat 32 n.toNat := by
    rw [input, BitVec.ofNat_toNat, BitVec.setWidth_eq]
  rw [counted] at atHead
  obtain ⟨final, around, returned⟩ : ∃ final, Leads (8 * n.toNat + 3) ⟨⟨head, machine.bus⟩, 16⟩
      ⟨⟨final, machine.bus⟩, 4⟩ ∧ Returned final.registers (number (0 + n.toNat)) :=
    leads_around loaded n.isLt atHead
  rw [Nat.zero_add] at returned
  have whole := way.trans around
  rw [show 3 + (8 * n.toNat + 3) = 8 * n.toNat + 6 by omega] at whole
  obtain ⟨reached, ran, tracked, _⟩ := tracks.led whole
  have core : reached.toCore = ⟨final, machine.bus⟩ := tracked.core
  have cpu : reached.cpu = final := congrArg Core.cpu core
  refine ⟨reached, ran, ?_, ?_, ?_, fun further => ?_⟩
  · rw [cpu]
    exact returned.pc
  · rw [cpu]
    exact returned.link
  · rw [cpu]
    exact returned.result
  · -- The interpreter has not moved, and with nothing queued neither has the machine.
    obtain ⟨after, stayed, stays, counted⟩ := tracked.led (leads_nowhere loaded returned further)
    rw [tracked.eq_withCycles stays returned.pc, counted] at stayed
    exact stayed

/-- The program in otherwise blank memory, and ten in all registers but r15. -/
def tenth : Machine :=
  let machine := ((Machine.ofMemory (.blank 0x10000 12)).loadProgram image).2
  { machine with cpu.registers := Registers.setPc ⟨Vector.replicate 16 10⟩ 0 }

theorem tenth_number_after_eighty_six_instructions :
    ∃ reached, (Machine.runCounted 86).perform tenth = (.ok 86, reached) ∧
      reached.cpu.registers.pc = 4 ∧ reached.cpu.registers.get 0 = 55 := by
  have loaded : Loaded tenth.bus.memory := loaded_of_loadProgram rfl
  have input : tenth.cpu.registers.get 0 = 10 := rfl
  obtain ⟨reached, ran, pc, _, result, _⟩ := computes_the_number_in_r0 loaded rfl rfl rfl input
  exact ⟨reached, ran, pc, result⟩

end ArmBoard.Fibonacci
