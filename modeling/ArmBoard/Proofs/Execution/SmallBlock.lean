import ArmBoard.Proofs.Bus.Delivery
import ArmBoard.Proofs.Execution.BlockTransfer
import ArmBoard.Proofs.Execution.Conditional

/-!
# Blocks of one or two registers

A block of one register is transferred like a word, and a block of two, with
the base left alone, like a pair of words. A block load updates its base and its
registers earlier than the others do, but what a load brings does not depend on
the processor. The observers of the accesses may do what they like to memory;
they cannot change its size, so that a word in memory stays there to be loaded.
-/
namespace ArmBoard

/-- The second opcode does what the first does, down to a fault that quotes its own word. -/
def Opcode.ActsLike (second first : Opcode) (core : Core) : Prop :=
  (Core.execute second).perform core =
    (Action.mapFault (Fault.quoting second.raw) (Core.execute first)).perform core

/-- The addressing of a word transfer with the addresses of a block of one word. -/
inductive WordAddressing (rn : Fin 16) :
    Indexing → Offsetting → Bool → Addressing ShiftedOffset → Prop
  | post {offsetting : Offsetting} {writeBack : Bool} :
      WordAddressing rn .post offsetting true ⟨rn, .immediate 4, .post, offsetting, writeBack⟩
  | pre {offsetting : Offsetting} :
      WordAddressing rn .pre offsetting true ⟨rn, .immediate 4, .pre, offsetting, true⟩
  /-- Without an offset its direction does not matter. -/
  | here {offsetting direction : Offsetting} :
      WordAddressing rn .post offsetting false ⟨rn, .immediate 0, .pre, direction, false⟩
  | beside {offsetting : Offsetting} :
      WordAddressing rn .pre offsetting false ⟨rn, .immediate 4, .pre, offsetting, false⟩

/-- The addressing of a pair of words at the base itself. -/
def Addressing.atBase (rn : Fin 16) (direction : Offsetting) : Addressing PlainOffset :=
  ⟨rn, .immediate 0, .pre, direction, false⟩

namespace Core

open ArmBoard.Action

variable {core : Core} {rn rd next : Fin 16} {indexing : Indexing} {offsetting : Offsetting}
  {writeBack : Bool} {registers : Half}

theorem apply_zero (base : Word) : offsetting.apply base 0 = base := movedBase_zero base

/-- A block of one word begins at its base or next to it. -/
theorem blockStart_one (base : Word) :
    blockStart indexing offsetting base 1 =
      match indexing with
      | .post => base
      | .pre => offsetting.apply base 4 := by
  cases indexing <;> cases offsetting
  case post.down => exact BitVec.sub_add_cancel base 4
  all_goals rfl

section Loads

/-- A load from within memory succeeds, whoever listens and whatever the registers hold. -/
theorem exists_loadWord {address : Word} (inside : address.toNat + 4 ≤ core.bus.memory.size) :
    ∃ value bus, bus.memory.size = core.bus.memory.size ∧ ∀ registers,
      (loadWord address).perform { core with cpu.registers := registers } =
        (.ok value, { core with cpu.registers := registers, bus }) := by
  -- The announcement may change what is stored at the address, but not whether there is memory.
  let announced := Bus.report [] ⟨.preRead, address, 4⟩ core.bus
  have size : announced.memory.size = core.bus.memory.size := Bus.size_report _ _ _
  have still : address.toNat + 4 ≤ announced.memory.size := by rwa [size]
  obtain ⟨value, read⟩ := Memory.exists_read_eq_ok still
  refine ⟨value, Bus.report [] ⟨.read, address, 4⟩ announced, (Bus.size_report _ _ _).trans size,
    fun registers => ?_⟩
  rw [loadWord, load, onBus, perform_onPart, Bus.load, perform_ofFunction]
  dsimp only
  rw [Memory.check_eq_ok inside]
  dsimp only
  rw [read]

end Loads

section Words

variable {addressing : Addressing ShiftedOffset}
  (same : WordAddressing rn indexing offsetting writeBack addressing)
include same

theorem perform_updateBase (value : Word) :
    (updateBase addressing value).perform core = (.ok (), { core with
      cpu.registers :=
        core.cpu.registers.rebased rn (if writeBack then some value else none) }) := by
  cases same with
  | post =>
    rw [updateBase, Addressing.updatesBase, beq_self_eq_true, Bool.or_true]
    exact perform_writeRegister rn value
  | pre => exact perform_writeRegister rn value
  | here | beside => rfl

/-- A word is transferred where a block of one word begins, and its base ends where that ends. -/
theorem perform_wordTransfer (direction : Direction) :
    (singleTransfer direction .word rd addressing).perform core =
      (moveSingle direction .word rd addressing
        (blockStart indexing offsetting (core.cpu.registers.get rn) 1)
        (movedBase offsetting (core.cpu.registers.get rn) 1)).perform core := by
  have resolved (distance : Word) (offset : addressing.offset = .immediate distance)
      (base : addressing.base = rn) :
      (resolve addressing (shiftedDistance addressing.offset)).perform core =
        (.ok (addressing.resolve (core.cpu.registers.get rn) distance), core) := by
    refine perform_resolve_of (by rw [offset]; rfl) ?_
    rw [base, perform_readRegister]
  rw [blockStart_one, singleTransfer, perform_bind]
  cases same with
  | post | pre | beside =>
    rw [resolved 4 rfl rfl]
    rfl
  | here =>
    rw [resolved 0 rfl rfl]
    dsimp only [Addressing.resolve]
    rw [apply_zero]
    -- The base stays as it is, so that it does not matter where it would have gone.
    cases direction <;> rfl

/-- The word is stored before the base is updated, however that is asked for. -/
theorem perform_wordStore (listed : listedRegisters registers = [rd]) :
    (singleTransfer .store .word rd addressing).perform core =
      (blockTransfer .store indexing offsetting writeBack rn registers).perform core := by
  rw [perform_wordTransfer same, perform_blockStore, boundsOf_eq, listed, moveSingle,
    storeBlock, perform_bind, perform_bind, perform_readOperand]
  dsimp only [List.length_singleton]
  rw [perform_bind, perform_bind]
  rcases (storeWord (blockStart indexing offsetting (core.cpu.registers.get rn) 1)
    (core.cpu.registers.operand rd true)).perform core with ⟨fault | _, stored⟩
  · rfl
  · dsimp only
    rw [perform_updateBase same]
    cases writeBack with
    | false => rfl
    | true =>
      rw [if_pos rfl]
      dsimp only
      rw [perform_bind, perform_writeRegister]
      rfl

/-- The base is updated after the word has been loaded or before, but not while it is. -/
theorem perform_wordLoad (listed : listedRegisters registers = [rd])
    (readable : core.bus.memory.ReadableWords
      (blockStart indexing offsetting (core.cpu.registers.get rn) 1) 1) :
    (singleTransfer .load .word rd addressing).perform core =
      (blockTransfer .load indexing offsetting writeBack rn registers).perform core := by
  obtain ⟨_, read⟩ := readable 0 (by decide)
  rw [Memory.address_add_zero] at read
  obtain ⟨value, bus, -, loads⟩ := exists_loadWord (Memory.size_of_readWord read)
  rw [perform_wordTransfer same, perform_blockLoad, boundsOf_eq, listed, moveSingle,
    loadBlock, perform_bind, perform_bind]
  dsimp only [List.length_singleton]
  rw [loads, loads]
  dsimp only
  rw [perform_bind, perform_updateBase same]
  dsimp only
  rw [perform_bind, perform_writeRegister]
  rfl

end Words

section Pairs

variable {direction : Offsetting}

theorem perform_resolveAtBase :
    (resolve (.atBase rn direction) (plainDistance (Addressing.atBase rn direction).offset)).perform
        core = (.ok (core.cpu.registers.get rn, core.cpu.registers.get rn), core) := by
  have measured : (plainDistance (Addressing.atBase rn direction).offset).perform core =
      (.ok 0, core) := rfl
  rw [perform_resolve_of measured (perform_readRegister rn), Addressing.resolve, Addressing.atBase]
  dsimp only
  rw [apply_zero]

variable (pair : next.val = rd.val + 1) (listed : listedRegisters registers = [rd, next])
include pair listed

/-- A pair of words is stored one after the other, as a block of two registers is. -/
theorem perform_pairStore (below : next.val < 15) :
    (doubleTransfer .store rd (.atBase rn direction)).perform core =
      (blockTransfer .store .post .up false rn registers).perform core := by
  have low (registers : Registers) : registers.operand rd true = registers.get rd :=
    registers.operand_of_ne (by rw [Registers.pcNumber]; omega) true
  have high (registers : Registers) : registers.operand next true = registers.get next :=
    registers.operand_of_ne (by rw [Registers.pcNumber]; omega) true
  rw [perform_blockStore, boundsOf_eq, listed, if_neg Bool.false_ne_true,
    doubleTransfer, perform_bind, perform_resolveAtBase, storeBlock, perform_bind,
    perform_readOperand, low]
  dsimp only
  rw [perform_bind, perform_readRegister]
  dsimp only [blockStart]
  rw [perform_bind, perform_bind, ← pair]
  rcases (storeWord (core.cpu.registers.get rn) (core.cpu.registers.get rd)).perform core with
    ⟨fault | _, between⟩
  · rfl
  · dsimp only
    rw [perform_bind, perform_readRegister, storeBlock, perform_bind, perform_readOperand, high]
    dsimp only
    rw [perform_bind, perform_bind]
    rcases (storeWord (core.cpu.registers.get rn + instructionSize)
      (between.cpu.registers.get next)).perform between with ⟨fault | _, stored⟩ <;> rfl

/-- The second word is loaded after the first register has been written or before, but alike. -/
theorem perform_pairLoad
    (readable : core.bus.memory.ReadableWords (core.cpu.registers.get rn) 2) :
    (doubleTransfer .load rd (.atBase rn direction)).perform core =
      (blockTransfer .load .post .up false rn registers).perform core := by
  obtain ⟨_, readLow⟩ := readable 0 (by decide)
  obtain ⟨_, readHigh⟩ := readable 1 (by decide)
  rw [Memory.address_add_zero] at readLow
  obtain ⟨low, between, size, loadsLow⟩ := exists_loadWord (Memory.size_of_readWord readLow)
  have inside : (core.cpu.registers.get rn + instructionSize).toNat + 4 ≤ between.memory.size := by
    rw [size]
    exact Memory.size_of_readWord readHigh
  obtain ⟨high, bus, -, loadsHigh⟩ := @exists_loadWord { core with bus := between } _ inside
  have idle (value : Word) : updateBase (.atBase rn direction) value = pure () := rfl
  -- The bus goes from one load to the next, and the processor may change in between.
  let loaded : Core :=
    { core with cpu.registers := (core.cpu.registers.set rd low).set next high, bus }
  have plain : (doubleTransfer .load rd (.atBase rn direction)).perform core = (.ok (), loaded) := by
    rw [doubleTransfer, perform_bind, perform_resolveAtBase]
    dsimp only
    rw [perform_bind, loadsLow]
    dsimp only
    rw [perform_bind, loadsHigh]
    dsimp only
    rw [idle, perform_bind, perform_pure]
    dsimp only
    rw [perform_bind, perform_writeRegister, ← pair]
    dsimp only
    rw [perform_writeRegister]
  have block : (blockTransfer .load .post .up false rn registers).perform core =
      (.ok (), loaded) := by
    rw [perform_blockLoad, boundsOf_eq, listed, if_neg Bool.false_ne_true,
      loadBlock, perform_bind]
    dsimp only [blockStart]
    rw [loadsLow]
    dsimp only
    rw [perform_bind, perform_writeRegister, loadBlock]
    dsimp only
    rw [perform_bind, loadsHigh]
    dsimp only
    rw [perform_bind, perform_writeRegister]
    rfl
  exact plain.trans block.symm

end Pairs

section Execution

/-- Instructions that perform alike make opcodes that act alike, if their faults quote no word. -/
theorem actsLike_of_perform {first second : Opcode}
    (conditions : second.condition = first.condition)
    (targets : second.instruction.targetsPc = first.instruction.targetsPc)
    (same : (performInstruction second.raw second.instruction).perform core =
      (performInstruction first.raw first.instruction).perform core)
    (unquoted : ∀ fault reached,
      (performInstruction first.raw first.instruction).perform core = (.error fault, reached) →
        fault.quoting second.raw = fault) : second.ActsLike first core := by
  rw [Opcode.ActsLike, perform_mapFault, perform_execute, perform_execute, conditions, targets, same]
  cases core.cpu.status.passes first.condition with
  | none => rfl
  | some passes =>
    cases passes with
    | false => rfl
    | true =>
      rcases performed : (performInstruction first.raw first.instruction).perform core with
        ⟨fault | _, reached⟩
      · dsimp only
        rw [unquoted fault reached performed]
      · rfl

/-- A block transfer stops only for want of memory, which quotes no word. -/
theorem quoting_of_blockTransfer {direction : Direction} {statusBit : Bool} {raw : Word}
    (other : writeBack = true → rn ≠ 15) (word : Word) (fault : Fault) (reached : Core)
    (failed : (performInstruction raw (.blockTransfer direction indexing offsetting statusBit
      writeBack rn registers)).perform core = (.error fault, reached)) :
    fault.quoting word = fault := by
  have follows : (blockTransfer direction indexing offsetting writeBack rn registers).Follows
      (steady word) _ :=
    blockTransfer_follows rn.isLt fun writes counter => other writes (Fin.ext counter)
  exact (follows.faulted failed).1.quoting

/--
A word transfer acts like the block transfer of one register with the same addresses, on every
processor and bus: there is the same outcome, down to a fault that quotes its own word, and the
same registers, status, memory, subscriptions and reports are left. The loads do if there is memory
for the word. So do a transfer of a pair and the block transfer of its registers.
-/
theorem small_blocks_are_words_and_pairs :
    (∀ (rn rd : Fin 16) (registers : Half) (indexing : Indexing) (offsetting : Offsetting)
      (writeBack : Bool) (addressing : Addressing ShiftedOffset),
      rn ≠ 15 → listedRegisters registers = [rd] →
      WordAddressing rn indexing offsetting writeBack addressing →
      ∀ (statusBit : Bool) (condition : Condition) (first second : Word) (core : Core),
        let start := blockStart indexing offsetting (core.cpu.registers.get rn) 1
        let block (direction : Direction) : Opcode :=
          ⟨.blockTransfer direction indexing offsetting statusBit writeBack rn registers,
            condition, first⟩
        let word (direction : Direction) : Opcode :=
          ⟨.singleTransfer direction .word rd addressing, condition, second⟩
        (word .store).ActsLike (block .store) core ∧
        (core.bus.memory.ReadableWords start 1 → (word .load).ActsLike (block .load) core)) ∧
    (∀ (rn rd next : Fin 16) (registers : Half) (towards : Offsetting),
      next.val = rd.val + 1 → next.val < 15 → listedRegisters registers = [rd, next] →
      ∀ (statusBit : Bool) (condition : Condition) (first second : Word) (core : Core),
        let start := core.cpu.registers.get rn
        let block (direction : Direction) : Opcode :=
          ⟨.blockTransfer direction .post .up statusBit false rn registers, condition, first⟩
        let pair (direction : Direction) : Opcode :=
          ⟨.doubleTransfer direction rd (.atBase rn towards), condition, second⟩
        (pair .store).ActsLike (block .store) core ∧
        (core.bus.memory.ReadableWords start 2 → (pair .load).ActsLike (block .load) core)) := by
  constructor
  · intro rn rd registers indexing offsetting writeBack addressing other listed same statusBit
      condition first second core start block word
    have targets : (rd.val == 15) = Bits.test registers 15 := by
      have counter := mem_listedRegisters registers 15
      rw [listed, List.mem_singleton, Fin.ext_iff] at counter
      rw [Bool.eq_iff_iff, beq_iff_eq, eq_comm]
      exact counter
    refine ⟨?_, fun readable => ?_⟩
    · exact actsLike_of_perform rfl rfl (perform_wordStore same listed)
        (quoting_of_blockTransfer (fun _ => other) second)
    · exact actsLike_of_perform rfl targets (perform_wordLoad same listed readable)
        (quoting_of_blockTransfer (fun _ => other) second)
  · intro rn rd next registers towards pair below listed statusBit condition first second core start
      block double
    have targets : false = Bits.test registers 15 := by
      have counter := mem_listedRegisters registers 15
      rw [listed] at counter
      refine (Bool.eq_false_iff.mpr fun set => ?_).symm
      have member := counter.mpr set
      simp only [List.mem_cons, List.not_mem_nil, or_false, Fin.ext_iff] at member
      omega
    have other : false = true → rn ≠ 15 := fun writes => absurd writes Bool.false_ne_true
    refine ⟨?_, fun readable => ?_⟩
    · exact actsLike_of_perform rfl rfl (perform_pairStore pair listed below)
        (quoting_of_blockTransfer other second)
    · exact actsLike_of_perform rfl targets (perform_pairLoad pair listed readable)
        (quoting_of_blockTransfer other second)

/-- Adds a number to the word that is about to be read, and counts the writes into that number. -/
def adding : Watcher :=
  .observer 7 fun sum _ touch =>
    match touch.event with
    | .preRead =>
      .operate (.read .word touch.address false) fun
        | .ok (.value .word word) =>
          .operate (.write .word touch.address (word + BitVec.ofNat _ sum) false) fun _ => .finish sum
        | _ => .finish sum
    | _ => .finish (sum + 1)

/-- Every register holds its number, and an observer adds to the word that is about to be read. -/
def watchedWords : Core where
  cpu := numbered.cpu
  bus := { Bus.ofMemory (.blank 0x20 2) with
    registry := ⟨2, [⟨1, ⟨0, 0x20, .ofList [.preRead, .write]⟩, 0⟩]⟩
    watchers := #[adding] }

/--
`STR r0, [r13, #-4]!` pushes r0, `LDR r15, [r13], #4` pops r15 with what the observer has added to
it, `STRD r0, [r2]` stores what `STMIA r2, {r0, r1}` does, and `LDRD r0, [r2]` loads it back.
-/
theorem push_pop_and_pairs_under_observation :
    (∃ push store, Opcode.decode 0xE92D0001 = .ok push ∧ Opcode.decode 0xE52D0004 = .ok store ∧
      store.ActsLike push watchedWords) ∧
    (∃ pop load, Opcode.decode 0xE8BD8000 = .ok pop ∧ Opcode.decode 0xE49DF004 = .ok load ∧
      load.ActsLike pop watchedWords ∧
      ((execute pop).perform watchedWords).2.cpu.registers.get 15 = 7) ∧
    (∃ multiple double, Opcode.decode 0xE8820003 = .ok multiple ∧
      Opcode.decode 0xE1C200F0 = .ok double ∧ double.ActsLike multiple watchedWords) ∧
    (∃ multiple double, Opcode.decode 0xE8920003 = .ok multiple ∧
      Opcode.decode 0xE1C200D0 = .ok double ∧ double.ActsLike multiple watchedWords) := by
  obtain ⟨words, pairs⟩ := small_blocks_are_words_and_pairs
  have one : ∀ index < 1, ((0xD : Word) + BitVec.ofNat 32 (4 * index)).toNat + 4 ≤
      watchedWords.bus.memory.size := by decide
  have two : ∀ index < 2, ((2 : Word) + BitVec.ofNat 32 (4 * index)).toNat + 4 ≤
      watchedWords.bus.memory.size := by decide
  have multiple (core : Core) (first second : Word) :=
    pairs 2 0 1 0x3 .up rfl (by decide) (by decide) false .al first second core
  refine ⟨⟨_, _, rfl, rfl, ?_⟩, ⟨_, _, rfl, rfl, ?_, rfl⟩, ⟨_, _, rfl, rfl, ?_⟩,
    ⟨_, _, rfl, rfl, ?_⟩⟩
  · exact (words 13 0 0x1 .pre .down true _ (by decide) (by decide) .pre false .al _ _ _).1
  · exact (words 13 15 0x8000 .post .up true _ (by decide) (by decide) .post false .al _ _ _).2
      fun index below => Memory.exists_read_eq_ok (one index below)
  · exact (multiple _ _ _).1
  · exact (multiple _ _ _).2 fun index below => Memory.exists_read_eq_ok (two index below)

end Execution

end Core

end ArmBoard
