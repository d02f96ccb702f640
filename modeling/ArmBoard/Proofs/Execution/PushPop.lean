import ArmBoard.Proofs.Execution.Block

/-!
# Popping what was pushed

A block store that updates its base is undone by the block load in which both
the order of indexing and the direction are turned round: it begins where the
store began and takes the base back to where it was. The base in between is not
listed, so that it is the updated one that the load finds.
-/
namespace ArmBoard

/-- The other order of adding an offset and transferring. -/
def Indexing.inverse : Indexing → Indexing
  | .post => .pre
  | .pre => .post

def Offsetting.inverse : Offsetting → Offsetting
  | .down => .up
  | .up => .down

namespace Core

open ArmBoard.Action

/-- The inverse transfer begins at the same address and returns to the base. -/
theorem blockBounds_inverse (indexing : Indexing) (offsetting : Offsetting) (base size : Word) :
    blockBounds indexing.inverse offsetting.inverse
        (blockBounds indexing offsetting base size).2 size =
      ((blockBounds indexing offsetting base size).1, base) := by
  cases indexing <;> cases offsetting <;>
    simp only [blockBounds, Indexing.inverse, Offsetting.inverse, BitVec.add_sub_cancel,
      BitVec.sub_add_cancel]

/-- A base that is not moved by an empty block has not moved. -/
theorem blockBounds_zero (indexing : Indexing) (offsetting : Offsetting) (base : Word) :
    (blockBounds indexing offsetting base 0).2 = base := by
  cases indexing <;> cases offsetting <;>
    simp only [blockBounds, BitVec.add_zero, BitVec.sub_zero, BitVec.ofNat_eq_ofNat]

variable {core : Core} {indexing : Indexing} {offsetting : Offsetting} {rn : Fin 16}
  {registers : Half}

/-- With or without registers in the block, a push leaves the updated base in its register. -/
theorem base_of_stores {stored : Core} {address : Word}
    (stores : Stores rn (listedRegisters registers) address
      (some (boundsOf indexing offsetting registers (core.cpu.registers.get rn)).2) core stored) :
    stored.cpu.registers.get rn =
      (boundsOf indexing offsetting registers (core.cpu.registers.get rn)).2 := by
  rw [stores.cpu]
  by_cases empty : listedRegisters registers = []
  · rw [if_pos empty, boundsOf, empty]
    exact (blockBounds_zero indexing offsetting _).symm
  · rw [if_neg empty, Registers.rebased, Registers.get_set, if_pos rfl]

/-- A push that succeeds has stored its block. -/
theorem stores_of_push {stored : Core} {branched pushStatus : Bool} {raw : Word}
    (silent : core.bus.registry.subscriptions = []) (base : rn ∉ listedRegisters registers)
    (pc : 15 ∉ listedRegisters registers)
    (pushed : (execute ⟨.blockTransfer .store indexing offsetting pushStatus true rn registers, .al,
      raw⟩).perform core = (.ok branched, stored)) :
    Stores rn (listedRegisters registers)
      (boundsOf indexing offsetting registers (core.cpu.registers.get rn)).1
      (some (boundsOf indexing offsetting registers (core.cpu.registers.get rn)).2)
        core stored := by
  have always : core.cpu.status.passes .al = some true := rfl
  rw [perform_execute, always] at pushed
  dsimp only [performInstruction] at pushed
  split at pushed
  · next performed =>
    cases pushed
    rw [perform_blockStore, if_pos rfl] at performed
    exact storeBlock_stores silent base pc (length_listedRegisters_le registers) performed
  · cases pushed

/-- A pop from a block that memory holds leaves r15 alone. -/
theorem execute_pop {values : Fin 16 → Word} {popStatus : Bool} {raw : Word}
    (silent : core.bus.registry.subscriptions = []) (general : rn ≠ 15)
    (pc : 15 ∉ listedRegisters registers)
    (holds : core.bus.memory.HoldsWords
      (boundsOf indexing offsetting registers (core.cpu.registers.get rn)).1
      ((listedRegisters registers).map values)) :
    (execute ⟨.blockTransfer .load indexing offsetting popStatus true rn registers, .al,
      raw⟩).perform core = (.ok false, { core with
        cpu.registers := .taking values (listedRegisters registers) (core.cpu.registers.set rn
          (boundsOf indexing offsetting registers (core.cpu.registers.get rn)).2) }) := by
  have always : core.cpu.status.passes .al = some true := rfl
  have unlisted : Bits.test registers 15 = false := by
    rw [mem_listedRegisters] at pc
    exact Bool.eq_false_iff.mpr pc
  rw [perform_execute, always]
  dsimp only [performInstruction]
  rw [perform_blockLoad, if_pos rfl, Registers.rebased,
    loadBlock_loads (by exact silent) (by exact holds)]
  dsimp only
  rw [Instruction.targetsPc, unlisted, Registers.pc, Registers.get_taking_of_not_mem _ _ pc,
    Registers.get_set, if_neg general, Registers.pc, bne_self_eq_false]
  rfl

/--
A push is undone by the inverse pop, whatever has become of the status and of all registers but
the base in between. It succeeds, restores the base and the listed registers, and changes nothing
else.
-/
theorem inverse_pop_restores_what_was_pushed {stored changed : Core} {branched : Bool}
    {pushStatus : Bool} {pushRaw : Word} (popStatus : Bool) (popRaw : Word)
    (silent : core.bus.registry.subscriptions = []) (general : rn ≠ 15)
    (base : Bits.test registers rn = false) (pc : Bits.test registers 15 = false)
    (pushed : (execute ⟨.blockTransfer .store indexing offsetting pushStatus true rn registers, .al,
      pushRaw⟩).perform core = (.ok branched, stored))
    (sameBus : changed.bus = stored.bus)
    (sameBase : changed.cpu.registers.get rn = stored.cpu.registers.get rn) :
    ∃ popped, (execute ⟨.blockTransfer .load indexing.inverse offsetting.inverse popStatus true rn
        registers, .al, popRaw⟩).perform changed = (.ok false, popped) ∧
      (∀ number : Fin 16, Bits.test registers number = true →
        popped.cpu.registers.get number = core.cpu.registers.get number) ∧
      popped.cpu.registers.get rn = core.cpu.registers.get rn ∧
      (∀ number : Fin 16, Bits.test registers number = false → number ≠ rn →
        popped.cpu.registers.get number = changed.cpu.registers.get number) ∧
      popped.bus = changed.bus ∧ popped.cpu.status = changed.cpu.status ∧
      popped.cpu.saved = changed.cpu.saved := by
  have listed (number : Fin 16) : number ∈ listedRegisters registers ↔
      Bits.test registers number = true := mem_listedRegisters registers number
  have baseUnlisted : rn ∉ listedRegisters registers := by
    rw [listed, base]
    exact Bool.false_ne_true
  have pcUnlisted : 15 ∉ listedRegisters registers := by
    rw [listed]
    exact ne_true_of_eq_false pc
  have stores := stores_of_push silent baseUnlisted pcUnlisted pushed
  -- The inverse finds the block where it was stored, and its base where it came from.
  have bounds : boundsOf indexing.inverse offsetting.inverse registers
      (changed.cpu.registers.get rn) =
        ((boundsOf indexing offsetting registers (core.cpu.registers.get rn)).1,
          core.cpu.registers.get rn) := by
    rw [sameBase, base_of_stores stores]
    exact blockBounds_inverse _ _ _ _
  have stillSilent : changed.bus.registry.subscriptions = [] := by
    rw [sameBus, stores.registry, silent]
  have holds := stores.holds
  rw [← sameBus, ← congrArg Prod.fst bounds] at holds
  refine ⟨_, execute_pop stillSilent general pcUnlisted holds, ?_, ?_, ?_, rfl, rfl, rfl⟩
  · intro number member
    exact Registers.get_taking_of_mem _ _ ((listed number).mpr member)
  · rw [Registers.get_taking_of_not_mem _ _ baseUnlisted, Registers.get_set, if_pos rfl, bounds]
  · intro number unlisted other
    have outside : number ∉ listedRegisters registers := by
      rw [listed, unlisted]
      exact Bool.false_ne_true
    rw [Registers.get_taking_of_not_mem _ _ outside, Registers.get_set, if_neg other.symm]

/-- Four in every register, and the whole address space for memory, in pages of sixteen bytes. -/
def pushing : Core where
  cpu := { Cpu.zeroed with registers := ⟨Vector.replicate 16 4⟩ }
  bus := .ofMemory (.blank 0x100000000 4)

/--
`STMDB r13!, {r4, r14}` stores r4 at the end of the address space and r14 at its beginning. When
r4 has been cleared, `LDMIA r13!, {r4, r14}` brings it back, and r13 as well.
-/
theorem push_and_pop_around_the_end :
    ∃ stored popped : Core,
      (execute ⟨.blockTransfer .store .pre .down false true 13 0x4010, .al,
        0xE92D4010⟩).perform pushing = (.ok false, stored) ∧
      stored.cpu.registers.get 13 = 0xFFFFFFFC ∧
      (execute ⟨.blockTransfer .load .post .up false true 13 0x4010, .al, 0xE8BD4010⟩).perform
        { stored with cpu.registers := stored.cpu.registers.set 4 0 } = (.ok false, popped) ∧
      popped.cpu.registers.get 4 = 4 ∧ popped.cpu.registers.get 13 = 4 := by
  obtain ⟨stored, pushed, moved⟩ : ∃ stored : Core,
      (execute ⟨.blockTransfer .store .pre .down false true (13 : Fin 16) 0x4010, .al,
        0xE92D4010⟩).perform pushing = (.ok false, stored) ∧
      stored.cpu.registers.get 13 = 0xFFFFFFFC := ⟨_, rfl, rfl⟩
  have silent : pushing.bus.registry.subscriptions = [] := rfl
  have general : (13 : Fin 16) ≠ 15 := by decide
  have unlisted : Bits.test (0x4010 : Half) (13 : Fin 16) = false := by decide
  have sameBus : { stored with cpu.registers := stored.cpu.registers.set 4 0 : Core }.bus =
      stored.bus := rfl
  have sameBase : (stored.cpu.registers.set 4 0).get 13 = stored.cpu.registers.get 13 := by
    rw [Registers.get_set, if_neg (by decide)]
  obtain ⟨popped, performed, listed, restored, _⟩ :=
    inverse_pop_restores_what_was_pushed false 0xE8BD4010 silent general unlisted (by decide)
      pushed sameBus sameBase
  exact ⟨stored, popped, pushed, moved, performed, listed 4 (by decide), restored⟩

end Core

end ArmBoard
