import ArmBoard.Proofs.Execution.Steps
import ArmBoard.Proofs.Memory.Words

/-!
# Blocks of registers in memory

What a block transfer stores and loads when nobody listens to the bus. A block
is a row of words. A store reads its registers one by one and updates the base
after the first, so that what is stored is known before anything is: the first
register as it was and the others with the base updated.
-/
namespace ArmBoard

namespace Registers

/-- The registers with an updated base, if there is one. -/
def rebased (registers : Registers) (rn : Fin 16) : Option Word → Registers
  | none => registers
  | some newBase => registers.set rn newBase

theorem get_rebased_of_ne (registers : Registers) {rn number : Fin 16} (other : number ≠ rn)
    (newBase? : Option Word) :
    (registers.rebased rn newBase?).get number = registers.get number := by
  cases newBase? with
  | none => rfl
  | some newBase => rw [rebased, get_set, if_neg other.symm]

/-- What a block store stores: the first register, and the others behind the update of the base. -/
def storedWords (registers : Registers) (rn : Fin 16) (newBase? : Option Word) :
    List (Fin 16) → List Word
  | [] => []
  | number :: rest =>
      registers.operand number true :: rest.map ((registers.rebased rn newBase?).operand · true)

section Stored

variable (registers : Registers) (rn : Fin 16) (newBase? : Option Word) (listed : List (Fin 16))

theorem length_storedWords : (registers.storedWords rn newBase? listed).length = listed.length := by
  cases listed <;> simp [storedWords]

theorem storedWords_none :
    registers.storedWords rn none listed = listed.map (registers.operand · true) := by
  cases listed <;> rfl

/-- If neither the base nor r15 is listed, the registers are stored as they are. -/
theorem storedWords_of_not_mem {rn : Fin 16} {listed : List (Fin 16)} (base : rn ∉ listed)
    (pc : 15 ∉ listed) : registers.storedWords rn newBase? listed = listed.map registers.get := by
  have plain (registers : Registers) {number : Fin 16} (member : number ∈ listed) :
      registers.operand number true = registers.get number := by
    refine registers.operand_of_ne (fun counter => pc ?_) true
    obtain rfl : number = 15 := Fin.ext counter
    exact member
  cases listed with
  | nil => rfl
  | cons first rest =>
    rw [storedWords, List.map_cons, plain registers List.mem_cons_self]
    congr 1
    refine List.map_congr_left fun other member => ?_
    have listedToo := List.mem_cons_of_mem first member
    rw [plain _ listedToo, registers.get_rebased_of_ne ?_ newBase?]
    rintro rfl
    exact base listedToo

end Stored

/-- The registers with some of them taken from elsewhere. -/
def taking (values : Fin 16 → Word) : List (Fin 16) → Registers → Registers
  | [], registers => registers
  | number :: rest, registers => taking values rest (registers.set number (values number))

section Taking

variable (values : Fin 16 → Word) {listed : List (Fin 16)} (registers : Registers) {number : Fin 16}

theorem get_taking_of_not_mem (unlisted : number ∉ listed) :
    (taking values listed registers).get number = registers.get number := by
  induction listed generalizing registers with
  | nil => rfl
  | cons first rest ih =>
    rw [List.mem_cons, not_or] at unlisted
    rw [taking, ih _ unlisted.2, get_set, if_neg (Ne.symm unlisted.1)]

theorem get_taking_of_mem (member : number ∈ listed) :
    (taking values listed registers).get number = values number := by
  induction listed generalizing registers with
  | nil => cases member
  | cons first rest ih =>
    by_cases later : number ∈ rest
    · exact ih _ later
    · -- Nothing after the first takes this register again.
      obtain rfl := (List.mem_cons.mp member).resolve_right later
      rw [taking, get_taking_of_not_mem values _ later, get_set, if_pos rfl]

end Taking

end Registers

namespace Core

open ArmBoard.Action

variable {core : Core}

section Blocks

/-- The first word of a block is stored, and then the base is updated. -/
theorem perform_storeBlock_cons (silent : core.bus.registry.subscriptions = []) (rn number : Fin 16)
    (rest : List (Fin 16)) (address : Word) (newBase? : Option Word) :
    (storeBlock rn (number :: rest) address newBase?).perform core =
      match core.bus.memory.writeWord address (core.cpu.registers.operand number true) with
      | .error fault => (.error fault, core)
      | .ok memory => (storeBlock rn rest (address + instructionSize) none).perform
          { core with
            cpu.registers := core.cpu.registers.rebased rn newBase?
            bus.memory := memory } := by
  rw [storeBlock, perform_bind, perform_readOperand]
  dsimp only
  rw [perform_bind, perform_storeWord silent]
  cases core.bus.memory.writeWord address (core.cpu.registers.operand number true) with
  | error fault => rfl
  | ok memory =>
    dsimp only
    cases newBase? with
    | none => rfl
    | some newBase =>
      dsimp only
      rw [perform_bind, perform_writeRegister]
      rfl

/-- A block store writes a row of words and updates the base, which an empty block does not. -/
theorem perform_storeBlock_eq_ok_iff {stored : Core} {rn : Fin 16} {listed : List (Fin 16)}
    {address : Word} {newBase? : Option Word} (silent : core.bus.registry.subscriptions = []) :
    (storeBlock rn listed address newBase?).perform core = (.ok (), stored) ↔
      ∃ memory, Memory.WritesWords core.bus.memory address
          (core.cpu.registers.storedWords rn newBase? listed) memory ∧
        stored = { core with
          cpu.registers := core.cpu.registers.rebased rn (if listed = [] then none else newBase?)
          bus.memory := memory } := by
  induction listed generalizing core address newBase? with
  | nil =>
    constructor
    · intro performed
      cases performed
      exact ⟨_, .nil, rfl⟩
    · rintro ⟨memory, writes, rfl⟩
      cases writes
      rfl
  | cons number rest ih =>
    rw [perform_storeBlock_cons silent, if_neg (List.cons_ne_nil number rest)]
    cases written : core.bus.memory.writeWord address (core.cpu.registers.operand number true) with
    | error fault =>
      refine ⟨fun performed => (nomatch performed), ?_⟩
      rintro ⟨memory, writes, _⟩
      cases writes with
      | cons first _ =>
        rw [written] at first
        cases first
    | ok between =>
      dsimp only
      rw [ih (by exact silent)]
      dsimp only
      -- Behind the first register the base is not updated again.
      rw [Registers.storedWords_none, ite_self, Registers.rebased]
      constructor
      · rintro ⟨memory, later, rfl⟩
        exact ⟨memory, .cons written later, rfl⟩
      · rintro ⟨memory, writes, rfl⟩
        cases writes with
        | cons first later =>
          rw [written] at first
          cases first
          exact ⟨memory, later, rfl⟩

/--
A stored block holds the registers as they were before, and nothing else in memory has changed.
Of the processor, only the base can have.
-/
structure Stores (rn : Fin 16) (listed : List (Fin 16)) (address : Word) (newBase? : Option Word)
    (core stored : Core) : Prop where
  holds : stored.bus.memory.HoldsWords address (listed.map core.cpu.registers.get)
  changed :
    Memory.ChangedIn (Memory.WithinWords address listed.length) core.bus.memory stored.bus.memory
  registry : stored.bus.registry = core.bus.registry
  cpu : stored.cpu = { core.cpu with
    registers := core.cpu.registers.rebased rn (if listed = [] then none else newBase?) }

theorem storeBlock_stores {stored : Core} {rn : Fin 16} {listed : List (Fin 16)} {address : Word}
    {newBase? : Option Word} (silent : core.bus.registry.subscriptions = [])
    (base : rn ∉ listed) (pc : 15 ∉ listed) (few : listed.length ≤ 16)
    (performed : (storeBlock rn listed address newBase?).perform core = (.ok (), stored)) :
    Stores rn listed address newBase? core stored := by
  obtain ⟨memory, writes, rfl⟩ := (perform_storeBlock_eq_ok_iff silent).mp performed
  rw [Registers.storedWords_of_not_mem _ _ base pc] at writes
  have changes := writes.changedIn
  rw [List.length_map] at changes
  refine ⟨writes.holdsWords ?_, changes, rfl, rfl⟩
  rw [List.length_map]
  omega

/-- A block that memory holds is loaded into the listed registers, and nothing else changes. -/
theorem loadBlock_loads {values : Fin 16 → Word} {listed : List (Fin 16)} {address : Word}
    (silent : core.bus.registry.subscriptions = [])
    (holds : core.bus.memory.HoldsWords address (listed.map values)) :
    (loadBlock listed address).perform core =
      (.ok (), { core with cpu.registers := .taking values listed core.cpu.registers }) := by
  induction listed generalizing core address with
  | nil => rfl
  | cons number rest ih =>
    obtain ⟨here, later⟩ := holds
    rw [loadBlock, perform_bind, perform_loadWord silent here]
    dsimp only
    rw [perform_bind, perform_writeRegister]
    exact ih silent later

end Blocks

section Transfers

theorem length_listedRegisters_le (registers : Half) : (listedRegisters registers).length ≤ 16 := by
  have fewer := List.length_filter_le (fun number : Fin 16 => Bits.test registers number)
    (List.finRange 16)
  rwa [List.length_finRange] at fewer

/-- The lowest address of the block that lists these registers, and the updated base. -/
def boundsOf (indexing : Indexing) (offsetting : Offsetting) (registers : Half) (base : Word) :
    Word × Word :=
  blockBounds indexing offsetting base (BitVec.ofNat 32 (4 * (listedRegisters registers).length))

variable {indexing : Indexing} {offsetting : Offsetting} {writeBack : Bool} {rn : Fin 16}
  {registers : Half}

theorem perform_blockStore :
    (blockTransfer .store indexing offsetting writeBack rn registers).perform core =
      (storeBlock rn (listedRegisters registers)
        (boundsOf indexing offsetting registers (core.cpu.registers.get rn)).1
        (if writeBack then
          some (boundsOf indexing offsetting registers (core.cpu.registers.get rn)).2
        else none)).perform core := by
  rw [blockTransfer, perform_bind, perform_readRegister]
  rfl

theorem perform_blockLoad :
    (blockTransfer .load indexing offsetting writeBack rn registers).perform core =
      (loadBlock (listedRegisters registers)
        (boundsOf indexing offsetting registers (core.cpu.registers.get rn)).1).perform
          { core with
            cpu.registers := core.cpu.registers.rebased rn (if writeBack then
              some (boundsOf indexing offsetting registers (core.cpu.registers.get rn)).2
            else none) } := by
  rw [blockTransfer, perform_bind, perform_readRegister]
  dsimp only
  cases writeBack with
  | false => rfl
  | true =>
    rw [if_pos rfl, perform_bind, perform_writeRegister]
    rfl

end Transfers

end Core

end ArmBoard
