import ArmBoard.Proofs.Execution.Block

/-!
# Block transfers

A block transfer moves exactly the registers that it lists, in ascending order
from the lowest address of its block, and updates the base if it is asked to.
The base may be listed itself: a load has the last word then, and a store stores
the updated base unless it is the first in the list. All this holds wherever the
block lies, unaligned, across pages or around the end of the address space.
-/
namespace ArmBoard

/-- Where a block of so many words begins. -/
def blockStart : Indexing → Offsetting → Word → Nat → Word
  | .post, .up, base, _ => base
  | .pre, .up, base, _ => base + 4
  | .post, .down, base, count => base - BitVec.ofNat 32 (4 * count) + 4
  | .pre, .down, base, count => base - BitVec.ofNat 32 (4 * count)

/-- Where the base is after a block of so many words. -/
def movedBase (offsetting : Offsetting) (base : Word) (count : Nat) : Word :=
  offsetting.apply base (BitVec.ofNat 32 (4 * count))

namespace Registers

/-- What a store has put in a block for the register that is listed at a position. -/
def blockWord (registers : Registers) (writeBack : Bool) (rn : Fin 16) (newBase : Word)
    (position : Nat) (number : Fin 16) : Word :=
  if number.val = pcNumber then registers.pc + 4
  else if number = rn ∧ writeBack = true ∧ 0 < position then newBase
  else registers.get number

theorem getElem?_storedWords (registers : Registers) (rn : Fin 16) (newBase? : Option Word)
    {listed : List (Fin 16)} {position : Nat} {number : Fin 16}
    (found : listed[position]? = some number) :
    (registers.storedWords rn newBase? listed)[position]? =
      some ((if position = 0 then registers else registers.rebased rn newBase?).operand number
        true) := by
  cases listed with
  | nil => cases found
  | cons first rest =>
    cases position with
    | zero =>
      cases found
      rfl
    | succ position =>
      rw [List.getElem?_cons_succ] at found
      rw [storedWords, List.getElem?_cons_succ, List.getElem?_map, found]
      rfl

theorem get_rebased (registers : Registers) (writeBack : Bool) (rn : Fin 16) (newBase : Word)
    (number : Fin 16) :
    (registers.rebased rn (if writeBack then some newBase else none)).get number =
      if number = rn ∧ writeBack = true then newBase else registers.get number := by
  cases writeBack with
  | false => simp [rebased]
  | true => simp [rebased, get_set, eq_comm]

/-- Only the base can be different behind the first register. -/
theorem get_rebased_behind (registers : Registers) (writeBack : Bool) (rn : Fin 16) (newBase : Word)
    (position : Nat) (number : Fin 16) :
    (if position = 0 then registers
      else registers.rebased rn (if writeBack then some newBase else none)).get number =
      if number = rn ∧ writeBack = true ∧ 0 < position then newBase
      else registers.get number := by
  by_cases first : position = 0
  · simp [first]
  · rw [if_neg first, get_rebased]
    simp [Nat.pos_of_ne_zero first]

theorem operand_eq_blockWord (registers : Registers) {writeBack : Bool} {rn : Fin 16}
    (other : writeBack = true → rn ≠ 15) (newBase : Word) (position : Nat) (number : Fin 16) :
    (if position = 0 then registers
      else registers.rebased rn (if writeBack then some newBase else none)).operand number true =
      registers.blockWord writeBack rn newBase position number := by
  rw [operand, blockWord, get_rebased_behind]
  by_cases counter : number.val = pcNumber
  · obtain rfl : number = 15 := Fin.ext counter
    -- The updated base is never r15.
    have kept : ¬ (15 = rn ∧ writeBack = true ∧ 0 < position) := by
      rintro ⟨rfl, writes, _⟩
      exact other writes rfl
    rw [if_pos ⟨counter, rfl⟩, if_pos counter, if_neg kept]
    rfl
  · rw [if_neg (fun extra => counter extra.1), if_neg counter]

end Registers

namespace Core

open ArmBoard.Action

/-- What a block store leaves behind. -/
structure BlockStored (writeBack : Bool) (rn : Fin 16) (listed : List (Fin 16))
    (start newBase : Word) (core stored : Core) : Prop where
  words : ∀ position number, listed[position]? = some number →
    stored.bus.memory.readWord (start + BitVec.ofNat 32 (4 * position)) =
      .ok (core.cpu.registers.blockWord writeBack rn newBase position number)
  elsewhere :
    Memory.ChangedIn (Memory.WithinWords start listed.length) core.bus.memory stored.bus.memory
  base : stored.cpu.registers.get rn =
    if writeBack then newBase else core.cpu.registers.get rn
  others : ∀ number, number ≠ rn →
    stored.cpu.registers.get number = core.cpu.registers.get number
  bus : stored.bus = { core.bus with memory := stored.bus.memory }
  status : stored.cpu.status = core.cpu.status
  saved : stored.cpu.saved = core.cpu.saved

/-- What a block load leaves behind. -/
structure BlockLoaded (writeBack : Bool) (rn : Fin 16) (listed : List (Fin 16))
    (start newBase : Word) (core loaded : Core) : Prop where
  words : ∀ position number, listed[position]? = some number →
    core.bus.memory.readWord (start + BitVec.ofNat 32 (4 * position)) =
      .ok (loaded.cpu.registers.get number)
  base : rn ∉ listed → loaded.cpu.registers.get rn =
    if writeBack then newBase else core.cpu.registers.get rn
  others : ∀ number, number ∉ listed → number ≠ rn →
    loaded.cpu.registers.get number = core.cpu.registers.get number
  bus : loaded.bus = core.bus
  status : loaded.cpu.status = core.cpu.status
  saved : loaded.cpu.saved = core.cpu.saved

variable {core : Core} {indexing : Indexing} {offsetting : Offsetting} {writeBack : Bool}
  {rn : Fin 16} {registers : Half}

theorem boundsOf_eq (base : Word) :
    boundsOf indexing offsetting registers base =
      (blockStart indexing offsetting base (listedRegisters registers).length,
        movedBase offsetting base (listedRegisters registers).length) := by
  cases indexing <;> cases offsetting <;> rfl

/-- A base that is moved by an empty block has not moved. -/
theorem movedBase_zero (base : Word) : movedBase offsetting base 0 = base := by
  cases offsetting
  · exact BitVec.sub_zero base
  · exact BitVec.add_zero base

section Blocks

variable {listed : List (Fin 16)} {start newBase : Word}
  (silent : core.bus.registry.subscriptions = [])
include silent

theorem exists_blockStored (other : writeBack = true → rn ≠ 15) (few : listed.length ≤ 16)
    (still : listed = [] → newBase = core.cpu.registers.get rn)
    (writable : core.bus.memory.WritableWords start listed.length) :
    ∃ stored, (storeBlock rn listed start (if writeBack then some newBase else none)).perform core =
        (.ok (), stored) ∧
      BlockStored writeBack rn listed start newBase core stored := by
  have length := core.cpu.registers.length_storedWords rn
    (if writeBack then some newBase else none) listed
  rw [← length] at writable
  obtain ⟨memory, writes⟩ := Memory.exists_writesWords writable
  refine ⟨_, (perform_storeBlock_eq_ok_iff silent).mpr ⟨memory, writes, rfl⟩, ?_⟩
  have holds := Memory.holdsWords_iff.mp (writes.holdsWords (by omega))
  have changes := writes.changedIn
  rw [length] at changes
  refine ⟨fun position number found => ?_, changes, ?_, fun number different => ?_, rfl, rfl, rfl⟩
  · have stored := holds position _ (core.cpu.registers.getElem?_storedWords rn _ found)
    rwa [core.cpu.registers.operand_eq_blockWord other] at stored
  · dsimp only
    split
    · next empty =>
      -- An empty block does not update the base, but would not have moved it either.
      rw [still empty, ite_self]
      rfl
    · simp only [Registers.get_rebased, true_and]
  · exact core.cpu.registers.get_rebased_of_ne different _

theorem exists_blockLoaded (distinct : listed.Nodup)
    (readable : core.bus.memory.ReadableWords start listed.length) :
    ∃ loaded, (loadBlock listed start).perform { core with
          cpu.registers :=
            core.cpu.registers.rebased rn (if writeBack then some newBase else none) } =
        (.ok (), loaded) ∧
      BlockLoaded writeBack rn listed start newBase core loaded := by
  -- No register is listed twice, so that each has one word of the block for its own.
  let values (number : Fin 16) : Word :=
    (core.bus.memory.readWord (start + BitVec.ofNat 32 (4 * listed.idxOf number))).toOption.getD 0
  have read (position : Nat) (number : Fin 16) (found : listed[position]? = some number) :
      core.bus.memory.readWord (start + BitVec.ofNat 32 (4 * position)) = .ok (values number) := by
    obtain ⟨inside, rfl⟩ := List.getElem?_eq_some_iff.mp found
    obtain ⟨word, stands⟩ := readable position inside
    simp only [values, distinct.idxOf_getElem position inside, stands]
    rfl
  have holds : core.bus.memory.HoldsWords start (listed.map values) := by
    rw [Memory.holdsWords_iff]
    intro position word found
    rw [List.getElem?_map] at found
    obtain ⟨number, listedThere, rfl⟩ := Option.map_eq_some_iff.mp found
    exact read position number listedThere
  refine ⟨_, loadBlock_loads (by exact silent) (by exact holds), ?_⟩
  refine ⟨fun position number found => ?_, fun unlisted => ?_, fun number unlisted different => ?_,
    rfl, rfl, rfl⟩
  · rw [Registers.get_taking_of_mem _ _ (List.mem_of_getElem? found)]
    exact read position number found
  · rw [Registers.get_taking_of_not_mem _ _ unlisted]
    simp only [Registers.get_rebased, true_and]
  · rw [Registers.get_taking_of_not_mem _ _ unlisted]
    exact core.cpu.registers.get_rebased_of_ne different _

end Blocks

/--
A decoded block transfer whose words can be accessed succeeds. A store leaves the listed registers
in the block, r15 four bytes further and the base updated unless it is the first in the list, and
changes no other byte and no register but the base. A load leaves the words of the block in the
listed registers, and changes no other register but the base and no byte at all.
-/
theorem block_transfers_move_exactly_the_listed {word : Word} {direction : Direction}
    {indexing : Indexing} {offsetting : Offsetting} {statusBit writeBack : Bool} {number : Nat}
    {registers : Half}
    (decoded : Opcode.decode word = .ok
      ⟨.blockTransfer direction indexing offsetting statusBit writeBack number registers, .al, word⟩)
    (silent : core.bus.registry.subscriptions = []) :
    ∃ rn : Fin 16, rn.val = number ∧
      let listed := listedRegisters registers
      let base := core.cpu.registers.get rn
      let start := blockStart indexing offsetting base listed.length
      let newBase := movedBase offsetting base listed.length
      let opcode : Opcode :=
        ⟨.blockTransfer direction indexing offsetting statusBit writeBack number registers, .al, word⟩
      (direction = .store → core.bus.memory.WritableWords start listed.length →
        ∃ stored, (execute opcode).perform core = (.ok false, stored) ∧
          BlockStored writeBack rn listed start newBase core stored) ∧
      (direction = .load → core.bus.memory.ReadableWords start listed.length →
        ∃ loaded, (execute opcode).perform core = (.ok (Bits.test registers 15), loaded) ∧
          BlockLoaded writeBack rn listed start newBase core loaded) := by
  have bounds := Opcode.withinBounds_of_decode decoded
  have inside : number < 16 := bounds.registers_lt number (by simp [Instruction.registers])
  obtain ⟨rn, rfl⟩ : ∃ rn : Fin 16, rn.val = number := ⟨⟨number, inside⟩, rfl⟩
  have other : writeBack = true → rn ≠ 15 := by
    rintro rfl rfl
    have accepted := bounds.accepted
    rw [Instruction.objection?] at accepted
    cases accepted
  have always : core.cpu.status.passes .al = some true := rfl
  refine ⟨rn, rfl, ?_, ?_⟩
  · rintro rfl writable
    have still (empty : listedRegisters registers = []) :
        movedBase offsetting (core.cpu.registers.get rn) (listedRegisters registers).length =
          core.cpu.registers.get rn := by
      rw [empty]
      exact movedBase_zero _
    obtain ⟨stored, performed, leaves⟩ :=
      exists_blockStored silent other (length_listedRegisters_le registers) still writable
    refine ⟨stored, execute_of_performed bounds always ?_, leaves⟩
    dsimp only [performInstruction]
    rw [perform_blockStore, boundsOf_eq]
    exact performed
  · rintro rfl readable
    have distinct : (listedRegisters registers).Nodup :=
      (ascending_listedRegisters registers).imp Fin.ne_of_lt
    obtain ⟨loaded, performed, leaves⟩ := exists_blockLoaded silent distinct readable
    refine ⟨loaded, execute_of_performed bounds always ?_, leaves⟩
    dsimp only [performInstruction]
    rw [perform_blockLoad, boundsOf_eq]
    exact performed

/-- Every register holds its number, and memory is the whole address space. -/
def numbered : Core where
  cpu := { Cpu.zeroed with registers := ⟨.ofFn fun number => BitVec.ofNat 32 number.val⟩ }
  bus := .ofMemory (.blank 0x100000000 4)

/--
`STMDA r4!, {r1, r4, r15}` begins with the last word of the address space and goes on with the
updated base and r15 four bytes further. `LDMIB r4, {r1, r4, r15}` loads them from there.
-/
theorem block_with_base_and_counter_around_the_end :
    ∃ stored loaded : Core,
      (execute ⟨.blockTransfer .store .post .down false true 4 0x8012, .al, 0xE8248012⟩).perform
        numbered = (.ok false, stored) ∧
      stored.cpu.registers.get 4 = 0xFFFFFFF8 ∧
      stored.bus.memory.readWord 0xFFFFFFFC = .ok 1 ∧
      stored.bus.memory.readWord 0 = .ok 0xFFFFFFF8 ∧ stored.bus.memory.readWord 4 = .ok 19 ∧
      (execute ⟨.blockTransfer .load .pre .up false false 4 0x8012, .al, 0xE9948012⟩).perform
        stored = (.ok true, loaded) ∧
      loaded.cpu.registers.get 4 = 0xFFFFFFF8 ∧ loaded.cpu.registers.get 15 = 19 := by
  have listed : listedRegisters 0x8012 = [1, 4, 15] := by decide
  have stores : Opcode.decode 0xE8248012 =
    .ok ⟨.blockTransfer .store .post .down false true 4 0x8012, .al, 0xE8248012⟩ := rfl
  have loads : Opcode.decode 0xE9948012 =
    .ok ⟨.blockTransfer .load .pre .up false false 4 0x8012, .al, 0xE9948012⟩ := rfl
  have silent : numbered.bus.registry.subscriptions = [] := rfl
  have base : numbered.cpu.registers.get 4 = 4 := rfl
  have start : blockStart .post .down 4 [(1 : Fin 16), 4, 15].length = 0xFFFFFFFC := by decide
  have again : blockStart .pre .up 0xFFFFFFF8 [(1 : Fin 16), 4, 15].length = 0xFFFFFFFC := by decide
  have newBase : movedBase .down 4 [(1 : Fin 16), 4, 15].length = 0xFFFFFFF8 := by decide
  have inside : ∀ position < [(1 : Fin 16), 4, 15].length,
      ((0xFFFFFFFC : Word) + BitVec.ofNat 32 (4 * position)).toNat + 4 ≤
        numbered.bus.memory.size := by decide
  obtain ⟨rn, same, store, _⟩ := block_transfers_move_exactly_the_listed stores silent
  obtain rfl : rn = 4 := Fin.ext same
  rw [listed, base, start, newBase] at store
  obtain ⟨stored, pushed, left⟩ := store rfl fun position below word =>
    Memory.exists_write_eq_ok (inside position below) word
  have quiet : stored.bus.registry.subscriptions = [] := by
    rw [left.bus]
    rfl
  have moved : stored.cpu.registers.get 4 = 0xFFFFFFF8 := left.base
  have stands (position : Fin 3) : stored.bus.memory.readWord
      (0xFFFFFFFC + BitVec.ofNat 32 (4 * position)) = .ok (#v[1, 0xFFFFFFF8, 19][position]) := by
    match position with
    | 0 => exact left.words 0 1 rfl
    | 1 => exact left.words 1 4 rfl
    | 2 => exact left.words 2 15 rfl
  obtain ⟨rn, same, _, load⟩ := block_transfers_move_exactly_the_listed loads quiet
  obtain rfl : rn = 4 := Fin.ext same
  rw [listed, moved, again] at load
  obtain ⟨loaded, popped, brought⟩ := load rfl fun position below => ⟨_, stands ⟨position, below⟩⟩
  have returned (position : Fin 3) : loaded.cpu.registers.get [(1 : Fin 16), 4, 15][position] =
      #v[1, 0xFFFFFFF8, 19][position] := by
    have brings := brought.words position [(1 : Fin 16), 4, 15][position]
      (List.getElem?_eq_getElem position.isLt)
    exact Except.ok.inj (brings.symm.trans (stands position))
  exact ⟨stored, loaded, pushed, moved, stands 0, stands 1, stands 2, popped, returned 1,
    returned 2⟩

end Core

end ArmBoard
