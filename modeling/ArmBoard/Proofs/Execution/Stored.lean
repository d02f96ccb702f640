import ArmBoard.Proofs.Execution.StoreLoad
import ArmBoard.Proofs.Execution.Trait
import ArmBoard.Proofs.Memory.Allocated

/-!
# Where instructions store

The operands of an instruction tell which pieces of memory it stores to, before
it has begun. They are stored in order, and the first that does not lie inside
memory ends the instruction. Where nobody listens to the bus nothing else in
memory is touched, whether the instruction succeeds or fails.
-/
namespace ArmBoard

def Quantity.count : Quantity → Nat
  | .word => 4
  | .byte => 1

/-- A number of words one after the other, around the end of the address space if need be. -/
def Piece.words : Word → Nat → List Piece
  | _, 0 => []
  | address, count + 1 => ⟨address, 4⟩ :: words (address + instructionSize) count

/-- Where an instruction stores, and in which order, if all of it lies inside memory. -/
def Instruction.pieces (cpu : Cpu) : Instruction → List Piece
  | swap quantity rn _ _ => [⟨(cpu.registers.get? rn).getD 0, quantity.count⟩]
  | halfTransfer .store .unsignedHalf _ addressing => [⟨cpu.effective addressing.shifted, 2⟩]
  | doubleTransfer .store _ addressing => Piece.words (cpu.effective addressing.shifted) 2
  | singleTransfer .store quantity _ addressing => [⟨cpu.effective addressing, quantity.count⟩]
  | blockTransfer .store indexing offsetting _ _ rn registers =>
      Piece.words (Core.boundsOf indexing offsetting registers ((cpu.registers.get? rn).getD 0)).1
        (listedRegisters registers).length
  | _ => []

theorem Instruction.pieces_eq_nil {instruction : Instruction}
    (reads : instruction.writesMemory = false) (cpu : Cpu) : instruction.pieces cpu = [] := by
  cases instruction with
  | halfTransfer direction | doubleTransfer direction | singleTransfer direction
  | blockTransfer direction =>
    cases direction with
    | load => rfl
    | store => cases reads
  | swap => cases reads
  | _ => rfl

/-- An opcode stores what its instruction does, unless its condition fails. -/
def Opcode.pieces (opcode : Opcode) (cpu : Cpu) : List Piece :=
  match cpu.status.passes opcode.condition with
  | some true => opcode.instruction.pieces cpu
  | _ => []

namespace Memory

variable {memory : Memory} {count : Nat} {address : Word}

/-- The pieces up to the first that does not lie inside memory. -/
def accepted (memory : Memory) (pieces : List Piece) : List Piece :=
  pieces.takeWhile (·.inside memory.size)

theorem accepted_cons_inside {piece : Piece} (inside : piece.inside memory.size = true)
    (pieces : List Piece) : memory.accepted (piece :: pieces) = piece :: memory.accepted pieces :=
  List.takeWhile_cons_of_pos inside

theorem accepted_cons_beyond {piece : Piece} (beyond : ¬ piece.inside memory.size = true)
    (pieces : List Piece) : memory.accepted (piece :: pieces) = [] :=
  List.takeWhile_cons_of_neg beyond

end Memory

namespace Bus

/-- Some pieces were stored, up to the first beyond memory, and else the bus is as it was. -/
structure StoredAt (pieces : List Piece) (bus after : Bus) : Prop where
  memory : Memory.Stores (bus.memory.accepted pieces) bus.memory after.memory
  elsewhere : after = { bus with memory := after.memory }

variable {bus after : Bus}

theorem StoredAt.of_eq (same : after = bus) : StoredAt [] bus after where
  memory := by
    rw [same]
    exact .nil
  elsewhere := by rw [same]

/-- What is stored first is the first piece, and what follows begins where memory has it. -/
theorem StoredAt.cons {count : Nat} {address : Word} {value : BitVec (8 * count)} {written : Memory}
    {pieces : List Piece} (stored : bus.memory.write count address value = .ok written)
    (later : StoredAt pieces { bus with memory := written } after) :
    StoredAt (⟨address, count⟩ :: pieces) bus after where
  memory := by
    have first := Memory.Stores.of_write stored
    have inside : Piece.inside bus.memory.size ⟨address, count⟩ = true :=
      first.allocatedBy.inside _ List.mem_cons_self
    have same : bus.memory.accepted pieces = written.accepted pieces := by
      rw [Memory.accepted, Memory.accepted, first.allocatedBy.size]
    rw [Memory.accepted_cons_inside inside, same]
    exact first.append later.memory
  elsewhere := later.elsewhere

/-- Nothing is stored at a piece beyond memory, nor at those behind it. -/
theorem StoredAt.beyond {count : Nat} {address : Word}
    (leaves : ¬ address.toNat + count ≤ bus.memory.size) (pieces : List Piece) :
    StoredAt (⟨address, count⟩ :: pieces) bus bus where
  memory := by
    rw [Memory.accepted_cons_beyond (mt of_decide_eq_true leaves)]
    exact .nil
  elsewhere := rfl

end Bus

namespace Core

open ArmBoard.Action
open ArmBoard.Bus (StoredAt)

/-- The bus is left alone, if nobody listens to it. -/
def SparesBus {α : Type} (action : Action Core α) : Prop :=
  ∀ core : Core, core.bus.registry.subscriptions = [] → (action.perform core).2.bus = core.bus

theorem sparesBus_of_untouched {α : Type} {action : Action Core α}
    (untouches : action.Follows untouched False) : SparesBus action := by
  intro core silent
  rw [untouches.keeps core silent]

/-- Only stores do otherwise. -/
def sparingBus : ReadingTrait where
  holds := SparesBus
  pure _ _ _ := rfl
  fail _ _ _ := rfl
  bind {α β action next} first second core silent := by
    have kept := first core silent
    rw [perform_bind]
    rcases acted : action.perform core with ⟨fault | value, middle⟩
    all_goals
      rw [acted] at kept
      dsimp only at kept ⊢
    · exact kept
    · rw [second value middle (by rwa [kept]), kept]
  readRegister _ _ _ := rfl
  writeRegister number value core _ := by
    simp only [writeRegister, perform, changeOr]
    cases core.cpu.registers.set? number value <;> rfl
  pc _ _ := rfl
  setPc _ _ _ := rfl
  status _ _ := rfl
  savedStatus _ _ := rfl
  load count address := sparesBus_of_untouched (load_untouched count address)

section Silent

variable {core : Core} (silent : core.bus.registry.subscriptions = [])
include silent

/-- An instruction that stores nothing spares the bus. -/
theorem bus_of_performInstruction {instruction : Instruction}
    (reads : instruction.writesMemory = false) (raw : Word) :
    ((performInstruction raw instruction).perform core).2.bus = core.bus := by
  have updates (update : Status → Status) : SparesBus (updateStatus update) := fun _ _ => rfl
  have sets (kind : StatusKind) (source : StatusSource) (fields : Word) :
      SparesBus (writeStatus kind source fields) := by
    apply sparingBus.bind (statusValue_holds source)
    intro value
    cases kind with
    | current => exact fun _ _ => rfl
    | saved =>
      apply sparingBus.bind sparingBus.savedStatus
      intro old core _
      simp only [setSavedStatus, perform, changeOr]
      cases core.cpu.setSavedStatus (old.merge fields value) <;> rfl
  exact sparingBus.performInstruction_holds raw instruction reads (fun update _ => updates update)
    (fun kind source fields _ => sets kind source fields) core silent

/-- A store that succeeds has stored the first piece, and one that fails is the last. -/
theorem storedAt_cons {α : Type} {count : Nat} {address : Word} {value : BitVec (8 * count)}
    {next : Action Core α} {pieces : List Piece}
    (later : ∀ written, StoredAt pieces { core.bus with memory := written }
      (next.perform { core with bus.memory := written }).2.bus) :
    StoredAt (⟨address, count⟩ :: pieces) core.bus
      ((do
        store count address value
        next).perform core).2.bus := by
  rw [perform_bind, perform_store silent]
  by_cases fits : address.toNat + count ≤ core.bus.memory.size
  · obtain ⟨written, stored⟩ := Memory.exists_write_eq_ok fits value
    rw [stored]
    exact .cons stored (later written)
  · rw [Memory.write_eq_beyond (Nat.lt_of_not_le fits)]
    exact .beyond fits pieces

/-- A single store, behind which only the processor changes. -/
theorem storedAt_single {α : Type} {count : Nat} {address : Word} {value : BitVec (8 * count)}
    {next : Action Core α} (spares : SparesBus next) :
    StoredAt [⟨address, count⟩] core.bus
      ((do
        store count address value
        next).perform core).2.bus :=
  storedAt_cons silent fun _ => .of_eq (spares _ (by exact silent))

theorem storedAt_block (rn : Fin 16) (listed : List (Fin 16)) (address : Word)
    (newBase? : Option Word) :
    StoredAt (Piece.words address listed.length) core.bus
      ((storeBlock rn listed address newBase?).perform core).2.bus := by
  -- A new base is written behind the first word only, and then the processor is another one.
  induction listed generalizing core address newBase? with
  | nil => exact .of_eq rfl
  | cons number rest ih =>
    rw [storeBlock, perform_bind, perform_readOperand]
    apply storedAt_cons silent
    intro written
    cases newBase? with
    | none => exact @ih { core with bus.memory := written } silent _ none
    | some newBase =>
      dsimp only
      rw [perform_bind, perform_writeRegister]
      exact @ih ⟨_, { core.bus with memory := written }⟩ silent _ none

/-- A load from the piece that is about to be stored has no memory where the store has none. -/
theorem storedAt_exchange {α : Type} {count : Nat} {address : Word} {value : BitVec (8 * count)}
    {next : BitVec (8 * count) → Action Core α} (spares : ∀ old, SparesBus (next old)) :
    StoredAt [⟨address, count⟩] core.bus
      ((do
        let old ← load count address
        store count address value
        next old).perform core).2.bus := by
  by_cases inside : address.toNat + count ≤ core.bus.memory.size
  · obtain ⟨old, read⟩ := Memory.exists_read_eq_ok inside
    rw [perform_bind, perform_load silent read]
    exact storedAt_single silent (spares old)
  · rw [perform_bind, perform_load_beyond (Nat.lt_of_not_le inside)]
    exact .beyond inside []

theorem storedAt_swap {quantity : Quantity} {rn rd rm : Fin 16} :
    StoredAt [⟨core.cpu.registers.get rn, quantity.count⟩] core.bus
      ((swap quantity rn rd rm).perform core).2.bus := by
  have written (value : Word) : SparesBus (writeRegister rd value) :=
    sparingBus.writeRegister rd value
  rw [swap, perform_bind, perform_readRegister]
  dsimp only
  rw [perform_bind, perform_readRegister]
  cases quantity with
  | byte => exact storedAt_exchange silent fun old : Byte => written (old.setWidth 32)
  | word => exact storedAt_exchange silent written

section Operands

variable {rd : Fin 16}

theorem storedAt_half {addressing : Addressing PlainOffset} (base : addressing.base < 16)
    (offset : ∀ number ∈ addressing.offset.register?, number < 16) :
    StoredAt [⟨core.cpu.effective addressing.shifted, 2⟩] core.bus
      ((halfTransfer .store .unsignedHalf rd addressing).perform core).2.bus := by
  rw [halfTransfer, perform_bind, perform_resolvePlain base offset]
  dsimp only
  rw [perform_bind, perform_readOperand]
  exact storedAt_single silent (@updateBase_holds sparingBus _ _ _)

theorem storedAt_of_single {quantity : Quantity} {addressing : Addressing ShiftedOffset}
    (base : addressing.base < 16) (offset : ∀ number ∈ addressing.offset.register?, number < 16) :
    StoredAt [⟨core.cpu.effective addressing, quantity.count⟩] core.bus
      ((singleTransfer .store quantity rd addressing).perform core).2.bus := by
  rw [singleTransfer, perform_bind, perform_resolveShifted base offset]
  dsimp only [moveSingle]
  rw [perform_bind, perform_readOperand]
  cases quantity with
  | byte | word => exact storedAt_single silent (@updateBase_holds sparingBus _ _ _)

theorem storedAt_double {next : Fin 16} {addressing : Addressing PlainOffset}
    (pair : next.val = rd.val + 1) (base : addressing.base < 16)
    (offset : ∀ number ∈ addressing.offset.register?, number < 16) :
    StoredAt (Piece.words (core.cpu.effective addressing.shifted) 2) core.bus
      ((doubleTransfer .store rd addressing).perform core).2.bus := by
  rw [doubleTransfer, perform_bind, perform_resolvePlain base offset]
  dsimp only
  rw [perform_bind, perform_readRegister]
  apply storedAt_cons silent
  intro written
  rw [← pair, perform_bind, perform_readRegister]
  exact @storedAt_single ⟨core.cpu, { core.bus with memory := written }⟩ silent _ _ _ _ _
    (@updateBase_holds sparingBus _ _ _)

end Operands

/-- An instruction stores the pieces that its operands tell, up to the first beyond memory. -/
theorem performInstruction_storedAt {instruction : Instruction} (bounds : instruction.WithinBounds)
    (raw : Word) :
    StoredAt (instruction.pieces core.cpu) core.bus
      ((performInstruction raw instruction).perform core).2.bus := by
  have ⟨registers, _, halves, _⟩ := bounds
  cases stores : instruction.writesMemory with
  | false =>
    rw [Instruction.pieces_eq_nil stores]
    exact .of_eq (bus_of_performInstruction silent stores raw)
  | true =>
    -- Families that never store are gone, and so are the loads among the others.
    cases instruction with
    | swap quantity rn rd rm =>
      have inside (number : Nat) (member : number ∈ [rn, rd, rm]) := registers number member
      rw [Instruction.pieces, Registers.get?_of_lt _ (inside rn (by simp))]
      exact @storedAt_swap core silent quantity ⟨rn, inside rn (by simp)⟩ ⟨rd, inside rd (by simp)⟩
        ⟨rm, inside rm (by simp)⟩
    | halfTransfer direction kind rd addressing =>
      obtain ⟨inside, base, offset⟩ := Instruction.lt_of_transfer registers
      cases direction with
      | load => cases stores
      | store =>
        cases kind with
        | unsignedHalf => exact @storedAt_half core silent ⟨rd, inside⟩ addressing base offset
        | signedByte | signedHalf => cases halves
    | doubleTransfer direction rd addressing =>
      obtain ⟨below, base, offset, _⟩ := bounds.of_pair
      cases direction with
      | load => cases stores
      | store =>
        exact @storedAt_double core silent ⟨rd, by omega⟩ ⟨rd + 1, by omega⟩ addressing rfl base
          offset
    | singleTransfer direction quantity rd addressing =>
      obtain ⟨inside, base, offset⟩ := Instruction.lt_of_transfer registers
      cases direction with
      | load => cases stores
      | store => exact @storedAt_of_single core silent ⟨rd, inside⟩ quantity addressing base offset
    | blockTransfer direction indexing offsetting statusBit writeBack rn listed =>
      have inside : rn < 16 := registers rn (by simp [Instruction.registers])
      cases direction with
      | load => cases stores
      | store =>
        have transfer := @perform_blockStore core indexing offsetting writeBack ⟨rn, inside⟩ listed
        dsimp only at transfer
        rw [performInstruction, transfer, Instruction.pieces, Registers.get?_of_lt _ inside]
        exact storedAt_block silent ⟨rn, inside⟩ _ _ _
    | _ => cases stores

theorem execute_storedAt {opcode : Opcode} (bounds : opcode.instruction.WithinBounds) :
    StoredAt (opcode.pieces core.cpu) core.bus ((execute opcode).perform core).2.bus := by
  have performed := performInstruction_storedAt silent bounds opcode.raw
  rw [perform_execute, Opcode.pieces]
  rcases core.cpu.status.passes opcode.condition with _ | _ | _
  · exact .of_eq rfl
  · exact .of_eq rfl
  · rcases acted : (performInstruction opcode.raw opcode.instruction).perform core with
      ⟨fault | _, after⟩ <;> rw [acted] at performed <;> exact performed

end Silent

end Core

end ArmBoard
