import ArmBoard.Proofs.Execution.Steps
import ArmBoard.Proofs.Memory.Words

/-!
# Instructions that fail as a whole

Apart from block transfers, an instruction does everything that can fail before
it changes anything: if it stops with a fault, the processor and memory are as
they were. The one exception is a store of a pair of words whose second word
lies outside memory, because its first word has been stored by then.
-/
namespace ArmBoard

namespace Registers

/-- The distance that a plain offset stands for. -/
def distance (registers : Registers) : PlainOffset → Word
  | .immediate offset => offset
  | .register number => (registers.get? number).getD 0

/-- The address of a transfer with a plain offset, and the value that its base would take. -/
def resolved (registers : Registers) (addressing : Addressing PlainOffset) : Word × Word :=
  addressing.resolve ((registers.get? addressing.base).getD 0) (registers.distance addressing.offset)

end Registers

def Instruction.isBlockTransfer : Instruction → Bool
  | blockTransfer .. => true
  | _ => false

def Instruction.storesPair : Instruction → Bool
  | doubleTransfer .store .. => true
  | _ => false

/--
The opcode is performed and stores a register and the next one, and there is memory for the first
of the two words, which goes to the given address, but not for the second.
-/
structure Opcode.StoresFirstOnly (opcode : Opcode) (core : Core) (rd : Fin 16) (address : Word) :
    Prop where
  passes : core.cpu.status.passes opcode.condition = some true
  pair : ∃ addressing, opcode.instruction = .doubleTransfer .store rd addressing ∧
    address = (core.cpu.registers.resolved addressing).1
  first : address.toNat + 4 ≤ core.bus.memory.size
  second : core.bus.memory.size < (address + instructionSize).toNat + 4

theorem Instruction.exists_of_storesPair {instruction : Instruction}
    (stores : instruction.storesPair = true) :
    ∃ rd addressing, instruction = doubleTransfer .store rd addressing := by
  unfold storesPair at stores
  split at stores
  · exact ⟨_, _, rfl⟩
  · cases stores

/-- The instruction says which register the first word comes from and where it goes. -/
theorem Opcode.StoresFirstOnly.named {opcode : Opcode} {core : Core} {rd other : Fin 16}
    {address : Word} {addressing : Addressing PlainOffset}
    (first : opcode.StoresFirstOnly core other address)
    (pair : opcode.instruction = .doubleTransfer .store rd addressing) :
    other = rd ∧ address = (core.cpu.registers.resolved addressing).1 := by
  obtain ⟨_, also, rfl⟩ := first.pair
  obtain ⟨-, same, rfl⟩ := Instruction.doubleTransfer.inj (pair.symm.trans also)
  exact ⟨Fin.ext same.symm, rfl⟩

namespace Core

open ArmBoard.Action

/-- Any fault, and where nobody listens to the bus everything is left as it is. -/
def untouched : Conduct Core where
  admits _ := True
  keeps core reached := core.bus.registry.subscriptions = [] → reached = core
  refl _ _ := rfl
  trans first second silent := by
    obtain rfl := first silent
    exact second silent

/-- No fault at all. -/
def unfailing : Conduct Core where
  admits _ := False
  keeps _ _ := True
  refl _ := trivial
  trans _ _ := trivial

instance : AllowsWrites unfailing := ⟨fun _ _ => trivial, fun _ _ => trivial, fun _ _ _ _ => trivial⟩

theorem not_admits_unfailing (fault : Fault) : ¬ unfailing.admits fault := id

section Accesses

theorem load_untouched (count : Nat) (address : Word) {excused : Prop} :
    (load count address).Follows untouched excused := by
  refine .of_keeps (fun _ => trivial) fun core silent => ?_
  have quiet (touch : Touch) := Bus.report_silent core.bus silent [] touch
  rw [load, onBus, perform_onPart, Bus.load, perform_ofFunction]
  cases core.bus.memory.check address count with
  | error fault => rfl
  | ok _ =>
    dsimp only
    rw [quiet]
    cases core.bus.memory.read count address with
    | error fault => rfl
    | ok value =>
      dsimp only
      rw [quiet]

/-- A store that fails has stored nothing. -/
theorem store_untouched (count : Nat) (address : Word) (value : BitVec (8 * count)) :
    (store count address value).Follows untouched True where
  faulted {core reached fault} failed := by
    rw [store, onBus, perform_onPart, Bus.store, perform_ofFunction] at failed
    cases written : core.bus.memory.write count address value with
    | error fault =>
      rw [written] at failed
      cases failed
      exact ⟨trivial, fun _ => rfl⟩
    | ok memory =>
      rw [written] at failed
      cases failed
  returned _ := Or.inl trivial

end Accesses

section Families

theorem branchExchange_untouched {raw : Word} {rm : Nat} (bound : rm < 16) :
    (branchExchange raw rm).Follows untouched True := by
  refine .bind (readRegister_follows bound) fun target => ?_
  split
  · exact .fail trivial
  · exact setPc_follows _

theorem swap_untouched {quantity : Quantity} {rn rd rm : Nat} (rnBound : rn < 16)
    (rdBound : rd < 16) (rmBound : rm < 16) (other : rd ≠ 15) :
    (swap quantity rn rd rm).Follows untouched True := by
  have written (value : Word) : (writeRegister rd value).Follows unfailing False :=
    writeRegister_follows rdBound (Or.inr other) value
  refine .bind (readRegister_follows rnBound) fun address => ?_
  refine .bind (readRegister_follows rmBound) fun source => ?_
  cases quantity with
  | byte | word =>
    -- Behind the store only a register is written, which cannot fail any more.
    refine .bind (load_untouched _ _) fun old => ?_
    exact .bindNever not_admits_unfailing (store_untouched _ _ _) fun _ => written _

variable {direction : Direction} {rd : Nat}

section Plain

variable {addressing : Addressing PlainOffset} (rdBound : rd < 16)
  (baseBound : addressing.base < 16) (bound : ∀ number ∈ addressing.offset.register?, number < 16)
  (accepted : addressing.baseObjection? = none)
include rdBound baseBound bound accepted

theorem halfTransfer_untouched {kind : HalfKind} :
    (halfTransfer direction kind rd addressing).Follows untouched True := by
  refine .bind (resolve_follows baseBound (plainDistance_follows bound)) fun (address, newBase) => ?_
  cases direction with
  | load =>
    have loaded : (loadHalfKind kind address).Follows untouched False := by
      cases kind <;> exact .bind (load_untouched _ _) fun _ => .pure _
    exact .bind loaded fun value => .of_never not_admits_unfailing
      (updateAndWrite_follows rdBound baseBound accepted newBase value)
  | store =>
    cases kind with
    | unsignedHalf =>
      have updated : (updateBase addressing newBase).Follows unfailing False :=
        updateBase_follows baseBound accepted newBase
      refine .bind (readOperand_follows rdBound true) fun value => ?_
      exact .bindNever not_admits_unfailing (store_untouched _ _ _) fun _ => updated
    | signedByte | signedHalf => exact .fail trivial

theorem doubleLoad_untouched (pair : rd + 1 < 15) :
    (doubleTransfer .load rd addressing).Follows untouched True := by
  refine .bind (resolve_follows baseBound (plainDistance_follows bound)) fun (address, newBase) => ?_
  have written (low high : Word) :
      (do
        updateBase addressing newBase
        writeRegister rd low
        writeRegister (rd + 1) high : Action Core Unit).Follows unfailing False := by
    refine .bind (updateBase_follows baseBound accepted newBase) fun _ => ?_
    refine .bind (writeRegister_follows rdBound (Or.inr (by omega)) _) fun _ => ?_
    exact writeRegister_follows (by omega) (Or.inr (by omega)) _
  -- Both words are at hand before the base or a register is written.
  refine .bind (load_untouched _ _) fun low => ?_
  exact .bind (load_untouched _ _) fun high => .of_never not_admits_unfailing (written low high)

end Plain

theorem singleTransfer_untouched {quantity : Quantity} {addressing : Addressing ShiftedOffset}
    (rdBound : rd < 16) (baseBound : addressing.base < 16)
    (bound : ∀ number ∈ addressing.offset.register?, number < 16)
    (accepted : addressing.baseObjection? = none) :
    (singleTransfer direction quantity rd addressing).Follows untouched True := by
  refine .bind (resolve_follows baseBound (shiftedDistance_follows bound))
    fun (address, newBase) => ?_
  cases direction with
  | load =>
    have written (value : Word) :
        (do
          updateBase addressing newBase
          writeRegister rd value : Action Core Unit).Follows untouched True :=
      .of_never not_admits_unfailing
        (updateAndWrite_follows rdBound baseBound accepted newBase value)
    cases quantity with
    | byte => exact .bind (load_untouched _ _) fun _ => .bind (.pure _) fun _ => written _
    | word => exact .bind (load_untouched _ _) fun _ => written _
  | store =>
    have updated : (updateBase addressing newBase).Follows unfailing False :=
      updateBase_follows baseBound accepted newBase
    refine .bind (readOperand_follows rdBound true) fun value => ?_
    cases quantity with
    | byte | word =>
      exact .bindNever not_admits_unfailing (store_untouched _ _ _) fun _ => updated

end Families

section Pairs

variable {core reached : Core} {rd next : Fin 16} {addressing : Addressing PlainOffset}
  {fault : Fault}

theorem perform_resolve (baseBound : addressing.base < 16)
    (bound : ∀ number ∈ addressing.offset.register?, number < 16) :
    (resolve addressing (plainDistance addressing.offset)).perform core =
      (.ok (core.cpu.registers.resolved addressing), core) := by
  have distance : (plainDistance addressing.offset).perform core =
      (.ok (core.cpu.registers.distance addressing.offset), core) := by
    cases offset : addressing.offset with
    | immediate offset => rfl
    | register number =>
      have inside : number < 16 := bound number (by rw [offset]; rfl)
      have read := @perform_readRegister core ⟨number, inside⟩
      rw [plainDistance, read, Registers.distance, Registers.get?_of_lt _ inside]
      rfl
  rw [Registers.resolved, Registers.get?_of_lt _ baseBound]
  exact perform_resolve_of distance (@perform_readRegister core ⟨addressing.base, baseBound⟩)

section Stores

variable (silent : core.bus.registry.subscriptions = [])
include silent

/-- The two words of a pair are stored one after the other, and the base is updated last. -/
theorem perform_doubleStore (pair : next.val = rd.val + 1) (baseBound : addressing.base < 16)
    (bound : ∀ number ∈ addressing.offset.register?, number < 16) :
    (doubleTransfer .store rd addressing).perform core =
      match core.bus.memory.writeWord (core.cpu.registers.resolved addressing).1
        (core.cpu.registers.get rd) with
      | .error fault => (.error fault, core)
      | .ok between =>
        match between.writeWord ((core.cpu.registers.resolved addressing).1 + instructionSize)
          (core.cpu.registers.get next) with
        | .error fault => (.error fault, { core with bus.memory := between })
        | .ok memory => (updateBase addressing (core.cpu.registers.resolved addressing).2).perform
            { core with bus.memory := memory } := by
  rw [doubleTransfer, perform_bind, perform_resolve baseBound bound]
  dsimp only
  rw [perform_bind, perform_readRegister]
  dsimp only
  rw [perform_bind, perform_storeWord silent]
  cases core.bus.memory.writeWord (core.cpu.registers.resolved addressing).1
    (core.cpu.registers.get rd) with
  | error fault => rfl
  | ok between =>
    dsimp only
    rw [← pair, perform_bind, perform_readRegister]
    dsimp only
    rw [perform_bind, perform_storeWord (by exact silent)]
    cases between.writeWord ((core.cpu.registers.resolved addressing).1 + instructionSize)
      (core.cpu.registers.get next) with
    | error fault => rfl
    | ok memory => rfl

/-- A store of a pair fails for want of memory: for its first word, or for its second alone. -/
theorem doubleStore_failed
    (bounds : (Instruction.doubleTransfer .store rd addressing).WithinBounds)
    (failed : (doubleTransfer .store rd addressing).perform core = (.error fault, reached)) :
    let address := (core.cpu.registers.resolved addressing).1
    (core.bus.memory.size < address.toNat + 4 ∧ reached = core) ∨
    (address.toNat + 4 ≤ core.bus.memory.size ∧
      core.bus.memory.size < (address + instructionSize).toNat + 4 ∧
      fault = core.bus.memory.beyond (address + instructionSize) ∧
      ∃ stored, core.bus.memory.writeWord address (core.cpu.registers.get rd) = .ok stored ∧
        reached = { core with bus.memory := stored }) := by
  intro address
  obtain ⟨below, base, offset, accepted⟩ := bounds.of_pair
  let next : Fin 16 := ⟨rd + 1, by omega⟩
  rw [@perform_doubleStore core rd next addressing silent rfl base offset] at failed
  by_cases first : address.toNat + 4 ≤ core.bus.memory.size
  · obtain ⟨between, written⟩ := Memory.exists_write_eq_ok first (core.cpu.registers.get rd)
    have changes := Memory.changedIn_of_write written
    rw [Memory.writeWord, written] at failed
    dsimp only at failed
    by_cases second : (address + instructionSize).toNat + 4 ≤ between.size
    · obtain ⟨memory, also⟩ := Memory.exists_write_eq_ok second (core.cpu.registers.get next)
      rw [Memory.writeWord, also] at failed
      -- Nothing is left that could fail.
      have updates : (updateBase addressing (core.cpu.registers.resolved addressing).2).Follows
          unfailing False := updateBase_follows base accepted _
      exact absurd (updates.faulted failed).1 (not_admits_unfailing fault)
    · have leaves := Nat.lt_of_not_le second
      rw [Memory.writeWord, Memory.write_eq_beyond leaves] at failed
      cases failed
      rw [changes.size] at leaves
      exact Or.inr ⟨first, leaves, changes.beyond _, between, written, rfl⟩
  · have leaves := Nat.lt_of_not_le first
    rw [Memory.writeWord, Memory.write_eq_beyond leaves] at failed
    cases failed
    exact Or.inl ⟨leaves, rfl⟩

end Stores

end Pairs

section Whole

variable {instruction : Instruction}

/-- Only a block transfer or a store of a pair can fail halfway. -/
theorem performInstruction_untouched (bounds : instruction.WithinBounds)
    (single : instruction.isBlockTransfer = false) (apart : instruction.storesPair = false)
    (raw : Word) : (performInstruction raw instruction).Follows untouched True := by
  have ⟨registers, _, _, accepted⟩ := bounds
  cases instruction with
  | swap quantity rn rd rm =>
    have bound (number : Nat) (member : number ∈ [rn, rd, rm]) := registers number member
    exact swap_untouched (bound rn (by simp)) (bound rd (by simp)) (bound rm (by simp))
      (Instruction.swap_accepted accepted)
  | branchExchange rm =>
    exact branchExchange_untouched (registers rm (by simp [Instruction.registers]))
  | halfTransfer direction kind rd addressing =>
    obtain ⟨inside, base, offset⟩ := Instruction.lt_of_transfer registers
    exact halfTransfer_untouched inside base offset (Instruction.transfer_accepted accepted)
  | doubleTransfer direction rd addressing =>
    obtain ⟨pair, base, offset, baseAccepted⟩ := bounds.of_pair
    cases direction with
    | load => exact doubleLoad_untouched (by omega) base offset baseAccepted pair
    | store => cases apart
  | singleTransfer direction quantity rd addressing =>
    obtain ⟨inside, base, offset⟩ := Instruction.lt_of_transfer registers
    exact singleTransfer_untouched inside base offset (Instruction.transfer_accepted accepted)
  | blockTransfer => cases single
  | dataProcessing | statusRead | statusWrite | multiply | multiplyLong | byteReverse | branch
  | coprocessorTransfer | coprocessorOperation | coprocessorRegister | softwareInterrupt =>
    exact .of_never not_admits_unfailing (performSure_follows bounds rfl raw)

end Whole

section Execution

variable {opcode : Opcode} {core reached : Core} {fault : Fault}

/--
If a decoded instruction other than a block transfer fails, the processor and memory are as they
were, with the pages that memory has allocated. The exception is a store of a pair of words with
memory for the first only: the first is stored then, and nothing else has changed.
-/
theorem failing_transfers_are_atomic {word : Word} (decoded : Opcode.decode word = .ok opcode)
    (single : opcode.instruction.isBlockTransfer = false)
    (silent : core.bus.registry.subscriptions = [])
    (failed : (execute opcode).perform core = (.error fault, reached)) :
    (∀ rd address, opcode.StoresFirstOnly core rd address →
      fault = core.bus.memory.beyond (address + instructionSize) ∧
      ∃ stored, core.bus.memory.writeWord address (core.cpu.registers.get rd) = .ok stored ∧
        reached = { core with bus.memory := stored }) ∧
    ((∀ rd address, ¬ opcode.StoresFirstOnly core rd address) → reached = core) := by
  have bounds := Opcode.withinBounds_of_decode decoded
  obtain ⟨reserved, same⟩ | ⟨passes, performed⟩ := execute_failed failed
  · refine ⟨fun rd address first => ?_, fun _ => same⟩
    have passes := first.passes
    rw [reserved] at passes
    cases passes
  -- Everything but a store of a pair fails before it changes anything.
  cases apart : opcode.instruction.storesPair with
  | false =>
    have untouched : reached = core :=
      ((performInstruction_untouched bounds single apart opcode.raw).faulted performed).2 silent
    refine ⟨fun rd address first => ?_, fun _ => untouched⟩
    obtain ⟨addressing, pair, -⟩ := first.pair
    rw [pair] at apart
    cases apart
  | true =>
    obtain ⟨number, addressing, pair⟩ := Instruction.exists_of_storesPair apart
    rw [pair] at performed bounds
    obtain ⟨rd, rfl⟩ : ∃ rd : Fin 16, rd.val = number :=
      ⟨⟨number, bounds.registers_lt number (by simp [Instruction.registers])⟩, rfl⟩
    have outcome := doubleStore_failed silent bounds performed
    refine ⟨fun other address first => ?_, fun never => ?_⟩
    · obtain ⟨rfl, rfl⟩ := first.named pair
      obtain ⟨leaves, -⟩ | ⟨-, -, stops, stores⟩ := outcome
      · exact absurd first.first (Nat.not_le_of_lt leaves)
      · exact ⟨stops, stores⟩
    · obtain ⟨-, same⟩ | ⟨first, second, -⟩ := outcome
      · exact same
      · exact absurd ⟨passes, ⟨addressing, pair, rfl⟩, first, second⟩ (never rd _)

/-- The address of the last word of a small memory in r2, and a number in the other registers. -/
def atTheEnd : Core where
  cpu := { Cpu.zeroed with
    registers := ⟨.ofFn fun number => if number.val = 2 then 0xC else 5⟩ }
  bus := .ofMemory (.blank 0x10 2)

/--
`STRD r0, [r2]` has stored r0 at the end of memory when it finds no place for r1. `LDRD r0, [r2], #8`
has read the last word when it finds no next one, but r0 and r2 are as they were.
-/
theorem pair_at_the_end_of_memory :
    ∃ stored, atTheEnd.bus.memory.writeWord 0xC 5 = .ok stored ∧
      (execute ⟨.doubleTransfer .store 0 ⟨2, .immediate 0, .pre, .up, false⟩, .al,
          0xE1C200F0⟩).perform atTheEnd =
        (.error (.outOfRange 0x10 0x10), { atTheEnd with bus.memory := stored }) ∧
      (execute ⟨.doubleTransfer .load 0 ⟨2, .immediate 8, .post, .up, false⟩, .al,
          0xE0C200D8⟩).perform atTheEnd = (.error (.outOfRange 0x10 0x10), atTheEnd) := by
  let store : Opcode :=
    ⟨.doubleTransfer .store 0 ⟨2, .immediate 0, .pre, .up, false⟩, .al, 0xE1C200F0⟩
  let load : Opcode :=
    ⟨.doubleTransfer .load 0 ⟨2, .immediate 8, .post, .up, false⟩, .al, 0xE0C200D8⟩
  have storeFails : (execute store).perform atTheEnd =
    (.error (.outOfRange 0x10 0x10), ((execute store).perform atTheEnd).2) := rfl
  have loadFails : (execute load).perform atTheEnd =
    (.error (.outOfRange 0x10 0x10), ((execute load).perform atTheEnd).2) := rfl
  have storeDecoded : Opcode.decode 0xE1C200F0 = .ok store := rfl
  have loadDecoded : Opcode.decode 0xE0C200D8 = .ok load := rfl
  obtain ⟨halfway, -⟩ := failing_transfers_are_atomic storeDecoded rfl rfl storeFails
  obtain ⟨-, whole⟩ := failing_transfers_are_atomic loadDecoded rfl rfl loadFails
  obtain ⟨-, stored, written, left⟩ := halfway 0 0xC ⟨rfl, ⟨_, rfl, rfl⟩, by decide, by decide⟩
  have same : ((execute load).perform atTheEnd).2 = atTheEnd := by
    refine whole fun rd address first => ?_
    obtain ⟨_, pair, -⟩ := first.pair
    cases pair
  rw [left] at storeFails
  rw [same] at loadFails
  exact ⟨stored, written, storeFails, loadFails⟩

end Execution

end Core

end ArmBoard
