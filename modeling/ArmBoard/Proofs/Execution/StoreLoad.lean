import ArmBoard.Proofs.Execution.Atomicity
import ArmBoard.Proofs.Execution.BlockTransfer
import ArmBoard.Proofs.Word.Fields

/-!
# Loads after stores

The three families of transfers read their operands from different bits and have
handlers of their own, but all of them find an address, move one register or two
in a row between this address and the processor, and update a base. What a store
has put into memory is what any load of the same width finds there, whatever
addressing it reaches the address by and whatever the registers hold by then.
-/
namespace ArmBoard

/-- A plain offset as one of a word transfer, where a register is taken without a shift. -/
def PlainOffset.shifted : PlainOffset → ShiftedOffset
  | immediate offset => .immediate offset
  | register number => .register 0 .lsl number

def Addressing.shifted (addressing : Addressing PlainOffset) : Addressing ShiftedOffset :=
  { addressing with offset := addressing.offset.shifted }

/-- A transfer of a register, or of two for a doubleword, whatever family it belongs to. -/
structure Transfer where
  direction : Direction
  width : Width
  /-- A load spreads the sign of what it brings. -/
  signed : Bool
  rd : Nat
  addressing : Addressing ShiftedOffset

/-- The transfer that an instruction makes, unless it moves a block or nothing at all. -/
def Instruction.transfer? : Instruction → Option Transfer
  | singleTransfer direction .word rd addressing => some ⟨direction, .word, false, rd, addressing⟩
  | singleTransfer direction .byte rd addressing => some ⟨direction, .byte, false, rd, addressing⟩
  | halfTransfer direction .unsignedHalf rd addressing =>
      some ⟨direction, .half, false, rd, addressing.shifted⟩
  | halfTransfer direction .signedByte rd addressing =>
      some ⟨direction, .byte, true, rd, addressing.shifted⟩
  | halfTransfer direction .signedHalf rd addressing =>
      some ⟨direction, .half, true, rd, addressing.shifted⟩
  | doubleTransfer direction rd addressing =>
      some ⟨direction, .dword, false, rd, addressing.shifted⟩
  | _ => none

/-- What becomes of a register on its way through memory and back. -/
def Transfer.extended (transfer : Transfer) (value : Word) : Word :=
  match transfer.width, transfer.signed with
  | .byte, false => (value.setWidth 8).setWidth 32
  | .byte, true => (value.setWidth 8).signExtend 32
  | .half, false => (value.setWidth 16).setWidth 32
  | .half, true => (value.setWidth 16).signExtend 32
  | .word, _ | .dword, _ => value

namespace Cpu

variable (cpu : Cpu)

/-- The distance that an offset stands for. -/
def distance : ShiftedOffset → Word
  | .immediate offset => offset
  | .register amount kind number =>
      (Shifted.byImmediate kind amount ((cpu.registers.get? number).getD 0) cpu.status.carry).value

/-- The base with the offset added or subtracted. -/
def movedBase (addressing : Addressing ShiftedOffset) : Word :=
  addressing.offsetting.apply ((cpu.registers.get? addressing.base).getD 0)
    (cpu.distance addressing.offset)

/-- The address of a transfer: the base, or where it is moved to if that comes first. -/
def effective (addressing : Addressing ShiftedOffset) : Word :=
  match addressing.indexing with
  | .post => (cpu.registers.get? addressing.base).getD 0
  | .pre => cpu.movedBase addressing

/-- A register as a store sends it: r15 is a word further by then. -/
def sent (number : Nat) : Word :=
  if number = Registers.pcNumber then (cpu.registers.get? number).getD 0 + instructionSize
  else (cpu.registers.get? number).getD 0

variable {cpu}

theorem resolve_eq (addressing : Addressing ShiftedOffset) :
    addressing.resolve ((cpu.registers.get? addressing.base).getD 0)
      (cpu.distance addressing.offset) = (cpu.effective addressing, cpu.movedBase addressing) := by
  rw [Addressing.resolve, effective]
  cases addressing.indexing <;> rfl

/-- A register that is not shifted is added as it is. -/
theorem distance_shifted (offset : PlainOffset) :
    cpu.distance offset.shifted = cpu.registers.distance offset := by
  cases offset <;> rfl

theorem resolved_eq (addressing : Addressing PlainOffset) :
    cpu.registers.resolved addressing =
      (cpu.effective addressing.shifted, cpu.movedBase addressing.shifted) := by
  rw [Registers.resolved, ← distance_shifted]
  exact resolve_eq addressing.shifted

theorem sent_eq_operand (number : Fin 16) :
    cpu.sent number = cpu.registers.operand number true := by
  rw [sent, Registers.operand, Registers.get?_of_lt _ number.isLt]
  simp

end Cpu

namespace Memory

/-- The places of what a transfer of this width moves. -/
def Occupied (width : Width) (address : Word) (place : Nat) : Prop :=
  match width with
  | .dword => WithinWords address 2 place
  | width => Within address.toNat width.bytes place

/-- Memory in which a register, or its low part, or two registers in a row have been stored. -/
def Puts (memory : Memory) (width : Width) (address first second : Word) (written : Memory) : Prop :=
  match width with
  | .byte => memory.write 1 address (first.setWidth 8) = .ok written
  | .half => memory.write 2 address (first.setWidth 16) = .ok written
  | .word => memory.writeWord address first = .ok written
  | .dword => WritesWords memory address [first, second] written

/-- Memory that has them at an address. -/
def Holds (memory : Memory) (width : Width) (address first second : Word) : Prop :=
  match width with
  | .byte => memory.read 1 address = .ok (first.setWidth 8)
  | .half => memory.read 2 address = .ok (first.setWidth 16)
  | .word => memory.readWord address = .ok first
  | .dword => memory.HoldsWords address [first, second]

section Puts

variable {memory written : Memory} {width : Width} {address first second : Word}
  (puts : memory.Puts width address first second written)
include puts

theorem Puts.holds : written.Holds width address first second := by
  cases width with
  | byte => exact read_write puts
  | half => exact read_write puts
  | word => exact read_write puts
  | dword => exact WritesWords.holdsWords puts (by simp)

theorem Puts.changedIn : ChangedIn (Occupied width address) memory written := by
  cases width with
  | byte => exact changedIn_of_write puts
  | half => exact changedIn_of_write puts
  | word => exact changedIn_of_write puts
  | dword => exact WritesWords.changedIn puts

end Puts

end Memory

namespace Core

open ArmBoard.Action

variable {core reached : Core} {rd rn : Fin 16}

section Addresses

theorem perform_resolveShifted {addressing : Addressing ShiftedOffset}
    (base : addressing.base < 16) (offset : ∀ number ∈ addressing.offset.register?, number < 16) :
    (resolve addressing (shiftedDistance addressing.offset)).perform core =
      (.ok (core.cpu.effective addressing, core.cpu.movedBase addressing), core) := by
  have measured : (shiftedDistance addressing.offset).perform core =
      (.ok (core.cpu.distance addressing.offset), core) := by
    cases shifted : addressing.offset with
    | immediate offset => rfl
    | register amount kind number =>
      have inside : number < 16 := offset number (by rw [shifted]; rfl)
      rw [Cpu.distance, Registers.get?_of_lt _ inside]
      exact @perform_shiftedDistance kind amount ⟨number, inside⟩ core
  rw [← Cpu.resolve_eq, Registers.get?_of_lt _ base]
  exact perform_resolve_of measured (@perform_readRegister core ⟨addressing.base, base⟩)

theorem perform_resolvePlain {addressing : Addressing PlainOffset}
    (base : addressing.base < 16) (offset : ∀ number ∈ addressing.offset.register?, number < 16) :
    (resolve addressing (plainDistance addressing.offset)).perform core =
      (.ok (core.cpu.effective addressing.shifted, core.cpu.movedBase addressing.shifted), core) := by
  rw [perform_resolve base offset, Cpu.resolved_eq]

/-- The base as an addressing leaves it. -/
def rebasedBy {offset : Type} (core : Core) (rn : Fin 16) (addressing : Addressing offset)
    (newBase : Word) : Core :=
  { core with
    cpu.registers := core.cpu.registers.rebased rn
      (if addressing.updatesBase then some newBase else none) }

theorem perform_updateBase_of {offset : Type} {addressing : Addressing offset}
    (base : addressing.base = rn) (newBase : Word) :
    (updateBase addressing newBase).perform core = (.ok (), core.rebasedBy rn addressing newBase) := by
  rw [updateBase, rebasedBy]
  cases addressing.updatesBase with
  | false => rfl
  | true =>
    rw [if_pos rfl, base, perform_writeRegister]
    rfl

/-- What a load has fetched ends in its register, and wins over an updated base. -/
theorem exists_loaded {offset : Type} {addressing : Addressing offset} (base : addressing.base = rn)
    (newBase value : Word) :
    ∃ after, (do
      updateBase addressing newBase
      writeRegister rd value : Action Core Unit).perform core = (.ok (), after) ∧
      after.cpu.registers.get rd = value := by
  rw [perform_bind, perform_updateBase_of base]
  dsimp only
  rw [perform_writeRegister]
  exact ⟨_, rfl, by simp [Registers.get_set]⟩

end Addresses

section Stores

variable (silent : core.bus.registry.subscriptions = [])
include silent

/-- A store that succeeds has written, and the base is updated behind it. -/
theorem exists_written_of_store {offset : Type} {addressing : Addressing offset}
    (base : addressing.base = rn) {count : Nat} {address newBase : Word}
    {value : BitVec (8 * count)}
    (performed : (do
      store count address value
      updateBase addressing newBase : Action Core Unit).perform core = (.ok (), reached)) :
    ∃ written, core.bus.memory.write count address value = .ok written ∧
      reached = { core with bus.memory := written }.rebasedBy rn addressing newBase := by
  rw [perform_bind, perform_store silent] at performed
  -- A store that fails stops the transfer before its base is updated.
  cases stored : core.bus.memory.write count address value with
  | error fault =>
    rw [stored] at performed
    cases performed
  | ok written =>
    rw [stored] at performed
    dsimp only at performed
    rw [perform_updateBase_of base] at performed
    exact ⟨written, rfl, (Prod.mk.inj performed).2.symm⟩

theorem exists_puts_of_single {quantity : Quantity} {addressing : Addressing ShiftedOffset}
    (base : addressing.base = rn) (offset : ∀ number ∈ addressing.offset.register?, number < 16)
    (performed : (singleTransfer .store quantity rd addressing).perform core = (.ok (), reached)) :
    ∃ written,
      reached = { core with bus.memory := written }.rebasedBy rn addressing
        (core.cpu.movedBase addressing) ∧
      match quantity with
      | .byte => core.bus.memory.write 1 (core.cpu.effective addressing)
          ((core.cpu.registers.operand rd true).setWidth 8) = .ok written
      | .word => core.bus.memory.writeWord (core.cpu.effective addressing)
          (core.cpu.registers.operand rd true) = .ok written := by
  rw [singleTransfer, perform_bind, perform_resolveShifted (by omega) offset] at performed
  dsimp only [moveSingle] at performed
  rw [perform_bind, perform_readOperand] at performed
  cases quantity with
  | byte | word =>
    obtain ⟨written, stored, same⟩ := exists_written_of_store silent base performed
    exact ⟨written, same, stored⟩

theorem exists_puts_of_half {addressing : Addressing PlainOffset} (base : addressing.base = rn)
    (offset : ∀ number ∈ addressing.offset.register?, number < 16)
    (performed : (halfTransfer .store .unsignedHalf rd addressing).perform core =
      (.ok (), reached)) :
    ∃ written,
      reached = { core with bus.memory := written }.rebasedBy rn addressing
        (core.cpu.movedBase addressing.shifted) ∧
      core.bus.memory.write 2 (core.cpu.effective addressing.shifted)
        ((core.cpu.registers.operand rd true).setWidth 16) = .ok written := by
  rw [halfTransfer, perform_bind, perform_resolvePlain (by omega) offset] at performed
  dsimp only at performed
  rw [perform_bind, perform_readOperand] at performed
  obtain ⟨written, stored, same⟩ := exists_written_of_store silent base performed
  exact ⟨written, same, stored⟩

theorem exists_puts_of_double {next : Fin 16} {addressing : Addressing PlainOffset}
    (pair : next.val = rd.val + 1) (base : addressing.base = rn)
    (offset : ∀ number ∈ addressing.offset.register?, number < 16)
    (performed : (doubleTransfer .store rd addressing).perform core = (.ok (), reached)) :
    ∃ written,
      reached = { core with bus.memory := written }.rebasedBy rn addressing
        (core.cpu.movedBase addressing.shifted) ∧
      Memory.WritesWords core.bus.memory (core.cpu.effective addressing.shifted)
        [core.cpu.registers.get rd, core.cpu.registers.get next] written := by
  rw [perform_doubleStore silent pair (by omega) offset, Cpu.resolved_eq] at performed
  dsimp only at performed
  -- Either word may fail, and then the transfer has not succeeded.
  split at performed
  · cases performed
  · next between first =>
    split at performed
    · cases performed
    · next written second =>
      rw [perform_updateBase_of base] at performed
      exact ⟨written, (Prod.mk.inj performed).2.symm, .cons first (.cons second .nil)⟩

end Stores

section Loads

variable (silent : core.bus.registry.subscriptions = [])
include silent

/-- A word or a byte is brought in full, and a byte without its sign. -/
theorem exists_loaded_single {quantity : Quantity} {addressing : Addressing ShiftedOffset}
    {transfer : Transfer} (base : addressing.base = rn)
    (offset : ∀ number ∈ addressing.offset.register?, number < 16)
    (transfers : (Instruction.singleTransfer .load quantity rd addressing).transfer? = some transfer)
    {first second : Word}
    (held : core.bus.memory.Holds transfer.width (core.cpu.effective transfer.addressing)
      first second) :
    ∃ after, (singleTransfer .load quantity rd addressing).perform core = (.ok (), after) ∧
      after.cpu.registers.get rd = transfer.extended first := by
  rw [singleTransfer, perform_bind, perform_resolveShifted (by omega) offset]
  dsimp only [moveSingle]
  cases quantity with
  | byte =>
    cases transfers
    rw [loadByte, perform_bind, perform_load silent held]
    exact exists_loaded base _ _
  | word =>
    cases transfers
    rw [perform_bind, perform_loadWord silent held]
    exact exists_loaded base _ _

/-- A half or a byte is brought, with its sign spread unless it is a plain half. -/
theorem exists_loaded_half {kind : HalfKind} {addressing : Addressing PlainOffset}
    {transfer : Transfer} (base : addressing.base = rn)
    (offset : ∀ number ∈ addressing.offset.register?, number < 16)
    (transfers : (Instruction.halfTransfer .load kind rd addressing).transfer? = some transfer)
    {first second : Word}
    (held : core.bus.memory.Holds transfer.width (core.cpu.effective transfer.addressing)
      first second) :
    ∃ after, (halfTransfer .load kind rd addressing).perform core = (.ok (), after) ∧
      after.cpu.registers.get rd = transfer.extended first := by
  -- The kind alone decides how much is fetched and whether a sign is spread.
  have fetched : (loadHalfKind kind (core.cpu.effective addressing.shifted)).perform core =
      (.ok (transfer.extended first), core) := by
    cases kind with
    | unsignedHalf =>
      cases transfers
      rw [loadHalfKind, loadHalf, perform_bind, perform_load silent held]
      rfl
    | signedByte =>
      cases transfers
      have spread := Bits.signExtend_setWidth (v := 32) (first.setWidth 8) (by decide) (by decide)
      rw [loadHalfKind, loadByte, perform_bind, perform_load silent held]
      exact congrArg (fun loaded => (Except.ok loaded, core)) spread
    | signedHalf =>
      cases transfers
      have spread := Bits.signExtend_setWidth (v := 32) (first.setWidth 16) (by decide) (by decide)
      rw [loadHalfKind, loadHalf, perform_bind, perform_load silent held]
      exact congrArg (fun loaded => (Except.ok loaded, core)) spread
  rw [halfTransfer, perform_bind, perform_resolvePlain (by omega) offset]
  dsimp only
  rw [perform_bind, fetched]
  exact exists_loaded base _ _

theorem exists_loaded_pair {next : Fin 16} {addressing : Addressing PlainOffset}
    (pair : next.val = rd.val + 1) (base : addressing.base = rn)
    (offset : ∀ number ∈ addressing.offset.register?, number < 16) {first second : Word}
    (held : core.bus.memory.HoldsWords (core.cpu.effective addressing.shifted) [first, second]) :
    ∃ after, (doubleTransfer .load rd addressing).perform core = (.ok (), after) ∧
      after.cpu.registers.get rd = first ∧ after.cpu.registers.get next = second := by
  obtain ⟨low, high, -⟩ := held
  have apart : next ≠ rd := by
    rintro rfl
    omega
  rw [doubleTransfer, perform_bind, perform_resolvePlain (by omega) offset]
  dsimp only
  rw [perform_bind, perform_loadWord silent low]
  dsimp only
  rw [perform_bind, perform_loadWord silent high]
  dsimp only
  -- The base is updated first, so that the pair wins if the base is in it.
  rw [perform_bind, perform_updateBase_of base]
  dsimp only
  rw [perform_bind, perform_writeRegister, ← pair]
  dsimp only
  rw [perform_writeRegister]
  exact ⟨_, rfl, by simp [Registers.get_set, apart], by simp [Registers.get_set]⟩

end Loads

section Transfers

variable {instruction : Instruction} {transfer : Transfer}

/-- A performed store has put the registers at the effective address and then updated the base. -/
theorem exists_puts (bounds : instruction.WithinBounds)
    (transfers : instruction.transfer? = some transfer) (stores : transfer.direction = .store)
    (silent : core.bus.registry.subscriptions = []) {raw : Word}
    (performed : (performInstruction raw instruction).perform core = (.ok (), reached)) :
    ∃ (written : Memory) (rn : Fin 16), transfer.addressing.base = rn ∧
      core.bus.memory.Puts transfer.width (core.cpu.effective transfer.addressing)
        (core.cpu.sent transfer.rd) (core.cpu.sent (transfer.rd + 1)) written ∧
      reached = { core with bus.memory := written }.rebasedBy rn transfer.addressing
        (core.cpu.movedBase transfer.addressing) := by
  have registers := bounds.registers_lt
  cases instruction with
  | singleTransfer direction quantity number addressing =>
    obtain ⟨⟨rd, rfl⟩, ⟨rn, base⟩, offset⟩ := Instruction.exists_fin_of_transfer registers
    cases quantity with
    | byte | word =>
      cases transfers
      cases stores
      obtain ⟨written, same, stored⟩ := exists_puts_of_single silent base offset performed
      rw [← Cpu.sent_eq_operand] at stored
      exact ⟨written, rn, base, stored, same⟩
  | halfTransfer direction kind number addressing =>
    obtain ⟨⟨rd, rfl⟩, ⟨rn, base⟩, offset⟩ := Instruction.exists_fin_of_transfer registers
    cases kind with
    | unsignedHalf =>
      cases transfers
      cases stores
      obtain ⟨written, same, stored⟩ := exists_puts_of_half silent base offset performed
      rw [← Cpu.sent_eq_operand] at stored
      exact ⟨written, rn, base, stored, same⟩
    | signedByte | signedHalf =>
      -- There are no signed stores.
      have plain := bounds.plainHalves
      cases transfers
      cases stores
      cases plain
  | doubleTransfer direction number addressing =>
    obtain ⟨rd, next, rn, rfl, pair, below, base, offset⟩ := bounds.exists_fin_of_pair
    cases transfers
    cases stores
    obtain ⟨written, same, stored⟩ := exists_puts_of_double silent pair base offset performed
    -- Neither register of a pair is r15.
    have sent (register : Fin 16) (low : register.val < 15) :
        core.cpu.registers.get register = core.cpu.sent register := by
      have other : register.val ≠ Registers.pcNumber := by
        rw [Registers.pcNumber]
        omega
      rw [Cpu.sent_eq_operand, Registers.operand_of_ne _ other]
    rw [sent rd (by omega), sent next (by omega), pair] at stored
    exact ⟨written, rn, base, stored, same⟩
  | _ => cases transfers

/-- A load finds what memory holds at its effective address. -/
theorem exists_performed_load (bounds : instruction.WithinBounds)
    (transfers : instruction.transfer? = some transfer) (loads : transfer.direction = .load)
    (silent : core.bus.registry.subscriptions = []) (raw : Word) {first second : Word}
    (held : core.bus.memory.Holds transfer.width (core.cpu.effective transfer.addressing)
      first second) :
    ∃ after, (performInstruction raw instruction).perform core = (.ok (), after) ∧
      after.cpu.registers.get? transfer.rd = some (transfer.extended first) ∧
      (transfer.width = .dword → after.cpu.registers.get? (transfer.rd + 1) = some second) := by
  have registers := bounds.registers_lt
  have found (after : Core) (register : Fin 16) :
      after.cpu.registers.get? register = some (after.cpu.registers.get register) :=
    Registers.get?_of_lt _ register.isLt
  cases instruction with
  | singleTransfer direction quantity number addressing =>
    obtain ⟨⟨rd, rfl⟩, ⟨rn, base⟩, offset⟩ := Instruction.exists_fin_of_transfer registers
    obtain ⟨rfl, same, narrow⟩ : direction = transfer.direction ∧ transfer.rd = rd ∧
        transfer.width ≠ .dword := by
      cases quantity <;> cases transfers <;> simp
    rw [loads] at transfers ⊢
    obtain ⟨after, performed, loaded⟩ := exists_loaded_single silent base offset transfers held
    refine ⟨after, performed, ?_, fun double => absurd double narrow⟩
    rw [same]
    exact (found after rd).trans (congrArg some loaded)
  | halfTransfer direction kind number addressing =>
    obtain ⟨⟨rd, rfl⟩, ⟨rn, base⟩, offset⟩ := Instruction.exists_fin_of_transfer registers
    obtain ⟨rfl, same, narrow⟩ : direction = transfer.direction ∧ transfer.rd = rd ∧
        transfer.width ≠ .dword := by
      cases kind <;> cases transfers <;> simp
    rw [loads] at transfers ⊢
    obtain ⟨after, performed, loaded⟩ := exists_loaded_half silent base offset transfers held
    refine ⟨after, performed, ?_, fun double => absurd double narrow⟩
    rw [same]
    exact (found after rd).trans (congrArg some loaded)
  | doubleTransfer direction number addressing =>
    obtain ⟨rd, next, rn, rfl, pair, below, base, offset⟩ := bounds.exists_fin_of_pair
    cases transfers
    cases loads
    obtain ⟨after, performed, low, high⟩ := exists_loaded_pair silent pair base offset held
    refine ⟨after, performed, (found after rd).trans (congrArg some low), fun _ => ?_⟩
    rw [← pair]
    exact (found after next).trans (congrArg some high)
  | _ => cases transfers

end Transfers

section Execution

/-- What a store leaves behind. -/
structure Stored (transfer : Transfer) (core reached : Core) : Prop where
  /-- The base moves if it is asked to, or if the transfer is indexed afterwards. -/
  registers : ∀ number : Fin 16, reached.cpu.registers.get number =
    if number.val = transfer.addressing.base ∧
        (transfer.addressing.writeBack = true ∨ transfer.addressing.indexing = .post) then
      core.cpu.movedBase transfer.addressing
    else core.cpu.registers.get number
  status : reached.cpu.status = core.cpu.status
  saved : reached.cpu.saved = core.cpu.saved
  memory : Memory.ChangedIn
    (Memory.Occupied transfer.width (core.cpu.effective transfer.addressing))
    core.bus.memory reached.bus.memory
  bus : reached.bus = { core.bus with memory := reached.bus.memory }

theorem stored_of_puts {transfer : Transfer} {written : Memory} {rn : Fin 16} {first second : Word}
    (base : transfer.addressing.base = rn)
    (puts : core.bus.memory.Puts transfer.width (core.cpu.effective transfer.addressing) first
      second written) :
    Stored transfer core ({ core with bus.memory := written }.rebasedBy rn transfer.addressing
      (core.cpu.movedBase transfer.addressing)) where
  registers number := by
    rw [rebasedBy, Registers.get_rebased, base]
    simp only [Fin.ext_iff, Addressing.updatesBase, Bool.or_eq_true, beq_iff_eq]
  status := rfl
  saved := rfl
  memory := puts.changedIn
  bus := rfl

/--
If a decoded store succeeds and nobody listens to the bus, its base has moved if it is asked to, no
other register is different, and memory has changed only where something was stored. Every decoded
load of the same width that reaches the address, from whatever registers and by whatever addressing,
succeeds as long as memory stays so, and brings the stored register or its low part. The register
counts with the value that it had before the store, and r15 with a word more.
-/
theorem loads_bring_back_what_was_stored {word : Word} {opcode : Opcode} {transfer : Transfer}
    {outcome : Bool} (decoded : Opcode.decode word = .ok opcode) (always : opcode.condition = .al)
    (transfers : opcode.instruction.transfer? = some transfer) (stores : transfer.direction = .store)
    (silent : core.bus.registry.subscriptions = [])
    (executed : (execute opcode).perform core = (.ok outcome, reached)) :
    Stored transfer core reached ∧
    ∀ {loading : Word} {load : Opcode} {back : Transfer},
      Opcode.decode loading = .ok load → load.condition = .al →
      load.instruction.transfer? = some back → back.direction = .load →
      back.width = transfer.width →
      ∀ later : Core, later.bus.registry.subscriptions = [] →
        later.bus.memory = reached.bus.memory →
        later.cpu.effective back.addressing = core.cpu.effective transfer.addressing →
        ∃ after, (execute load).perform later = (.ok load.instruction.targetsPc, after) ∧
          after.cpu.registers.get? back.rd = some (back.extended (core.cpu.sent transfer.rd)) ∧
          (transfer.width = .dword →
            after.cpu.registers.get? (back.rd + 1) = some (core.cpu.sent (transfer.rd + 1))) := by
  have bounds := Opcode.withinBounds_of_decode decoded
  have performed : (performInstruction opcode.raw opcode.instruction).perform core =
      (.ok (), reached) := by
    rw [perform_execute, always] at executed
    dsimp only [Status.passes] at executed
    split at executed
    · next stored =>
      cases executed
      exact stored
    · cases executed
  obtain ⟨written, rn, base, puts, rfl⟩ := exists_puts bounds transfers stores silent performed
  refine ⟨stored_of_puts base puts, ?_⟩
  intro loading load back loadDecoded loadAlways loadTransfers loads width later quiet memory reaches
  have loadBounds := Opcode.withinBounds_of_decode loadDecoded
  -- What was put there is there for the load, which may be another instruction at another time.
  have held : later.bus.memory.Holds back.width (later.cpu.effective back.addressing)
      (core.cpu.sent transfer.rd) (core.cpu.sent (transfer.rd + 1)) := by
    rw [memory, reaches, width]
    exact puts.holds
  obtain ⟨after, loaded, first, second⟩ :=
    exists_performed_load loadBounds loadTransfers loads quiet load.raw held
  have passes : later.cpu.status.passes load.condition = some true := by
    rw [loadAlways]
    rfl
  refine ⟨after, execute_of_performed loadBounds passes loaded, first, fun double => ?_⟩
  exact second (width.trans double)

/-- Every register holds a negative byte, in a memory of as many bytes as there are. -/
def negatives : Core where
  cpu := { Cpu.zeroed with
    registers := ⟨.ofFn fun number => BitVec.ofNat 32 (0xF0 + number.val)⟩ }
  bus := .ofMemory (.blank 0x100 4)

/--
`STRB r4, [r4], -r4, ASR #1` stores the low byte of its base, which it halves afterwards.
`LDRSB r0, [r4, r4]` adds the halves to find the byte, and spreads its sign.
-/
theorem byte_of_the_base_behind_its_halves :
    ∃ stored loaded : Core,
      (execute ⟨.singleTransfer .store .byte 4 ⟨4, .register 1 .asr 4, .post, .down, false⟩, .al,
          0xE64440C4⟩).perform negatives = (.ok false, stored) ∧
      stored.cpu.registers.get 4 = 0x7A ∧ stored.cpu.registers.get 5 = 0xF5 ∧
      (execute ⟨.halfTransfer .load .signedByte 0 ⟨4, .register 4, .pre, .up, false⟩, .al,
          0xE19400D4⟩).perform stored = (.ok false, loaded) ∧
      loaded.cpu.registers.get? 0 = some 0xFFFFFFF4 := by
  have stores : Opcode.decode 0xE64440C4 = .ok ⟨.singleTransfer .store .byte 4
    ⟨4, .register 1 .asr 4, .post, .down, false⟩, .al, 0xE64440C4⟩ := rfl
  have loads : Opcode.decode 0xE19400D4 = .ok ⟨.halfTransfer .load .signedByte 0
    ⟨4, .register 4, .pre, .up, false⟩, .al, 0xE19400D4⟩ := rfl
  obtain ⟨stored, executed⟩ : ∃ stored, (execute ⟨.singleTransfer .store .byte 4
      ⟨4, .register 1 .asr 4, .post, .down, false⟩, .al, 0xE64440C4⟩).perform negatives =
        (.ok false, stored) := ⟨_, rfl⟩
  obtain ⟨left, back⟩ := loads_bring_back_what_was_stored stores rfl rfl rfl rfl executed
  have halved : stored.cpu.registers.get 4 = 0x7A := by
    rw [left.registers]
    decide
  have kept : stored.cpu.registers.get 5 = 0xF5 := by
    rw [left.registers]
    decide
  have quiet : stored.bus.registry.subscriptions = [] := by
    rw [left.bus]
    rfl
  -- Both halves of the address are the register that the store has left.
  have reaches : stored.cpu.effective ⟨4, .register 0 .lsl 4, .pre, .up, false⟩ = 0xF4 := by
    have found : stored.cpu.registers.get? 4 = some 0x7A :=
      (Registers.get?_of_lt _ (by decide)).trans (congrArg some halved)
    simp only [Cpu.effective, Cpu.movedBase, Cpu.distance, found]
    rfl
  obtain ⟨loaded, fetched, brought, -⟩ := back loads rfl rfl rfl rfl stored quiet rfl reaches
  exact ⟨stored, loaded, executed, halved, kept, fetched, brought⟩

end Execution

end Core

end ArmBoard
