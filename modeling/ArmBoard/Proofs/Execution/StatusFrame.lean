import ArmBoard.Proofs.Execution.ProgramCounter
import ArmBoard.Proofs.Execution.Trait

/-!
# Who changes a status register

A status write merges a value into the current status, or into the saved status
of the mode it is executed in: the bytes that its mask selects become those of
the value, and the others stay. Apart from that, only the flags that an
instruction sets change, and no instruction that sets flags touches the saved
statuses.
-/
namespace ArmBoard

namespace Status

/-- The condition flags, from the top. -/
def flagBits : List Nat := [negativeBit, zeroBit, carryBit, overflowBit]

section Flags

variable (status : Status) {index : Nat}

theorem test_put_of_ne {flag : Nat} (other : index ≠ flag) (inside : flag < 32) (on : Bool) :
    (status.put flag on).test index = status.test index := by
  rw [test_put _ _ _ _ inside, if_neg other.symm]

variable (negative zero carry overflow : Bool)

theorem test_put_threeFlags (unlisted : index ∉ [negativeBit, zeroBit, carryBit]) :
    (((status.put negativeBit negative).put zeroBit zero).put carryBit carry).test index =
      status.test index := by
  simp only [List.mem_cons, List.not_mem_nil, or_false, not_or] at unlisted
  obtain ⟨noNegative, noZero, noCarry⟩ := unlisted
  rw [test_put_of_ne _ noCarry (by decide), test_put_of_ne _ noZero (by decide),
    test_put_of_ne _ noNegative (by decide)]

theorem test_put_flags (unlisted : index ∉ flagBits) :
    ((((status.put negativeBit negative).put zeroBit zero).put carryBit carry).put overflowBit
      overflow).test index = status.test index := by
  have others : index ∉ [negativeBit, zeroBit, carryBit] := fun listed =>
    unlisted (List.mem_append_left [overflowBit] listed)
  have noOverflow : index ≠ overflowBit := by
    rintro rfl
    exact unlisted (by decide)
  rw [test_put_of_ne _ noOverflow (by decide), test_put_threeFlags status _ _ _ others]

end Flags

section Merging

variable (fields : Word) {index : Nat}

/-- The bits of one byte, which a set bit of the field mask adds to the byte mask. -/
theorem getLsbD_byte (position : Nat) (bound : index < 32) :
    (0xFF#32 <<< (8 * position)).getLsbD index = decide (index / 8 = position) := by
  have ones : (0xFF#32).getLsbD (index - 8 * position) = decide (index - 8 * position < 8) := by
    rw [BitVec.getLsbD_ofNat, show 0xFF = 2 ^ 8 - 1 from rfl, Nat.testBit_two_pow_sub_one]
    simp only [Bool.and_eq_right_iff_imp, decide_eq_true_eq]
    omega
  rw [BitVec.getLsbD_shiftLeft, ones, Bool.eq_iff_iff]
  simp only [bound, decide_true, Bool.true_and, Bool.and_eq_true, Bool.not_eq_true',
    decide_eq_false_iff_not, decide_eq_true_eq]
  omega

/-- By induction on the number of bytes that were looked at. -/
theorem test_byteMask_upTo (count : Nat) (bound : index < 32) :
    Bits.test ((List.range count).foldl (fun mask position =>
        if Bits.test fields position then mask ||| (0xFF#32 <<< (8 * position)) else mask) 0)
        index =
      (decide (index / 8 < count) && Bits.test fields (index / 8)) := by
  induction count with
  | zero => simp [Bits.test]
  | succ count ih =>
    rw [List.range_succ, List.foldl_append, List.foldl_cons, List.foldl_nil]
    -- Each byte has one position, and what was looked at before knows nothing of the last one.
    by_cases here : index / 8 = count
    · subst here
      simp only [Nat.lt_irrefl, decide_false, Bool.false_and] at ih
      split
      · next set =>
        rw [Bits.test, BitVec.getLsbD_or, getLsbD_byte _ bound, set]
        simp
      · next clear =>
        rw [Bool.not_eq_true] at clear
        rw [clear, Bool.and_false]
        exact ih
    · have before : index / 8 < count + 1 ↔ index / 8 < count := by omega
      rw [decide_eq_decide.mpr before, ← ih]
      split
      · rw [Bits.test, BitVec.getLsbD_or, getLsbD_byte _ bound, decide_eq_false here, Bool.or_false]
        rfl
      · rfl

/-- A bit of the byte mask is the bit of the field mask that stands for its byte. -/
theorem test_byteMask (bound : index < 32) :
    Bits.test (byteMask fields) index = Bits.test fields (index / 8) := by
  have inside : index / 8 < 4 := by omega
  rw [byteMask, test_byteMask_upTo fields 4 bound, decide_eq_true inside, Bool.true_and]

/-- Merging takes over the selected bytes and leaves the others. -/
theorem test_merge (status : Status) (value : Word) (bound : index < 32) :
    (status.merge fields value).test index =
      if Bits.test fields (index / 8) then Bits.test value index else status.test index := by
  have masked := test_byteMask fields bound
  simp only [Bits.test] at masked
  simp only [test, merge, Bits.test, BitVec.getLsbD_or, BitVec.getLsbD_and, BitVec.getLsbD_not,
    masked, bound, decide_true, Bool.true_and]
  by_cases selected : fields.getLsbD (index / 8) = true <;> simp [selected]

end Merging

/-- There are no bits above the topmost. -/
theorem test_of_ge (status : Status) {index : Nat} (beyond : 32 ≤ index) :
    status.test index = false := BitVec.getLsbD_of_ge _ _ beyond

theorem eq_of_test {first second : Status}
    (same : ∀ index, first.test index = second.test index) : first = second := by
  have bits : first.bits = second.bits := BitVec.eq_of_getLsbD_eq fun index _ => same index
  cases first
  exact congrArg Status.mk bits

end Status

/-- The saved status in use, which the mode selects. -/
def Status.slot (status : Status) : Fin 32 := ⟨status.mode.toNat, status.mode_lt⟩

/-- The saved statuses with a value merged into one of them. -/
def SavedStatuses.merged (saved : SavedStatuses) (slot : Fin 32) (fields value : Word) :
    SavedStatuses :=
  ⟨saved.cells.set slot (saved.cells[slot].merge fields value)⟩

theorem SavedStatuses.getElem_merged (saved : SavedStatuses) (slot other : Fin 32)
    (fields value : Word) :
    (saved.merged slot fields value).cells[other] =
      if other = slot then saved.cells[other].merge fields value else saved.cells[other] := by
  by_cases here : other = slot
  · simp [merged, here]
  · have apart : slot.val ≠ other.val := fun same => here (Fin.ext same.symm)
    simp [merged, here, apart]

/-- What a status write copies; there is nothing in a register that does not exist. -/
def StatusSource.value? (registers : Registers) : StatusSource → Option Word
  | .immediate base rotate => some (base.rotateRight (rotate * 2))
  | .register number => registers.get? number

namespace Instruction

/-- The flags that an instruction sets. A plain multiplication keeps the overflow. -/
def flags : Instruction → List Nat
  | dataProcessing _ true _ _ _ | multiplyLong _ true _ _ _ _ => Status.flagBits
  | multiply _ true _ _ _ _ => [Status.negativeBit, Status.zeroBit, Status.carryBit]
  | _ => []

/--
The instruction writes a status register of this kind, its mask selects the byte of this bit, and
the bit is the one in its operand.
-/
def Copies (instruction : Instruction) (kind : StatusKind) (registers : Registers) (index : Nat)
    (bit : Bool) : Prop :=
  ∃ source fields value, instruction = .statusWrite kind source fields ∧
    source.value? registers = some value ∧ Bits.test fields (index / 8) = true ∧
    bit = Bits.test value index

theorem flags_subset (instruction : Instruction) : instruction.flags ⊆ Status.flagBits := by
  unfold flags
  split <;> decide

theorem le_of_mem_flags {instruction : Instruction} {index : Nat}
    (listed : index ∈ instruction.flags) : 28 ≤ index := by
  have all : ∀ flag ∈ Status.flagBits, 28 ≤ flag := by decide
  exact all index (instruction.flags_subset listed)

theorem SetsFlags.test_eq {instruction : Instruction} {update : Status → Status}
    (sets : instruction.SetsFlags update) (status : Status) {index : Nat}
    (unlisted : index ∉ instruction.flags) : (update status).test index = status.test index := by
  cases sets with
  | dataProcessing | multiplyLong => exact status.test_put_flags _ _ _ _ unlisted
  | multiply => exact status.test_put_threeFlags _ _ _ unlisted

end Instruction

namespace Core

open ArmBoard.Action

/-- The saved statuses are left alone, and so are all bits of the status but the listed ones. -/
structure Spares (flags : List Nat) (core reached : Core) : Prop where
  saved : reached.cpu.saved = core.cpu.saved
  status : ∀ index, index ∉ flags → reached.cpu.status.test index = core.cpu.status.test index

variable {flags : List Nat} {core reached : Core}

/-- What leaves the whole status alone spares all of its bits. -/
theorem Spares.of_eq (status : reached.cpu.status = core.cpu.status)
    (saved : reached.cpu.saved = core.cpu.saved) : Spares flags core reached := by
  refine ⟨saved, fun index _ => ?_⟩
  rw [status]

def sparing (flags : List Nat) : Conduct Core where
  admits _ := True
  keeps := Spares flags
  refl _ := .of_eq rfl rfl
  trans first second :=
    ⟨second.saved.trans first.saved,
      fun index unlisted => (second.status index unlisted).trans (first.status index unlisted)⟩

theorem onBus_spares {α : Type} (action : Action Bus α) :
    (onBus action).Follows (sparing flags) False :=
  .onPart (fun _ => trivial) fun _ _ => .of_eq rfl rfl

theorem writeRegister_spares (number : Nat) (value : Word) :
    (writeRegister number value).Follows (sparing flags) False := by
  refine .changeOr (fun _ => trivial) (.inr fun {core next} updated => ?_)
  split at updated
  · cases updated
    exact .of_eq rfl rfl
  · cases updated

/-- Only status writes and the setting of flags can do otherwise. -/
def sparingTrait (flags : List Nat) : QuietTrait where
  holds action := action.Follows (sparing flags) False
  pure := .pure
  fail _ := .fail trivial
  bind := .bind
  readRegister _ := .ask fun _ => trivial
  writeRegister := writeRegister_spares
  pc := .ask fun _ => trivial
  setPc _ := .change (.inr fun _ => .of_eq rfl rfl)
  status := .ask fun _ => trivial
  savedStatus := .ask fun _ => trivial
  load _ _ := onBus_spares _
  store _ _ _ := onBus_spares _

theorem updateStatus_spares {update : Status → Status}
    (spared : ∀ status index, index ∉ flags → (update status).test index = status.test index) :
    (updateStatus update).Follows (sparing flags) False where
  faulted performed := by cases performed
  returned {core reached _} performed := by
    cases performed
    exact .inr ⟨rfl, spared core.cpu.status⟩

variable {opcode : Opcode} {outcome : Except Fault Bool}

/-- An opcode that is no status write spares all but the flags that it sets. -/
theorem execute_spares
    (quiet : ∀ kind source fields, opcode.instruction ≠ .statusWrite kind source fields)
    (executed : (execute opcode).perform core = (outcome, reached)) :
    Spares opcode.instruction.flags core reached := by
  have performed := (sparingTrait opcode.instruction.flags).performInstruction_holds opcode.raw
    opcode.instruction
    (fun update sets => updateStatus_spares fun status _ unlisted => sets.test_eq status unlisted)
    (fun kind source fields same => absurd same (quiet kind source fields))
  have spares := (sparingTrait opcode.instruction.flags).execute_holds performed
  cases outcome with
  | error fault => exact (spares.faulted executed).2
  | ok branched => exact (spares.returned executed).resolve_left id

/-- The core with a value merged into a status register. -/
def merged (core : Core) (kind : StatusKind) (fields value : Word) : Core :=
  match kind with
  | .current => { core with cpu.status := core.cpu.status.merge fields value }
  | .saved => { core with cpu.saved := core.cpu.saved.merged core.cpu.status.slot fields value }

theorem saved_merged (fields value : Word) (slot : Fin 32) :
    (core.merged .saved fields value).cpu.saved.cells[slot] =
      if slot = core.cpu.status.slot then core.cpu.saved.cells[slot].merge fields value
      else core.cpu.saved.cells[slot] :=
  SavedStatuses.getElem_merged _ _ _ _ _

theorem perform_writeStatus {kind : StatusKind} {source : StatusSource} {fields value : Word}
    (known : source.value? core.cpu.registers = some value) :
    (writeStatus kind source fields).perform core = (.ok (), core.merged kind fields value) := by
  have read : (statusValue source).perform core = (.ok value, core) := by
    cases source with
    | immediate base rotate =>
      cases known
      rfl
    | register number =>
      rw [StatusSource.value?] at known
      rw [statusValue, readRegister, perform_ask, known]
  rw [writeStatus, perform_bind, read]
  cases kind with
  | current => rfl
  | saved =>
    have inside := core.cpu.status.mode_lt
    have found : core.cpu.savedStatus = .ok core.cpu.saved.cells[core.cpu.status.mode.toNat] := by
      rw [Cpu.savedStatus, SavedStatuses.get, dif_pos inside]
    have set (status : Status) : (setSavedStatus status).perform core =
        (.ok (), { core with
          cpu.saved.cells := core.cpu.saved.cells.set core.cpu.status.mode.toNat status }) := by
      simp only [setSavedStatus, perform, changeOr, Cpu.setSavedStatus, SavedStatuses.set,
        dif_pos inside, Except.map]
    dsimp only [mergeStatus]
    rw [perform_bind, savedStatus, perform_ask, found]
    exact set _

/-- A status write succeeds, if its condition passes, and merges its operand. -/
theorem execute_statusWrite {kind : StatusKind} {source : StatusSource} {fields value : Word}
    (writes : opcode.instruction = .statusWrite kind source fields)
    (known : source.value? core.cpu.registers = some value)
    (passes : core.cpu.status.passes opcode.condition = some true) :
    (execute opcode).perform core = (.ok false, core.merged kind fields value) := by
  rw [perform_execute, passes, writes]
  dsimp only
  rw [performInstruction, perform_writeStatus known]
  have same : (core.merged kind fields value).cpu.registers = core.cpu.registers := by
    cases kind <;> rfl
  simp [Instruction.targetsPc, same]

/-- Where a bit of the current status comes from and where those of the saved ones come from. -/
structure StatusFrame (opcode : Opcode) (core reached : Core) : Prop where
  /-- Below the flags, only a write of the current status changes bits. -/
  below : ∀ index < 28, reached.cpu.status.test index ≠ core.cpu.status.test index →
    opcode.instruction.Copies .current core.cpu.registers index (reached.cpu.status.test index)
  /-- Flags are written as well, or set by an instruction that sets this very flag. -/
  above : ∀ index, 28 ≤ index → reached.cpu.status.test index ≠ core.cpu.status.test index →
    opcode.instruction.Copies .current core.cpu.registers index (reached.cpu.status.test index) ∨
      index ∈ opcode.instruction.flags
  /-- A saved status changes by a write, and only that of the mode that was found. -/
  saved : ∀ (slot : Fin 32) (index : Nat),
    reached.cpu.saved.cells[slot].test index ≠ core.cpu.saved.cells[slot].test index →
      slot.val = Bits.field core.cpu.status.bits 0 4 ∧
        opcode.instruction.Copies .saved core.cpu.registers index
          (reached.cpu.saved.cells[slot].test index)
  /-- A write whose condition passes takes over all bits of the bytes that it selects. -/
  written : ∀ kind source fields, opcode.instruction = .statusWrite kind source fields →
    core.cpu.status.passes opcode.condition = some true →
      ∃ value, source.value? core.cpu.registers = some value ∧
        ∀ index < 32, Bits.test fields (index / 8) = true →
          match kind with
          | .current => reached.cpu.status.test index = Bits.test value index
          | .saved => ∀ slot : Fin 32, slot.val = Bits.field core.cpu.status.bits 0 4 →
              reached.cpu.saved.cells[slot].test index = Bits.test value index
  /-- Whatever writes no status and sets no flags leaves all status registers as they are. -/
  quiet : (∀ kind source fields, opcode.instruction ≠ .statusWrite kind source fields) →
    opcode.instruction.flags = [] →
      reached.cpu.status = core.cpu.status ∧ reached.cpu.saved = core.cpu.saved

theorem Spares.statusFrame (spares : Spares opcode.instruction.flags core reached)
    (other : ∀ kind source fields, opcode.instruction ≠ .statusWrite kind source fields) :
    StatusFrame opcode core reached where
  below index bound changed := by
    refine absurd (spares.status index fun listed => ?_) changed
    have above := Instruction.le_of_mem_flags listed
    omega
  above index _ changed := by
    by_cases listed : index ∈ opcode.instruction.flags
    · exact .inr listed
    · exact absurd (spares.status index listed) changed
  saved slot index changed := by
    rw [spares.saved] at changed
    exact absurd rfl changed
  written kind source fields writes _ := absurd writes (other kind source fields)
  quiet _ silent := by
    refine ⟨Status.eq_of_test fun index => spares.status index ?_, spares.saved⟩
    rw [silent]
    exact List.not_mem_nil

section Writes

variable {source : StatusSource} {fields value : Word}

/-- A bit that changed is one that the mask selects, and it is that of the operand. -/
theorem copies_of_changed {kind : StatusKind} {old : Status} {index : Nat} {bit : Bool}
    (writes : opcode.instruction = .statusWrite kind source fields)
    (known : source.value? core.cpu.registers = some value)
    (taken : (old.merge fields value).test index = bit) (changed : bit ≠ old.test index) :
    opcode.instruction.Copies kind core.cpu.registers index bit := by
  subst taken
  rcases Nat.lt_or_ge index 32 with inside | beyond
  · rw [Status.test_merge fields old value inside] at changed ⊢
    split at changed
    · next selected =>
      rw [if_pos selected]
      exact ⟨source, fields, value, writes, known, selected, rfl⟩
    · exact absurd rfl changed
  · rw [Status.test_of_ge _ beyond, Status.test_of_ge _ beyond] at changed
    exact absurd rfl changed

theorem statusFrame_refl
    (idle : core.cpu.status.passes opcode.condition ≠ some true) :
    StatusFrame opcode core core where
  below _ _ changed := absurd rfl changed
  above _ _ changed := absurd rfl changed
  saved _ _ changed := absurd rfl changed
  written _ _ _ _ passes := absurd passes idle
  quiet _ _ := ⟨rfl, rfl⟩

theorem statusFrame_merged_current
    (writes : opcode.instruction = .statusWrite .current source fields)
    (known : source.value? core.cpu.registers = some value) :
    StatusFrame opcode core (core.merged .current fields value) where
  below index _ changed := copies_of_changed writes known rfl changed
  above index _ changed := .inl (copies_of_changed writes known rfl changed)
  saved _ _ changed := absurd rfl changed
  written kind other otherFields same _ := by
    rw [writes] at same
    cases same
    refine ⟨value, known, fun index inside selected => ?_⟩
    exact (Status.test_merge fields _ value inside).trans (if_pos selected)
  quiet other _ := absurd writes (other _ _ _)

theorem statusFrame_merged_saved
    (writes : opcode.instruction = .statusWrite .saved source fields)
    (known : source.value? core.cpu.registers = some value) :
    StatusFrame opcode core (core.merged .saved fields value) where
  below _ _ changed := absurd rfl changed
  above _ _ changed := absurd rfl changed
  saved slot index changed := by
    rw [saved_merged] at changed ⊢
    split at changed
    · next here =>
      rw [if_pos here]
      exact ⟨congrArg Fin.val here, copies_of_changed writes known rfl changed⟩
    · exact absurd rfl changed
  written kind other otherFields same _ := by
    rw [writes] at same
    cases same
    refine ⟨value, known, fun index inside selected slot here => ?_⟩
    have current : slot = core.cpu.status.slot := Fin.ext here
    rw [saved_merged, if_pos current, Status.test_merge fields _ value inside, if_pos selected]
  quiet other _ := absurd writes (other _ _ _)

end Writes

/-- In every state, and whether it stops with a fault or not, a decoded opcode keeps the frame. -/
theorem status_registers_change_only_by_writes_and_flags {word : Word}
    (decoded : Opcode.decode word = .ok opcode)
    (executed : (execute opcode).perform core = (outcome, reached)) :
    StatusFrame opcode core reached := by
  have bounds := Opcode.withinBounds_of_decode decoded
  -- A status write is computed; for everything else it suffices what its steps leave alone.
  by_cases writes : ∃ kind source fields, opcode.instruction = .statusWrite kind source fields
  · obtain ⟨kind, source, fields, writes⟩ := writes
    -- The operand is a register that exists.
    obtain ⟨value, known⟩ : ∃ value, source.value? core.cpu.registers = some value := by
      cases source with
      | immediate base rotate => exact ⟨_, rfl⟩
      | register number =>
        have bound := bounds.registers_lt number
          (by simp [writes, Instruction.registers, StatusSource.registers])
        exact ⟨_, Registers.get?_of_lt _ bound⟩
    by_cases passes : core.cpu.status.passes opcode.condition = some true
    · rw [execute_statusWrite writes known passes] at executed
      obtain ⟨_, rfl⟩ := Prod.mk.inj executed
      cases kind with
      | current => exact statusFrame_merged_current writes known
      | saved => exact statusFrame_merged_saved writes known
    · have stays : reached = core := by
        rw [perform_execute] at executed
        split at executed
        · exact (Prod.mk.inj executed).2.symm
        · exact (Prod.mk.inj executed).2.symm
        · next passed => exact absurd passed passes
      rw [stays]
      exact statusFrame_refl passes
  · have other (kind : StatusKind) (source : StatusSource) (fields : Word)
        (same : opcode.instruction = .statusWrite kind source fields) : False :=
      writes ⟨kind, source, fields, same⟩
    exact (execute_spares other executed).statusFrame other

/-- The negative flag and mode 31, and a word in r0 that differs in all its bytes. -/
def negativeInMode31 : Core where
  cpu := { Cpu.zeroed with
    registers := Registers.zeroed.set ⟨0, by decide⟩ 0x7FFFFF13, status := ⟨0x8000001F⟩ }
  bus := .ofMemory (.blank 0 0)

/--
A write of the lowest byte, `MSR CPSR_c, r0`, takes the mode from r0 and no flag. A write to the
saved status, `MSR SPSR_f, r0`, finds the slot of mode 31 and leaves the status alone.
-/
theorem mode_and_saved_flags_written_by_bytes :
    (∃ opcode reached, Opcode.decode 0xE121F000 = .ok opcode ∧
      (execute opcode).perform negativeInMode31 = (.ok false, reached) ∧
      reached.cpu.status.test 3 = false ∧
      opcode.instruction.Copies .current negativeInMode31.cpu.registers 3 false ∧
      reached.cpu.status.test 31 = true) ∧
    (∃ opcode reached, Opcode.decode 0xE168F000 = .ok opcode ∧
      (execute opcode).perform negativeInMode31 = (.ok false, reached) ∧
      reached.cpu.saved.cells[31].test 30 = true ∧
      opcode.instruction.Copies .saved negativeInMode31.cpu.registers 30 true ∧
      reached.cpu.status.test 3 = true) := by
  constructor
  · have decoded : Opcode.decode 0xE121F000 =
        .ok ⟨.statusWrite .current (.register 0) 1, .al, 0xE121F000⟩ := rfl
    have executed : (execute ⟨.statusWrite .current (.register 0) 1, .al, 0xE121F000⟩).perform
        negativeInMode31 = (.ok false, negativeInMode31.merged .current 1 0x7FFFFF13) := rfl
    have frame := status_registers_change_only_by_writes_and_flags decoded executed
    exact ⟨_, _, decoded, executed, rfl, frame.below 3 (by decide) (by decide), rfl⟩
  · have decoded : Opcode.decode 0xE168F000 =
        .ok ⟨.statusWrite .saved (.register 0) 8, .al, 0xE168F000⟩ := rfl
    have executed : (execute ⟨.statusWrite .saved (.register 0) 8, .al, 0xE168F000⟩).perform
        negativeInMode31 = (.ok false, negativeInMode31.merged .saved 8 0x7FFFFF13) := rfl
    have frame := status_registers_change_only_by_writes_and_flags decoded executed
    exact ⟨_, _, decoded, executed, rfl, (frame.saved 31 30 (by decide)).2, rfl⟩

end Core

end ArmBoard
