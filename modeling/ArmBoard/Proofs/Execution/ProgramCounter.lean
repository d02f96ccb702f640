import ArmBoard.Proofs.Execution.Conduct
import ArmBoard.Proofs.Decoding.Bounds

/-!
# Execution and the program counter

An instruction within bounds stops only with an illegal opcode or an access
outside memory. It writes r15 only if r15 is among its targets, and then as
the last thing it does: whenever it stops with a fault, r15 is as it was.
-/
namespace ArmBoard

/-- An illegal opcode or an access outside memory. -/
inductive Fault.Ordinary : Fault → Prop
  | illegal (opcode address : Word) (objection : Objection) :
      Ordinary (.illegal opcode address objection)
  | outOfRange (address size : Nat) : Ordinary (.outOfRange address size)

/-- The faults of executing a word: that very word is illegal, or an access leaves memory. -/
inductive Fault.RaisedBy (raw : Word) : Fault → Prop
  | illegal (objection : Objection) : RaisedBy raw (.illegal raw 0 objection)
  | outOfRange (address size : Nat) : RaisedBy raw (.outOfRange address size)

theorem Fault.RaisedBy.ordinary {raw : Word} {fault : Fault} (raised : fault.RaisedBy raw) :
    fault.Ordinary := by
  cases raised with
  | illegal => exact .illegal _ _ _
  | outOfRange => exact .outOfRange _ _

/-- The instructions that neither access memory nor branch to an address in a register. -/
def Instruction.cannotFail : Instruction → Bool
  | swap .. | branchExchange .. | halfTransfer .. | doubleTransfer .. | singleTransfer ..
  | blockTransfer .. => false
  | _ => true

namespace Registers

theorem get?_of_lt (registers : Registers) {number : Nat} (bound : number < 16) :
    registers.get? number = some (registers.get ⟨number, bound⟩) := dif_pos bound

theorem set?_of_lt (registers : Registers) {number : Nat} (bound : number < 16) (value : Word) :
    registers.set? number value = some (registers.set ⟨number, bound⟩ value) := dif_pos bound

end Registers

theorem Status.mode_lt (status : Status) : status.mode.toNat < 32 := by
  have bound := Bits.field_lt status.bits 0 4
  exact bound

namespace Core

open ArmBoard.Action

/-- Only faults raised by the given word, and r15 is left alone. -/
def steady (raw : Word) : Conduct Core where
  admits := Fault.RaisedBy raw
  keeps core reached := reached.cpu.registers.pc = core.cpu.registers.pc
  refl _ := rfl
  trans first second := second.trans first

section Reading

variable {conduct : Conduct Core} {excused : Prop} {number : Nat}

theorem readRegister_follows (bound : number < 16) :
    (readRegister number).Follows conduct excused := by
  refine .ask fun {core fault} failed => ?_
  rw [Registers.get?_of_lt _ bound] at failed
  cases failed

theorem readOperand_follows (bound : number < 16) (extraCycle : Bool) :
    (readOperand number extraCycle).Follows conduct excused := by
  unfold readOperand
  exact .bind (readRegister_follows bound) fun value => .pure _

theorem pc_follows : pc.Follows conduct excused := .ask fun failed => by cases failed

theorem status_follows : status.Follows conduct excused := .ask fun failed => by cases failed

theorem savedStatus_follows : savedStatus.Follows conduct excused := by
  -- The mode has five bits, and there is a saved status for each of its values.
  refine .ask fun {core fault} failed => ?_
  rw [Cpu.savedStatus, SavedStatuses.get, dif_pos (Status.mode_lt _)] at failed
  cases failed

theorem shiftedOperand_follows {operand : Operand}
    (bound : ∀ number ∈ operand.registers, number < 16) :
    (shiftedOperand operand).Follows conduct excused := by
  cases operand with
  | immediate base rotate => exact .bind status_follows fun status => .pure _
  | register amount kind number =>
    cases amount with
    | immediate amount =>
      have inside := bound number (by simp [Operand.registers])
      exact .bind status_follows fun status =>
        .bind (readOperand_follows inside _) fun value => .pure _
    | register amount =>
      have inside := bound number (by simp [Operand.registers])
      have amountInside := bound amount (by simp [Operand.registers])
      exact .bind status_follows fun status => .bind (readRegister_follows amountInside) fun amount =>
        .bind (readOperand_follows inside _) fun value => .pure _

theorem statusValue_follows {source : StatusSource}
    (bound : ∀ number ∈ source.registers, number < 16) :
    (statusValue source).Follows conduct excused := by
  cases source with
  | immediate base rotate => exact .pure _
  | register number => exact readRegister_follows (bound number (by simp [StatusSource.registers]))

theorem plainDistance_follows {offset : PlainOffset}
    (bound : ∀ number ∈ offset.register?, number < 16) :
    (plainDistance offset).Follows conduct excused := by
  cases offset with
  | immediate offset => exact .pure _
  | register number => exact readRegister_follows (bound number rfl)

theorem shiftedDistance_follows {offset : ShiftedOffset}
    (bound : ∀ number ∈ offset.register?, number < 16) :
    (shiftedDistance offset).Follows conduct excused := by
  cases offset with
  | immediate offset => exact .pure _
  | register amount kind number =>
    exact .bind (readRegister_follows (bound number rfl)) fun value =>
      .bind status_follows fun status => .pure _

theorem resolve_follows {offset : Type} {addressing : Addressing offset} {distance : Action Core Word}
    (bound : addressing.base < 16) (follows : distance.Follows conduct False) :
    (resolve addressing distance).Follows conduct excused :=
  .bind follows fun _ => .bind (readRegister_follows bound) fun _ => .pure _

end Reading

section Writing

/-- Writes to the processor keep what a conduct keeps, r15 apart. -/
class AllowsWrites (conduct : Conduct Core) : Prop where
  status : ∀ core status, conduct.keeps core { core with cpu.status := status }
  saved : ∀ core saved, conduct.keeps core { core with cpu.saved := saved }
  register : ∀ (core : Core) (number : Fin 16) value, number ≠ 15 →
    conduct.keeps core { core with cpu.registers := core.cpu.registers.set number value }

instance (raw : Word) : AllowsWrites (steady raw) where
  status _ _ := rfl
  saved _ _ := rfl
  register core number value other := by
    simp only [steady, Registers.pc, Registers.get_set, if_neg other]

variable {conduct : Conduct Core} [AllowsWrites conduct] {excused : Prop} {number : Nat}

theorem setStatus_follows (status : Status) : (setStatus status).Follows conduct excused :=
  .change (Or.inr fun core => AllowsWrites.status core status)

theorem setSavedStatus_follows (status : Status) :
    (setSavedStatus status).Follows conduct excused := by
  have set (core : Core) : ∃ saved, core.cpu.setSavedStatus status = .ok { core.cpu with saved } := by
    rw [Cpu.setSavedStatus, SavedStatuses.set, dif_pos (Status.mode_lt _)]
    exact ⟨_, rfl⟩
  refine .changeOr (fun {core fault} failed => ?_) (Or.inr fun {core next} updated => ?_)
  · obtain ⟨saved, written⟩ := set core
    rw [written] at failed
    cases failed
  · obtain ⟨saved, written⟩ := set core
    rw [written] at updated
    cases updated
    exact AllowsWrites.saved core saved

theorem writeRegister_follows (bound : number < 16) (apart : excused ∨ number ≠ 15) (value : Word) :
    (writeRegister number value).Follows conduct excused := by
  refine .changeOr (fun {core fault} failed => ?_) (apart.imp id fun apart {core next} updated => ?_)
  · rw [Registers.set?_of_lt _ bound] at failed
    cases failed
  · rw [Registers.set?_of_lt _ bound] at updated
    cases updated
    exact AllowsWrites.register core ⟨number, bound⟩ value fun same => apart (congrArg Fin.val same)

/-- A result may go to r15, if nothing follows. -/
theorem writeResult_follows (bound : number < 16) (value : Word) :
    (writeRegister number value).Follows conduct (number = 15) :=
  writeRegister_follows bound (Decidable.em (number = 15)) value

omit [AllowsWrites conduct] in
theorem setPc_follows (value : Word) : (setPc value).Follows conduct True := .change (Or.inl trivial)

theorem updateBase_follows {offset : Type} {addressing : Addressing offset}
    (bound : addressing.base < 16) (accepted : addressing.baseObjection? = none) (value : Word) :
    (updateBase addressing value).Follows conduct excused := by
  unfold updateBase
  split
  · next updates =>
    -- An update of r15 would have been refused.
    refine writeRegister_follows bound (Or.inr fun same => ?_) value
    simp [Addressing.baseObjection?, updates, same] at accepted
  · exact .pure _

theorem updateAndWrite_follows {offset : Type} {addressing : Addressing offset} {rd : Nat}
    (rdBound : rd < 16) (baseBound : addressing.base < 16)
    (accepted : addressing.baseObjection? = none) (newBase value : Word) :
    (do
      updateBase addressing newBase
      writeRegister rd value : Action Core Unit).Follows conduct (rd = 15) :=
  .bind (updateBase_follows baseBound accepted newBase) fun _ => writeResult_follows rdBound value

end Writing

theorem onBus_follows {raw : Word} {excused : Prop} {α : Type} {action : Action Bus α}
    (faults : ∀ {bus reached fault}, action.perform bus = (.error fault, reached) →
      fault.RaisedBy raw) :
    (onBus action).Follows (steady raw) excused :=
  .onPart faults fun _ _ => rfl

end Core

namespace Memory

variable {memory : Memory} {address : Word} {count : Nat} {fault : Fault}

theorem outOfRange_of_check (failed : memory.check address count = .error fault) :
    ∃ outside size, fault = .outOfRange outside size := by
  unfold check at failed
  split at failed
  · cases failed
  · cases failed
    exact ⟨_, _, rfl⟩

theorem outOfRange_of_read (failed : memory.read count address = .error fault) :
    ∃ outside size, fault = .outOfRange outside size := by
  unfold read at failed
  split at failed
  · next refused =>
    cases failed
    exact outOfRange_of_check refused
  · cases failed

theorem outOfRange_of_write {value : BitVec (8 * count)}
    (failed : memory.write count address value = .error fault) :
    ∃ outside size, fault = .outOfRange outside size := by
  unfold write at failed
  split at failed
  · next refused =>
    cases failed
    exact outOfRange_of_check refused
  · cases failed

end Memory

namespace Core

open ArmBoard.Action

section Accesses

variable {raw : Word} {excused : Prop}

theorem load_follows (count : Nat) (address : Word) :
    (load count address).Follows (steady raw) excused := by
  refine onBus_follows fun {bus reached fault} performed => ?_
  rw [Bus.load, perform_ofFunction] at performed
  -- The range is checked before the read is announced and again when it is made.
  split at performed
  · next refused =>
    cases performed
    obtain ⟨_, _, rfl⟩ := Memory.outOfRange_of_check refused
    exact .outOfRange _ _
  · simp only at performed
    split at performed
    · next refused =>
      cases performed
      obtain ⟨_, _, rfl⟩ := Memory.outOfRange_of_read refused
      exact .outOfRange _ _
    · cases performed

theorem store_follows (count : Nat) (address : Word) (value : BitVec (8 * count)) :
    (store count address value).Follows (steady raw) excused := by
  refine onBus_follows fun {bus reached fault} performed => ?_
  rw [Bus.store, perform_ofFunction] at performed
  split at performed
  · next refused =>
    cases performed
    obtain ⟨_, _, rfl⟩ := Memory.outOfRange_of_write refused
    exact .outOfRange _ _
  · cases performed

end Accesses

/-! Instructions that leave memory alone do no more than read and write the processor. -/
section Processor

variable {conduct : Conduct Core} [AllowsWrites conduct]

theorem operate_follows {op : AluOp} {setFlags : Bool} {rd : Nat} (bound : rd < 16) (first : Word)
    (second : Shifted) :
    (operate op setFlags rd first second).Follows conduct (rd = 15 ∧ op.isTest = false) := by
  have written (result : AluResult) :
      (if !op.isTest then writeRegister rd result.value else pure () : Action Core Unit).Follows
        conduct (rd = 15 ∧ op.isTest = false) := by
    cases test : op.isTest with
    | true => exact .pure _
    | false =>
      -- Writing the result is the last step, so it may go to r15.
      exact (writeResult_follows bound _).weaken fun same => ⟨same, rfl⟩
  refine .bind status_follows fun status => ?_
  dsimp only
  split
  · exact .bind (setStatus_follows _) fun _ => written _
  · exact written _

theorem dataProcessing_follows {op : AluOp} {setFlags : Bool} {rn rd : Nat} {operand : Operand}
    (rnBound : rn < 16) (rdBound : rd < 16) (bound : ∀ number ∈ operand.registers, number < 16) :
    (dataProcessing op setFlags rn rd operand).Follows conduct (rd = 15 ∧ op.isTest = false) := by
  refine .bind (readOperand_follows rnBound _) fun first => ?_
  refine .bind (shiftedOperand_follows bound) fun second => ?_
  exact operate_follows rdBound first second

theorem readStatus_follows {kind : StatusKind} {rd : Nat} (bound : rd < 16) (other : rd ≠ 15) :
    (readStatus kind rd).Follows conduct False := by
  unfold readStatus
  dsimp only
  split
  · exact .bind status_follows fun _ => writeRegister_follows bound (Or.inr other) _
  · exact .bind savedStatus_follows fun _ => writeRegister_follows bound (Or.inr other) _

theorem mergeStatus_follows (kind : StatusKind) (fields value : Word) :
    (mergeStatus kind fields value).Follows conduct False := by
  cases kind with
  | current => exact .bind status_follows fun _ => setStatus_follows _
  | saved => exact .bind savedStatus_follows fun _ => setSavedStatus_follows _

theorem writeStatus_follows {kind : StatusKind} {source : StatusSource} {fields : Word}
    (bound : ∀ number ∈ source.registers, number < 16) :
    (writeStatus kind source fields).Follows conduct False :=
  .bind (statusValue_follows bound) fun value => mergeStatus_follows kind fields value

theorem multiply_follows {variant : Multiplication} {setFlags : Bool} {rd rn rs rm : Nat}
    (rdBound : rd < 16) (rnBound : rn < 16) (rsBound : rs < 16) (rmBound : rm < 16)
    (other : rd ≠ 15) : (multiply variant setFlags rd rn rs rm).Follows conduct False := by
  have written (result : Word) :
      (do
        writeRegister rd result
        if setFlags then
          let old ← status
          setStatus (((old.put Status.negativeBit (Bits.test result 31)).put Status.zeroBit
            (result == 0)).put Status.carryBit (Bits.test result 0)) :
        Action Core Unit).Follows conduct False := by
    refine .bind (writeRegister_follows rdBound (Or.inr other) _) fun _ => ?_
    split
    · exact .bind status_follows fun _ => setStatus_follows _
    · exact .pure _
  refine .bind (readRegister_follows rmBound) fun multiplicand => ?_
  refine .bind (readRegister_follows rsBound) fun multiplier => ?_
  cases variant with
  | mul => exact .bind (.pure _) fun _ => written _
  | mla => exact .bind (readRegister_follows rnBound) fun _ => .bind (.pure _) fun _ => written _

theorem multiplyLong_follows {variant : LongMultiplication} {setFlags : Bool}
    {rdHi rdLo rs rm : Nat} (hiBound : rdHi < 16) (loBound : rdLo < 16) (rsBound : rs < 16)
    (rmBound : rm < 16) (hiOther : rdHi ≠ 15) (loOther : rdLo ≠ 15) :
    (multiplyLong variant setFlags rdHi rdLo rs rm).Follows conduct False := by
  have written (result : Dword) :
      (do
        writeRegister rdLo (result.setWidth 32)
        writeRegister rdHi ((result >>> 32).setWidth 32)
        if setFlags then
          let old ← status
          setStatus ((((old.put Status.negativeBit (Bits.test result 63)).put Status.zeroBit
            (result == 0)).put Status.carryBit (Bits.test (result.setWidth 32 : Word) 0)).put
            Status.overflowBit (Bits.test (result.setWidth 32 : Word) 1)) :
        Action Core Unit).Follows conduct False := by
    refine .bind (writeRegister_follows loBound (Or.inr loOther) _) fun _ => ?_
    refine .bind (writeRegister_follows hiBound (Or.inr hiOther) _) fun _ => ?_
    split
    · exact .bind status_follows fun _ => setStatus_follows _
    · exact .pure _
  refine .bind (readRegister_follows rmBound) fun multiplicand => ?_
  refine .bind (readRegister_follows rsBound) fun multiplier => ?_
  dsimp only
  split
  · refine .bind (readRegister_follows hiBound) fun high => ?_
    refine .bind (readRegister_follows loBound) fun low => ?_
    exact .bind (.pure _) fun _ => written _
  · exact .bind (.pure _) fun _ => written _

theorem byteReverse_follows {variant : ByteReversal} {rd rm : Nat} (rdBound : rd < 16)
    (rmBound : rm < 16) (other : rd ≠ 15) : (byteReverse variant rd rm).Follows conduct False :=
  .bind (readRegister_follows rmBound) fun _ => writeRegister_follows rdBound (Or.inr other) _

theorem branch_follows (link : Bool) (offset : Word) : (branch link offset).Follows conduct True := by
  refine .bind pc_follows fun here => ?_
  dsimp only
  split
  · have linked (value : Word) :
        (writeRegister Registers.lrNumber value).Follows conduct False :=
      writeRegister_follows (by decide) (Or.inr (by decide)) value
    exact .bind (linked _) fun _ => setPc_follows _
  · exact setPc_follows _

/-- An instruction within bounds that cannot fail follows any conduct that allows its writes. -/
theorem performSure_follows {instruction : Instruction} (bounds : instruction.WithinBounds)
    (sure : instruction.cannotFail = true) (raw : Word) :
    (performInstruction raw instruction).Follows conduct (instruction.targetsPc = true) := by
  obtain ⟨registers, _, _, accepted⟩ := bounds
  cases instruction with
  | dataProcessing op setFlags rn rd operand =>
    have followed : (dataProcessing op setFlags rn rd operand).Follows conduct
        (rd = 15 ∧ op.isTest = false) :=
      dataProcessing_follows (registers rn (by simp [Instruction.registers]))
        (registers rd (by simp [Instruction.registers]))
        fun number member => registers number (by simp [Instruction.registers, member])
    refine followed.weaken ?_
    rintro ⟨rfl, test⟩
    simp [Instruction.targetsPc, test]
  | statusRead kind rd =>
    have bound := registers rd (by simp [Instruction.registers])
    exact .excuse (readStatus_follows bound (Instruction.statusRead_accepted accepted))
  | statusWrite kind source fields => exact .excuse (writeStatus_follows registers)
  | multiply variant setFlags rd rn rs rm =>
    have bound (number : Nat) (member : number ∈ [rd, rn, rs, rm]) := registers number member
    exact .excuse (multiply_follows (bound rd (by simp)) (bound rn (by simp)) (bound rs (by simp))
      (bound rm (by simp)) (Instruction.multiply_accepted accepted))
  | multiplyLong variant setFlags rdHi rdLo rs rm =>
    have bound (number : Nat) (member : number ∈ [rdHi, rdLo, rs, rm]) := registers number member
    obtain ⟨hiOther, loOther⟩ := Instruction.multiplyLong_accepted accepted
    exact .excuse (multiplyLong_follows (bound rdHi (by simp)) (bound rdLo (by simp))
      (bound rs (by simp)) (bound rm (by simp)) hiOther loOther)
  | byteReverse variant rd rm =>
    have bound (number : Nat) (member : number ∈ [rd, rm]) := registers number member
    exact .excuse (byteReverse_follows (bound rd (by simp)) (bound rm (by simp))
      (Instruction.byteReverse_accepted accepted))
  | branch link offset => exact (branch_follows link offset).weaken fun _ => rfl
  | coprocessorTransfer | coprocessorOperation | coprocessorRegister | softwareInterrupt =>
    exact .pure _
  | swap | branchExchange | halfTransfer | doubleTransfer | singleTransfer | blockTransfer =>
    cases sure

end Processor

section Families

variable {raw : Word}

theorem branchExchange_follows {rm : Nat} (bound : rm < 16) :
    (branchExchange raw rm).Follows (steady raw) True := by
  refine .bind (readRegister_follows bound) fun target => ?_
  split
  · exact .fail (.illegal _)
  · exact setPc_follows _

theorem swap_follows {quantity : Quantity} {rn rd rm : Nat} (rnBound : rn < 16) (rdBound : rd < 16)
    (rmBound : rm < 16) (other : rd ≠ 15) : (swap quantity rn rd rm).Follows (steady raw) False := by
  refine .bind (readRegister_follows rnBound) fun address => ?_
  refine .bind (readRegister_follows rmBound) fun source => ?_
  cases quantity with
  | byte | word =>
    refine .bind (load_follows _ _) fun old => ?_
    refine .bind (store_follows _ _ _) fun _ => ?_
    exact writeRegister_follows rdBound (Or.inr other) _

theorem loadHalfKind_follows (kind : HalfKind) (address : Word) :
    (loadHalfKind kind address).Follows (steady raw) False := by
  cases kind <;> exact .bind (load_follows _ _) fun _ => .pure _

theorem halfTransfer_follows {direction : Direction} {kind : HalfKind} {rd : Nat}
    {addressing : Addressing PlainOffset} (rdBound : rd < 16) (baseBound : addressing.base < 16)
    (bound : ∀ number ∈ addressing.offset.register?, number < 16)
    (accepted : addressing.baseObjection? = none)
    (plain : direction = .store → kind = .unsignedHalf) :
    (halfTransfer direction kind rd addressing).Follows (steady raw) (direction = .load ∧ rd = 15) := by
  refine .bind (resolve_follows baseBound (plainDistance_follows bound)) fun (address, newBase) => ?_
  cases direction with
  | load =>
    refine .bind (loadHalfKind_follows kind address) fun value => ?_
    exact (updateAndWrite_follows rdBound baseBound accepted newBase value).weaken
      fun same => ⟨rfl, same⟩
  | store =>
    -- The other kinds of stores are not decoded.
    obtain rfl := plain rfl
    refine .bind (readOperand_follows rdBound true) fun value => ?_
    refine .bind (store_follows _ _ _) fun _ => ?_
    exact updateBase_follows baseBound accepted newBase

theorem doubleTransfer_follows {direction : Direction} {rd : Nat}
    {addressing : Addressing PlainOffset} (rdBound : rd + 1 < 15) (baseBound : addressing.base < 16)
    (bound : ∀ number ∈ addressing.offset.register?, number < 16)
    (accepted : addressing.baseObjection? = none) :
    (doubleTransfer direction rd addressing).Follows (steady raw) False := by
  refine .bind (resolve_follows baseBound (plainDistance_follows bound)) fun (address, newBase) => ?_
  -- The pair ends below r15, so neither register of it is r15.
  have first : rd < 16 := by omega
  have second : rd + 1 < 16 := by omega
  cases direction with
  | load =>
    refine .bind (load_follows _ _) fun low => ?_
    refine .bind (load_follows _ _) fun high => ?_
    refine .bind (updateBase_follows baseBound accepted newBase) fun _ => ?_
    refine .bind (writeRegister_follows first (Or.inr (by omega)) _) fun _ => ?_
    exact writeRegister_follows second (Or.inr (by omega)) _
  | store =>
    refine .bind (readRegister_follows first) fun low => ?_
    refine .bind (store_follows _ _ _) fun _ => ?_
    refine .bind (readRegister_follows second) fun high => ?_
    refine .bind (store_follows _ _ _) fun _ => ?_
    exact updateBase_follows baseBound accepted newBase

theorem moveSingle_follows {direction : Direction} {quantity : Quantity} {rd : Nat}
    {addressing : Addressing ShiftedOffset} (rdBound : rd < 16) (baseBound : addressing.base < 16)
    (accepted : addressing.baseObjection? = none) (address newBase : Word) :
    (moveSingle direction quantity rd addressing address newBase).Follows (steady raw)
      (direction = .load ∧ rd = 15) := by
  cases direction with
  | load =>
    have written (value : Word) :
        (do
          updateBase addressing newBase
          writeRegister rd value : Action Core Unit).Follows (steady raw)
            (Direction.load = .load ∧ rd = 15) :=
      (updateAndWrite_follows rdBound baseBound accepted newBase value).weaken fun same => ⟨rfl, same⟩
    cases quantity with
    | byte => exact .bind (load_follows _ _) fun _ => .bind (.pure _) fun _ => written _
    | word => exact .bind (load_follows _ _) fun _ => written _
  | store =>
    refine .bind (readOperand_follows rdBound true) fun value => ?_
    cases quantity with
    | byte | word =>
      exact .bind (store_follows _ _ _) fun _ => updateBase_follows baseBound accepted newBase

theorem singleTransfer_follows {direction : Direction} {quantity : Quantity} {rd : Nat}
    {addressing : Addressing ShiftedOffset} (rdBound : rd < 16) (baseBound : addressing.base < 16)
    (bound : ∀ number ∈ addressing.offset.register?, number < 16)
    (accepted : addressing.baseObjection? = none) :
    (singleTransfer direction quantity rd addressing).Follows (steady raw)
      (direction = .load ∧ rd = 15) := by
  refine .bind (resolve_follows baseBound (shiftedDistance_follows bound))
    fun (address, newBase) => ?_
  exact moveSingle_follows rdBound baseBound accepted address newBase

/-- Only the last register of a block can be r15, because blocks are loaded in ascending order. -/
theorem loadBlock_follows {listed : List (Fin 16)} (ascending : listed.Pairwise (· < ·))
    (address : Word) : (loadBlock listed address).Follows (steady raw) (15 ∈ listed) := by
  induction listed generalizing address with
  | nil => exact .pure _
  | cons number rest ih =>
    obtain ⟨above, ascending⟩ := List.pairwise_cons.mp ascending
    refine .bind (load_follows _ _) fun value => ?_
    by_cases last : number = 15
    · -- Nothing is listed above r15, so its load is the last step.
      have ended : rest = [] := by
        rw [List.eq_nil_iff_forall_not_mem]
        intro other member
        have beyond := above other member
        omega
      subst last ended
      exact .andReturn (writeRegister_follows (by decide) (Or.inl (by simp)) value)
    · have other : number.val ≠ 15 := fun same => last (Fin.ext same)
      refine .bind (writeRegister_follows number.isLt (Or.inr other) value) fun _ => ?_
      have followed := ih ascending (address + instructionSize)
      simpa [Ne.symm last] using followed

theorem storeBlock_follows {rn : Nat} {listed : List (Fin 16)} {newBase? : Option Word}
    (bound : rn < 16) (other : newBase?.isSome → rn ≠ 15) (address : Word) :
    (storeBlock rn listed address newBase?).Follows (steady raw) False := by
  induction listed generalizing address newBase? with
  | nil => exact .pure _
  | cons number rest ih =>
    refine .bind (readOperand_follows number.isLt true) fun value => ?_
    refine .bind (store_follows _ _ _) fun _ => ?_
    -- Only the first register is followed by an update of the base.
    have stored : (storeBlock rn rest (address + instructionSize) none).Follows (steady raw) False :=
      ih (by simp) (address + instructionSize)
    cases newBase? with
    | none => exact stored
    | some newBase => exact .bind (writeRegister_follows bound (Or.inr (other rfl)) _) fun _ => stored

theorem ascending_listedRegisters (registers : Half) :
    (listedRegisters registers).Pairwise (· < ·) :=
  (List.pairwise_lt_finRange 16).filter _

theorem mem_listedRegisters (registers : Half) (number : Fin 16) :
    number ∈ listedRegisters registers ↔ Bits.test registers number = true := by
  simp only [listedRegisters, List.mem_filter, List.mem_finRange, true_and]

theorem blockTransfer_follows {direction : Direction} {indexing : Indexing}
    {offsetting : Offsetting} {writeBack : Bool} {rn : Nat} {registers : Half} (bound : rn < 16)
    (other : writeBack = true → rn ≠ 15) :
    (blockTransfer direction indexing offsetting writeBack rn registers).Follows (steady raw)
      (direction = .load ∧ Bits.test registers 15 = true) := by
  refine .bind (readRegister_follows bound) fun base => ?_
  cases direction with
  | load =>
    have loaded (address : Word) :
        (loadBlock (listedRegisters registers) address).Follows (steady raw)
          (Direction.load = .load ∧ Bits.test registers 15 = true) := by
      refine (loadBlock_follows (ascending_listedRegisters registers) address).weaken ?_
      intro listed
      exact ⟨rfl, (mem_listedRegisters registers 15).mp listed⟩
    dsimp only
    split
    · next writes =>
      exact .bind (writeRegister_follows bound (Or.inr (other writes)) _) fun _ => loaded _
    · exact loaded _
  | store =>
    refine .excuse (storeBlock_follows bound (fun written => ?_) _)
    cases writeBack with
    | true => exact other rfl
    | false => cases written

end Families

section Whole

variable {instruction : Instruction}

theorem performInstruction_follows (bounds : instruction.WithinBounds) (raw : Word) :
    (performInstruction raw instruction).Follows (steady raw) (instruction.targetsPc = true) := by
  have ⟨registers, _, plain, accepted⟩ := bounds
  cases instruction with
  | swap quantity rn rd rm =>
    have bound (number : Nat) (member : number ∈ [rn, rd, rm]) := registers number member
    exact .excuse (swap_follows (bound rn (by simp)) (bound rd (by simp)) (bound rm (by simp))
      (Instruction.swap_accepted accepted))
  | branchExchange rm =>
    have bound := registers rm (by simp [Instruction.registers])
    exact (branchExchange_follows bound).weaken fun _ => rfl
  | halfTransfer direction kind rd addressing =>
    have stored : direction = .store → kind = .unsignedHalf := by
      rintro rfl
      exact plain
    obtain ⟨inside, base, offset⟩ := Instruction.lt_of_transfer registers
    have followed : (halfTransfer direction kind rd addressing).Follows (steady raw)
        (direction = .load ∧ rd = 15) :=
      halfTransfer_follows inside base offset (Instruction.transfer_accepted accepted) stored
    refine followed.weaken ?_
    rintro ⟨rfl, rfl⟩
    rfl
  | doubleTransfer direction rd addressing =>
    obtain ⟨pair, base, offset, baseAccepted⟩ := bounds.of_pair
    exact .excuse (doubleTransfer_follows pair base offset baseAccepted)
  | singleTransfer direction quantity rd addressing =>
    obtain ⟨inside, base, offset⟩ := Instruction.lt_of_transfer registers
    have followed : (singleTransfer direction quantity rd addressing).Follows (steady raw)
        (direction = .load ∧ rd = 15) :=
      singleTransfer_follows inside base offset (Instruction.transfer_accepted accepted)
    refine followed.weaken ?_
    rintro ⟨rfl, rfl⟩
    rfl
  | blockTransfer direction indexing offsetting statusBit writeBack rn listed =>
    have bound := registers rn (by simp [Instruction.registers])
    have followed :
        (blockTransfer direction indexing offsetting writeBack rn listed).Follows (steady raw)
          (direction = .load ∧ Bits.test listed 15 = true) :=
      blockTransfer_follows bound (Instruction.blockTransfer_accepted accepted)
    refine followed.weaken ?_
    rintro ⟨rfl, loads⟩
    exact loads
  | dataProcessing | statusRead | statusWrite | multiply | multiplyLong | byteReverse | branch
  | coprocessorTransfer | coprocessorOperation | coprocessorRegister | softwareInterrupt =>
    exact performSure_follows bounds rfl raw

end Whole

end Core

namespace Opcode

variable {opcode : Opcode}

/-- Whether the opcode writes r15 when it finds the given status. -/
def jumps (opcode : Opcode) (status : Status) : Bool :=
  status.passes opcode.condition == some true && opcode.instruction.targetsPc

theorem decode_eq_ok {word : Word} (decoded : decode word = .ok opcode) :
    Instruction.decode word = .ok opcode.instruction ∧ opcode.raw = word := by
  unfold decode at decoded
  cases found : Instruction.decode word with
  | error fault =>
    rw [found] at decoded
    cases decoded
  | ok instruction =>
    rw [found] at decoded
    cases decoded
    exact ⟨rfl, rfl⟩

theorem withinBounds_of_decode {word : Word} (decoded : decode word = .ok opcode) :
    opcode.instruction.WithinBounds :=
  Instruction.withinBounds_of_decode (decode_eq_ok decoded).1

end Opcode

namespace Core

section Execution

variable {opcode : Opcode} {core reached : Core}

theorem perform_execute (opcode : Opcode) (core : Core) :
    (execute opcode).perform core =
      match core.cpu.status.passes opcode.condition with
      | none => (.error (.illegal opcode.raw 0 .reservedCondition), core)
      | some false => (.ok false, core)
      | some true =>
        match (performInstruction opcode.raw opcode.instruction).perform core with
        | (.ok _, reached) =>
            (.ok (opcode.instruction.targetsPc ||
              reached.cpu.registers.pc != core.cpu.registers.pc), reached)
        | (.error fault, reached) => (.error fault, reached) := by
  unfold execute status
  rw [Action.perform_bind, Action.perform_ask]
  dsimp only
  cases core.cpu.status.passes opcode.condition with
  | none => rfl
  | some passed =>
    cases passed with
    | false => rfl
    | true =>
      rw [pc, Action.perform_bind, Action.perform_ask]
      dsimp only
      rw [Action.perform_bind]
      rcases (performInstruction opcode.raw opcode.instruction).perform core with ⟨_ | _, reached⟩
      · rfl
      · rfl

/-- An opcode that fails has not begun, under the reserved condition, or its instruction failed. -/
theorem execute_failed {fault : Fault}
    (failed : (execute opcode).perform core = (.error fault, reached)) :
    (core.cpu.status.passes opcode.condition = none ∧ reached = core) ∨
    (core.cpu.status.passes opcode.condition = some true ∧
      (performInstruction opcode.raw opcode.instruction).perform core =
        (.error fault, reached)) := by
  rw [perform_execute] at failed
  split at failed
  · next reserved =>
    cases failed
    exact Or.inl ⟨reserved, rfl⟩
  · cases failed
  · next passes =>
    split at failed
    · cases failed
    · next performed =>
      cases failed
      exact Or.inr ⟨passes, performed⟩

/-- A fault quotes the word of the opcode, and r15 is as before. -/
theorem execute_raised {fault : Fault} (bounds : opcode.instruction.WithinBounds)
    (performed : (execute opcode).perform core = (.error fault, reached)) :
    fault.RaisedBy opcode.raw ∧ reached.cpu.registers.pc = core.cpu.registers.pc := by
  obtain ⟨reserved, rfl⟩ | ⟨passes, failed⟩ := execute_failed performed
  · rw [perform_execute, reserved] at performed
    cases performed
    exact ⟨.illegal _, rfl⟩
  · exact (performInstruction_follows bounds opcode.raw).faulted failed

theorem execute_error {fault : Fault} (bounds : opcode.instruction.WithinBounds)
    (performed : (execute opcode).perform core = (.error fault, reached)) :
    fault.Ordinary ∧ reached.cpu.registers.pc = core.cpu.registers.pc :=
  (execute_raised bounds performed).imp Fault.RaisedBy.ordinary id

/-- The answer is exactly whether r15 was written, and if it was not then r15 is as before. -/
theorem execute_ok {branched : Bool} (bounds : opcode.instruction.WithinBounds)
    (performed : (execute opcode).perform core = (.ok branched, reached)) :
    branched = opcode.jumps core.cpu.status ∧
      (branched = false → reached.cpu.registers.pc = core.cpu.registers.pc) := by
  rw [perform_execute] at performed
  split at performed
  · cases performed
  · next failed =>
    cases performed
    simp [Opcode.jumps, failed]
  · next passed =>
    split at performed
    · next succeeded =>
      cases performed
      have kept := (performInstruction_follows bounds opcode.raw).returned succeeded
      cases targets : opcode.instruction.targetsPc with
      | true => simp [Opcode.jumps, passed, targets]
      | false =>
        -- r15 is as before, so that comparing it adds nothing to the answer.
        rw [targets] at kept
        have same := kept.resolve_left Bool.false_ne_true
        simp only [steady] at same
        simp [Opcode.jumps, passed, targets, same]
    · cases performed

/-- An instruction that stops is executed just as far. -/
theorem execute_of_stopped {fault : Fault}
    (passes : core.cpu.status.passes opcode.condition = some true)
    (stopped : (performInstruction opcode.raw opcode.instruction).perform core =
      (.error fault, reached)) :
    (execute opcode).perform core = (.error fault, reached) := by
  rw [perform_execute, passes]
  dsimp only
  rw [stopped]

/-- An instruction that is performed answers whether it writes r15. -/
theorem execute_of_performed (bounds : opcode.instruction.WithinBounds)
    (passes : core.cpu.status.passes opcode.condition = some true)
    (performed : (performInstruction opcode.raw opcode.instruction).perform core =
      (.ok (), reached)) :
    (execute opcode).perform core = (.ok opcode.instruction.targetsPc, reached) := by
  have executed : (execute opcode).perform core = (.ok (opcode.instruction.targetsPc ||
      reached.cpu.registers.pc != core.cpu.registers.pc), reached) := by
    rw [perform_execute, passes]
    dsimp only
    rw [performed]
  rw [executed, (execute_ok bounds executed).1, Opcode.jumps, passes]
  rfl

end Execution

end Core

end ArmBoard
