import ArmBoard.Execution.Execute

/-!
# Instructions as sequences of steps

An instruction reads and writes the processor and accesses memory, one step
after the other. What every such step has, and sequences inherit, is therefore
had by every instruction. Each family is taken apart here once, for any trait.
Few instructions write a status register, and a trait need not be that of such
a write to be had by the others.
-/
namespace ArmBoard

namespace Status

/-- Takes three flags from a product and leaves the overflow as it is. -/
def withProduct (status : Status) (result : Word) : Status :=
  ((status.put negativeBit (Bits.test result 31)).put zeroBit (result == 0)).put carryBit
    (Bits.test result 0)

/-- Takes all four flags from a long product. -/
def withLongProduct (status : Status) (result : Dword) : Status :=
  (((status.put negativeBit (Bits.test result 63)).put zeroBit (result == 0)).put carryBit
    (Bits.test (result.setWidth 32 : Word) 0)).put overflowBit
    (Bits.test (result.setWidth 32 : Word) 1)

end Status

/-- Whether an instruction stores something, if there is memory for it. -/
def Instruction.writesMemory : Instruction → Bool
  | swap .. | halfTransfer .store .. | doubleTransfer .store .. | singleTransfer .store ..
  | blockTransfer .store .. => true
  | _ => false

/-- What becomes of the status by the flags that an instruction sets. -/
inductive Instruction.SetsFlags : Instruction → (Status → Status) → Prop
  | dataProcessing (op : AluOp) (rn rd : Nat) (operand : Operand) (result : AluResult) :
      SetsFlags (.dataProcessing op true rn rd operand) (·.withFlags result)
  | multiply (variant : Multiplication) (rd rn rs rm : Nat) (result : Word) :
      SetsFlags (.multiply variant true rd rn rs rm) (·.withProduct result)
  | multiplyLong (variant : LongMultiplication) (rdHi rdLo rs rm : Nat) (result : Dword) :
      SetsFlags (.multiplyLong variant true rdHi rdLo rs rm) (·.withLongProduct result)

namespace Core

/--
A property of actions that sequences inherit, and that all steps but stores and status writes have.
-/
structure ReadingTrait where
  holds : ∀ {α : Type}, Action Core α → Prop
  pure : ∀ {α : Type} (value : α), holds (pure value : Action Core α)
  fail : ∀ {α : Type} (fault : Fault), holds (Action.fail fault : Action Core α)
  bind : ∀ {α β : Type} {action : Action Core α} {next : α → Action Core β},
    holds action → (∀ value, holds (next value)) → holds (action >>= next)
  readRegister : ∀ number, holds (readRegister number)
  writeRegister : ∀ number value, holds (writeRegister number value)
  pc : holds pc
  setPc : ∀ value, holds (setPc value)
  status : holds status
  savedStatus : holds savedStatus
  load : ∀ count address, holds (load count address)

/-- A property of actions that sequences inherit, and that all steps but status writes have. -/
structure QuietTrait extends ReadingTrait where
  store : ∀ count address value, holds (store count address value)

/-- A property of actions that the steps of instructions have and that sequences inherit. -/
structure Trait extends QuietTrait where
  setStatus : ∀ status, holds (setStatus status)
  setSavedStatus : ∀ status, holds (setSavedStatus status)

/-- Changes the status, as the setting of flags does. -/
def updateStatus (update : Status → Status) : Action Core Unit := do
  let old ← status
  setStatus (update old)

section Reading

variable {trait : ReadingTrait}

theorem readOperand_holds (number : Nat) (extraCycle : Bool) :
    trait.holds (readOperand number extraCycle) :=
  trait.bind (trait.readRegister number) fun _ => trait.pure _

theorem shiftedOperand_holds (operand : Operand) : trait.holds (shiftedOperand operand) := by
  cases operand with
  | immediate base rotate => exact trait.bind trait.status fun _ => trait.pure _
  | register amount kind number =>
    cases amount with
    | immediate amount =>
      apply trait.bind trait.status
      intro status
      exact trait.bind (readOperand_holds number _) fun _ => trait.pure _
    | register amount =>
      apply trait.bind trait.status
      intro status
      apply trait.bind (trait.readRegister amount)
      intro amount
      exact trait.bind (readOperand_holds number _) fun _ => trait.pure _

/-- A status that was just read is the one that an update finds. -/
theorem updateStatus_after_status (update : Status → Status → Status)
    (next : Status → Action Core Unit) :
    (do let old ← status; setStatus (update old old); next old) =
      (do let old ← status; updateStatus (update old); next old) := rfl

theorem operate_eq (op : AluOp) (setFlags : Bool) (rd : Nat) (first : Word) (second : Shifted) :
    operate op setFlags rd first second = (do
      let status ← status
      let result := aluResult op first second status
      if setFlags then updateStatus (·.withFlags result)
      if !op.isTest then writeRegister rd result.value) := by
  cases setFlags with
  | true =>
    simp only [operate, if_true]
    exact updateStatus_after_status
      (fun status old => old.withFlags (aluResult op first second status)) _
  | false => simp only [operate, Bool.false_eq_true, if_false]

theorem operate_holds {op : AluOp} {setFlags : Bool}
    (flags : setFlags = true → ∀ result : AluResult,
      trait.holds (updateStatus (·.withFlags result)))
    (rd : Nat) (first : Word) (second : Shifted) :
    trait.holds (operate op setFlags rd first second) := by
  have written (result : AluResult) :
      trait.holds (if !op.isTest then writeRegister rd result.value else pure ()) := by
    split
    · exact trait.writeRegister rd _
    · exact trait.pure _
  rw [operate_eq]
  apply trait.bind trait.status
  intro status
  dsimp only
  split
  · next set => exact trait.bind (flags set _) fun _ => written _
  · exact written _

theorem dataProcessing_holds {op : AluOp} {setFlags : Bool}
    (flags : setFlags = true → ∀ result : AluResult,
      trait.holds (updateStatus (·.withFlags result)))
    (rn rd : Nat) (operand : Operand) :
    trait.holds (dataProcessing op setFlags rn rd operand) := by
  apply trait.bind (readOperand_holds rn _)
  intro first
  apply trait.bind (shiftedOperand_holds operand)
  intro second
  exact operate_holds flags rd first second

theorem readStatus_holds (kind : StatusKind) (rd : Nat) : trait.holds (readStatus kind rd) := by
  cases kind with
  | current => exact trait.bind trait.status fun _ => trait.writeRegister rd _
  | saved => exact trait.bind trait.savedStatus fun _ => trait.writeRegister rd _

theorem statusValue_holds (source : StatusSource) : trait.holds (statusValue source) := by
  cases source with
  | immediate base rotate => exact trait.pure _
  | register number => exact trait.readRegister number

theorem multiply_holds {variant : Multiplication} {setFlags : Bool}
    (flags : setFlags = true → ∀ result : Word, trait.holds (updateStatus (·.withProduct result)))
    (rd rn rs rm : Nat) : trait.holds (multiply variant setFlags rd rn rs rm) := by
  -- With or without an addend, the result is written and the flags follow it.
  have written (result : Word) : trait.holds (do
      writeRegister rd result
      if setFlags then updateStatus (·.withProduct result)) := by
    apply trait.bind (trait.writeRegister rd result)
    intro _
    split
    · next set => exact flags set result
    · exact trait.pure _
  apply trait.bind (trait.readRegister rm)
  intro multiplicand
  apply trait.bind (trait.readRegister rs)
  intro multiplier
  cases variant with
  | mul => exact trait.bind (trait.pure _) written
  | mla =>
    apply trait.bind (trait.readRegister rn)
    intro addend
    exact trait.bind (trait.pure _) written

theorem multiplyLong_holds {variant : LongMultiplication} {setFlags : Bool}
    (flags : setFlags = true → ∀ result : Dword,
      trait.holds (updateStatus (·.withLongProduct result)))
    (rdHi rdLo rs rm : Nat) : trait.holds (multiplyLong variant setFlags rdHi rdLo rs rm) := by
  have written (result : Dword) : trait.holds (do
      writeRegister rdLo (result.setWidth 32)
      writeRegister rdHi ((result >>> 32).setWidth 32)
      if setFlags then updateStatus (·.withLongProduct result)) := by
    apply trait.bind (trait.writeRegister rdLo _)
    intro _
    apply trait.bind (trait.writeRegister rdHi _)
    intro _
    split
    · next set => exact flags set result
    · exact trait.pure _
  apply trait.bind (trait.readRegister rm)
  intro multiplicand
  apply trait.bind (trait.readRegister rs)
  intro multiplier
  dsimp only
  split
  · apply trait.bind (trait.readRegister rdHi)
    intro high
    apply trait.bind (trait.readRegister rdLo)
    intro low
    exact trait.bind (trait.pure _) written
  · exact trait.bind (trait.pure _) written

theorem byteReverse_holds (variant : ByteReversal) (rd rm : Nat) :
    trait.holds (byteReverse variant rd rm) :=
  trait.bind (trait.readRegister rm) fun _ => trait.writeRegister rd _

theorem branchExchange_holds (raw : Word) (rm : Nat) : trait.holds (branchExchange raw rm) := by
  apply trait.bind (trait.readRegister rm)
  intro target
  split
  · exact trait.fail _
  · exact trait.setPc _

theorem branch_holds (link : Bool) (offset : Word) : trait.holds (branch link offset) := by
  apply trait.bind trait.pc
  intro here
  dsimp only
  split
  · exact trait.bind (trait.writeRegister _ _) fun _ => trait.setPc _
  · exact trait.setPc _

theorem plainDistance_holds (offset : PlainOffset) : trait.holds (plainDistance offset) := by
  cases offset with
  | immediate offset => exact trait.pure _
  | register number => exact trait.readRegister number

theorem shiftedDistance_holds (offset : ShiftedOffset) : trait.holds (shiftedDistance offset) := by
  cases offset with
  | immediate offset => exact trait.pure _
  | register amount kind number =>
    apply trait.bind (trait.readRegister number)
    intro value
    exact trait.bind trait.status fun _ => trait.pure _

theorem resolve_holds {offset : Type} (addressing : Addressing offset)
    {distance : Action Core Word} (known : trait.holds distance) :
    trait.holds (resolve addressing distance) := by
  apply trait.bind known
  intro distance
  exact trait.bind (trait.readRegister addressing.base) fun _ => trait.pure _

theorem updateBase_holds {offset : Type} (addressing : Addressing offset) (value : Word) :
    trait.holds (updateBase addressing value) := by
  unfold updateBase
  split
  · exact trait.writeRegister addressing.base value
  · exact trait.pure _

theorem loadHalfKind_holds (kind : HalfKind) (address : Word) :
    trait.holds (loadHalfKind kind address) := by
  cases kind with
  | unsignedHalf => exact trait.bind (trait.load 2 address) fun _ => trait.pure _
  | signedByte => exact trait.bind (trait.load 1 address) fun _ => trait.pure _
  | signedHalf => exact trait.bind (trait.load 2 address) fun _ => trait.pure _

theorem halfLoad_holds (kind : HalfKind) (rd : Nat) (addressing : Addressing PlainOffset) :
    trait.holds (halfTransfer .load kind rd addressing) := by
  apply trait.bind (resolve_holds addressing (plainDistance_holds _))
  rintro ⟨address, newBase⟩
  apply trait.bind (loadHalfKind_holds kind address)
  intro value
  exact trait.bind (updateBase_holds addressing newBase) fun _ => trait.writeRegister rd value

theorem doubleLoad_holds (rd : Nat) (addressing : Addressing PlainOffset) :
    trait.holds (doubleTransfer .load rd addressing) := by
  apply trait.bind (resolve_holds addressing (plainDistance_holds _))
  rintro ⟨address, newBase⟩
  apply trait.bind (trait.load 4 address)
  intro low
  apply trait.bind (trait.load 4 _)
  intro high
  apply trait.bind (updateBase_holds addressing newBase)
  intro _
  exact trait.bind (trait.writeRegister rd low) fun _ => trait.writeRegister (rd + 1) high

theorem singleLoad_holds (quantity : Quantity) (rd : Nat) (addressing : Addressing ShiftedOffset) :
    trait.holds (singleTransfer .load quantity rd addressing) := by
  apply trait.bind (resolve_holds addressing (shiftedDistance_holds _))
  rintro ⟨address, newBase⟩
  have written (value : Word) := trait.bind (updateBase_holds addressing newBase) fun _ =>
    trait.writeRegister rd value
  cases quantity with
  | byte =>
    apply trait.bind (trait.load 1 address)
    intro byte
    exact trait.bind (trait.pure _) written
  | word => exact trait.bind (trait.load 4 address) written

theorem loadBlock_holds (listed : List (Fin 16)) (address : Word) :
    trait.holds (loadBlock listed address) := by
  induction listed generalizing address with
  | nil => exact trait.pure _
  | cons number rest ih =>
    apply trait.bind (trait.load 4 address)
    intro value
    exact trait.bind (trait.writeRegister number value) fun _ => ih _

theorem blockLoad_holds (indexing : Indexing) (offsetting : Offsetting) (writeBack : Bool)
    (rn : Nat) (registers : Half) :
    trait.holds (blockTransfer .load indexing offsetting writeBack rn registers) := by
  apply trait.bind (trait.readRegister rn)
  intro base
  dsimp only
  split
  · exact trait.bind (trait.writeRegister rn _) fun _ => loadBlock_holds _ _
  · exact loadBlock_holds _ _

end Reading

section Storing

variable {trait : QuietTrait}

theorem swap_holds (quantity : Quantity) (rn rd rm : Nat) :
    trait.holds (swap quantity rn rd rm) := by
  apply trait.bind (trait.readRegister rn)
  intro address
  apply trait.bind (trait.readRegister rm)
  intro source
  cases quantity with
  | byte =>
    apply trait.bind (trait.load 1 address)
    intro old
    exact trait.bind (trait.store 1 address _) fun _ => trait.writeRegister rd _
  | word =>
    apply trait.bind (trait.load 4 address)
    intro old
    exact trait.bind (trait.store 4 address _) fun _ => trait.writeRegister rd _

theorem halfTransfer_holds (direction : Direction) (kind : HalfKind) (rd : Nat)
    (addressing : Addressing PlainOffset) :
    trait.holds (halfTransfer direction kind rd addressing) := by
  cases direction with
  | load => exact halfLoad_holds kind rd addressing
  | store =>
    apply trait.bind (resolve_holds addressing (plainDistance_holds _))
    rintro ⟨address, newBase⟩
    cases kind with
    | unsignedHalf =>
      apply trait.bind (readOperand_holds rd true)
      intro value
      exact trait.bind (trait.store 2 address _) fun _ => updateBase_holds addressing newBase
    | signedByte | signedHalf => exact trait.fail _

theorem doubleTransfer_holds (direction : Direction) (rd : Nat)
    (addressing : Addressing PlainOffset) :
    trait.holds (doubleTransfer direction rd addressing) := by
  cases direction with
  | load => exact doubleLoad_holds rd addressing
  | store =>
    apply trait.bind (resolve_holds addressing (plainDistance_holds _))
    rintro ⟨address, newBase⟩
    apply trait.bind (trait.readRegister rd)
    intro low
    apply trait.bind (trait.store 4 address low)
    intro _
    apply trait.bind (trait.readRegister (rd + 1))
    intro high
    exact trait.bind (trait.store 4 _ high) fun _ => updateBase_holds addressing newBase

theorem singleTransfer_holds (direction : Direction) (quantity : Quantity) (rd : Nat)
    (addressing : Addressing ShiftedOffset) :
    trait.holds (singleTransfer direction quantity rd addressing) := by
  cases direction with
  | load => exact singleLoad_holds quantity rd addressing
  | store =>
    apply trait.bind (resolve_holds addressing (shiftedDistance_holds _))
    rintro ⟨address, newBase⟩
    apply trait.bind (readOperand_holds rd true)
    intro value
    cases quantity with
    | byte =>
      exact trait.bind (trait.store 1 address _) fun _ => updateBase_holds addressing newBase
    | word =>
      exact trait.bind (trait.store 4 address _) fun _ => updateBase_holds addressing newBase

theorem storeBlock_holds (rn : Nat) (listed : List (Fin 16)) (address : Word)
    (newBase? : Option Word) : trait.holds (storeBlock rn listed address newBase?) := by
  induction listed generalizing address newBase? with
  | nil => exact trait.pure _
  | cons number rest ih =>
    apply trait.bind (readOperand_holds number true)
    intro value
    apply trait.bind (trait.store 4 address value)
    intro _
    -- The base is written at most once, whatever is still to be stored.
    have stored (_ : Unit) := ih (address + instructionSize) none
    cases newBase? with
    | none => exact trait.bind (trait.pure ()) stored
    | some newBase => exact trait.bind (trait.writeRegister rn newBase) stored

theorem blockTransfer_holds (direction : Direction) (indexing : Indexing)
    (offsetting : Offsetting) (writeBack : Bool) (rn : Nat) (registers : Half) :
    trait.holds (blockTransfer direction indexing offsetting writeBack rn registers) := by
  cases direction with
  | load => exact blockLoad_holds indexing offsetting writeBack rn registers
  | store =>
    apply trait.bind (trait.readRegister rn)
    intro base
    exact storeBlock_holds rn _ _ _

end Storing

/-- An instruction that stores nothing has the trait of its steps, and no step of it is a store. -/
theorem ReadingTrait.performInstruction_holds (trait : ReadingTrait) (raw : Word)
    (instruction : Instruction) (reads : instruction.writesMemory = false)
    (flags : ∀ update, instruction.SetsFlags update → trait.holds (updateStatus update))
    (written : ∀ kind source fields, instruction = .statusWrite kind source fields →
      trait.holds (writeStatus kind source fields)) :
    trait.holds (performInstruction raw instruction) := by
  cases instruction with
  | dataProcessing op setFlags rn rd operand =>
    refine dataProcessing_holds ?_ rn rd operand
    rintro rfl result
    exact flags _ (.dataProcessing op rn rd operand result)
  | statusRead => exact readStatus_holds _ _
  | statusWrite kind source fields => exact written kind source fields rfl
  | multiply variant setFlags rd rn rs rm =>
    refine multiply_holds ?_ rd rn rs rm
    rintro rfl result
    exact flags _ (.multiply variant rd rn rs rm result)
  | multiplyLong variant setFlags rdHi rdLo rs rm =>
    refine multiplyLong_holds ?_ rdHi rdLo rs rm
    rintro rfl result
    exact flags _ (.multiplyLong variant rdHi rdLo rs rm result)
  | swap => cases reads
  | branchExchange => exact branchExchange_holds raw _
  | byteReverse => exact byteReverse_holds _ _ _
  | halfTransfer direction kind rd addressing =>
    cases direction with
    | load => exact halfLoad_holds _ _ _
    | store => cases reads
  | doubleTransfer direction rd addressing =>
    cases direction with
    | load => exact doubleLoad_holds _ _
    | store => cases reads
  | singleTransfer direction quantity rd addressing =>
    cases direction with
    | load => exact singleLoad_holds _ _ _
    | store => cases reads
  | blockTransfer direction =>
    cases direction with
    | load => exact blockLoad_holds _ _ _ _ _
    | store => cases reads
  | branch => exact branch_holds _ _
  | coprocessorTransfer | coprocessorOperation | coprocessorRegister | softwareInterrupt =>
    exact trait.pure _

/-- An instruction has the trait of its steps, if the flags that it sets and what it writes have. -/
theorem QuietTrait.performInstruction_holds (trait : QuietTrait) (raw : Word)
    (instruction : Instruction)
    (flags : ∀ update, instruction.SetsFlags update → trait.holds (updateStatus update))
    (written : ∀ kind source fields, instruction = .statusWrite kind source fields →
      trait.holds (writeStatus kind source fields)) :
    trait.holds (performInstruction raw instruction) := by
  cases stores : instruction.writesMemory with
  | false =>
    exact trait.toReadingTrait.performInstruction_holds raw instruction stores flags written
  | true =>
    cases instruction with
    | swap => exact swap_holds _ _ _ _
    | halfTransfer => exact halfTransfer_holds _ _ _ _
    | doubleTransfer => exact doubleTransfer_holds _ _ _
    | singleTransfer => exact singleTransfer_holds _ _ _ _
    | blockTransfer => exact blockTransfer_holds _ _ _ _ _ _
    | _ => cases stores

/-- A condition is read before anything else, and r15 before and after. -/
theorem ReadingTrait.execute_holds (trait : ReadingTrait) {opcode : Opcode}
    (performed : trait.holds (performInstruction opcode.raw opcode.instruction)) :
    trait.holds (execute opcode) := by
  apply trait.bind trait.status
  intro status
  split
  · exact trait.fail _
  · exact trait.pure _
  · apply trait.bind trait.pc
    intro before
    apply trait.bind performed
    intro _
    exact trait.bind trait.pc fun _ => trait.pure _

namespace Trait

variable (trait : Trait)

theorem updateStatus_holds (update : Status → Status) : trait.holds (updateStatus update) :=
  trait.bind trait.status fun _ => trait.setStatus _

theorem writeStatus_holds (kind : StatusKind) (source : StatusSource) (fields : Word) :
    trait.holds (writeStatus kind source fields) := by
  apply trait.bind (statusValue_holds source)
  intro value
  cases kind with
  | current => exact trait.bind trait.status fun _ => trait.setStatus _
  | saved => exact trait.bind trait.savedStatus fun _ => trait.setSavedStatus _

theorem performInstruction_holds (raw : Word) (instruction : Instruction) :
    trait.holds (performInstruction raw instruction) :=
  trait.toQuietTrait.performInstruction_holds raw instruction
    (fun update _ => trait.updateStatus_holds update)
    fun kind source fields _ => trait.writeStatus_holds kind source fields

end Trait

theorem execute_holds {trait : Trait} (opcode : Opcode) : trait.holds (execute opcode) :=
  trait.toQuietTrait.execute_holds (trait.performInstruction_holds opcode.raw opcode.instruction)

end Core

end ArmBoard
