import ArmBoard.Proofs.Assembly.Operands
import ArmBoard.Proofs.Decoding.Agreement
import ArmBoard.Proofs.Execution.ProgramCounter

/-!
# Reading instructions

An assembly text is a mnemonic, a blank and the operands. It tells the condition
and what is shown of the instruction: all but the registers that it does not
use, the way an immediate was encoded, and bits that change nothing.
-/
namespace ArmBoard

open Text

theorem flagsText_mem (marked : Bool) : flagsText marked ∈ ["", "S"] := by
  cases marked <;> simp [flagsText]

namespace Instruction

def mnemonic : Instruction → Mnemonic
  | dataProcessing op setFlags _ _ _ =>
      ⟨.dataProcessing op, flagsText (setFlags && !op.isTest), flagsText_mem _⟩
  | statusRead _ _ => ⟨.statusRead, "", by simp [Stem.endings]⟩
  | statusWrite _ _ _ => ⟨.statusWrite, "", by simp [Stem.endings]⟩
  | multiply variant setFlags _ _ _ _ =>
      ⟨.multiply variant, flagsText setFlags, flagsText_mem setFlags⟩
  | multiplyLong variant setFlags _ _ _ _ =>
      ⟨.multiplyLong variant, flagsText setFlags, flagsText_mem setFlags⟩
  | swap quantity _ _ _ =>
      ⟨.swap, quantity.text, by cases quantity <;> simp [Stem.endings, Quantity.text]⟩
  | branchExchange _ => ⟨.branchExchange, "", by simp [Stem.endings]⟩
  | byteReverse variant _ _ => ⟨.byteReverse variant, "", by simp [Stem.endings]⟩
  | halfTransfer direction kind _ _ =>
      ⟨.transfer direction, kind.text, by cases kind <;> simp [Stem.endings, HalfKind.text]⟩
  | doubleTransfer direction _ _ => ⟨.transfer direction, "D", by simp [Stem.endings]⟩
  | singleTransfer direction quantity _ _ =>
      ⟨.transfer direction, quantity.text,
        by cases quantity <;> simp [Stem.endings, Quantity.text]⟩
  | blockTransfer direction indexing offsetting _ _ _ _ =>
      ⟨.blockTransfer direction, blockModeText offsetting indexing,
        by cases indexing <;> cases offsetting <;> simp [Stem.endings, blockModeText]⟩
  | branch link _ => ⟨.branch link, "", by simp [Stem.endings]⟩
  | coprocessorTransfer direction _ _ _ _ =>
      ⟨.coprocessorTransfer direction, "", by simp [Stem.endings]⟩
  | coprocessorOperation _ => ⟨.coprocessorOperation, "", by simp [Stem.endings]⟩
  | coprocessorRegister direction _ =>
      ⟨.coprocessorRegister direction, "", by simp [Stem.endings]⟩
  | softwareInterrupt _ => ⟨.softwareInterrupt, "", by simp [Stem.endings]⟩

/-- The text behind the first blank. -/
def operandText : Instruction → String
  | dataProcessing op _ rn rd operand =>
      if op.isTest then registerText rn ++ ", " ++ operand.text
      else if op.isMove then registerText rd ++ ", " ++ operand.text
      else registerText rd ++ ", " ++ registerText rn ++ ", " ++ operand.text
  | statusRead kind rd => registerText rd ++ ", " ++ kind.text
  | statusWrite kind source fields =>
      kind.text ++ "_" ++ statusFieldsText fields ++ ", " ++ source.text
  | multiply .mul _ rd _ rs rm =>
      registerText rd ++ ", " ++ registerText rm ++ ", " ++ registerText rs
  | multiply .mla _ rd rn rs rm =>
      registerText rd ++ ", " ++ registerText rm ++ ", " ++ registerText rs ++ ", " ++
        registerText rn
  | multiplyLong _ _ rdHi rdLo rs rm =>
      registerText rdLo ++ ", " ++ registerText rdHi ++ ", " ++ registerText rm ++ ", " ++
        registerText rs
  | swap _ rn rd rm => registerText rd ++ ", " ++ registerText rm ++ ", [" ++ registerText rn ++ "]"
  | branchExchange rm => registerText rm
  | byteReverse _ rd rm => registerText rd ++ ", " ++ registerText rm
  | halfTransfer _ _ rd addressing | doubleTransfer _ rd addressing =>
      registerText rd ++ ", " ++ addressing.text addressing.offset.text
  | singleTransfer _ _ rd addressing =>
      registerText rd ++ ", " ++ addressing.text addressing.offset.text
  | blockTransfer _ _ _ statusBit writeBack rn registers =>
      registerText rn ++ writeBackText writeBack ++ ", " ++ registerListText registers statusBit
  | branch _ offset => "#" ++ toString offset.toInt
  | coprocessorTransfer _ coprocessor crd rn offset =>
      "p" ++ toString coprocessor ++ ", c" ++ toString crd ++ ", [" ++ registerText rn ++ "], #" ++
        toString offset
  | coprocessorOperation coprocessor => "p" ++ toString coprocessor
  | coprocessorRegister _ coprocessor => "p" ++ toString coprocessor
  | softwareInterrupt comment => "#" ++ hex comment.toNat

theorem assembly_eq (condition : Condition) (instruction : Instruction) :
    instruction.assembly condition =
      instruction.mnemonic.text condition ++ " " ++ instruction.operandText := by
  have blank (word : String) : " " ++ ("#" ++ word) = " #" ++ word := by
    rw [← String.append_assoc]
    rfl
  cases instruction
  case dataProcessing op setFlags rn rd operand =>
    cases op <;> simp [assembly, mnemonic, operandText, Mnemonic.text, Stem.text,
      String.append_assoc, AluOp.isTest, AluOp.isMove, flagsText]
  case multiply variant setFlags rd rn rs rm =>
    cases variant <;> simp [assembly, mnemonic, operandText, Mnemonic.text, Stem.text,
      String.append_assoc]
  all_goals
    apply String.toList_inj.mp
    simp [assembly, mnemonic, operandText, Mnemonic.text, Stem.text]

/-- The text tells the condition, the mnemonic and the operands. -/
theorem parts_eq {one other : Instruction} {condition also : Condition}
    (same : one.assembly condition = other.assembly also) :
    condition = also ∧ one.mnemonic = other.mnemonic ∧ one.operandText = other.operandText := by
  have letters := congrArg String.toList same
  simp only [assembly_eq, String.toList_append, List.append_assoc] at letters
  have word (mnemonic : Mnemonic) (condition : Condition) :
      ∀ letter ∈ (mnemonic.text condition).toList, (letter != ' ') = true := by
    intro letter member
    rw [bne_iff_ne]
    rintro rfl
    exact mnemonic.not_mem_text condition member
  have blank (rest : String) :
      ∀ letter ∈ (" ".toList ++ rest.toList).head?, (letter != ' ') = false := by
    simp
  obtain ⟨mnemonics, rests⟩ := word_append_inj (word _ _) (word _ _) (blank _) (blank _) letters
  obtain ⟨mnemonics, conditions⟩ := Mnemonic.text_inj (String.toList_inj.mp mnemonics)
  exact ⟨conditions, mnemonics, String.toList_inj.mp (List.append_cancel_left rests)⟩

end Instruction

section Letters

theorem flagsText_inj {one other : Bool} (same : flagsText one = flagsText other) :
    one = other := by
  cases one <;> cases other <;> simp [flagsText] at same ⊢

theorem Quantity.text_inj {one other : Quantity} (same : one.text = other.text) : one = other := by
  cases one <;> cases other <;> simp [text] at same ⊢

theorem Quantity.text_ne_double (quantity : Quantity) : quantity.text ≠ "D" := by
  cases quantity <;> simp [text]

theorem HalfKind.text_inj {one other : HalfKind} (same : one.text = other.text) : one = other := by
  cases one <;> cases other <;> simp [text] at same ⊢

theorem HalfKind.text_ne_double (kind : HalfKind) : kind.text ≠ "D" := by
  cases kind <;> simp [text]

theorem HalfKind.text_ne_quantity (kind : HalfKind) (quantity : Quantity) :
    kind.text ≠ quantity.text := by
  cases kind <;> cases quantity <;> simp [text, Quantity.text]

theorem blockModeText_inj {indexing also : Indexing} {offsetting other : Offsetting}
    (same : blockModeText offsetting indexing = blockModeText other also) :
    indexing = also ∧ offsetting = other := by
  cases indexing <;> cases also <;> cases offsetting <;> cases other <;>
    simp [blockModeText] at same ⊢

end Letters

section Lists

/-- Each of the four low bits has its letter. -/
theorem toList_statusFieldsText (fields : Word) :
    (statusFieldsText fields).toList =
      (if Bits.test fields 0 then ['c'] else []) ++ (if Bits.test fields 1 then ['x'] else []) ++
        (if Bits.test fields 2 then ['s'] else []) ++
        (if Bits.test fields 3 then ['f'] else []) := by
  simp only [statusFieldsText, List.filter_cons, List.filter_nil]
  cases Bits.test fields 0 <;> cases Bits.test fields 1 <;> cases Bits.test fields 2 <;>
    cases Bits.test fields 3 <;> rfl

theorem slice_eq_of_statusFieldsText {one other : Word}
    (same : (statusFieldsText one).toList = (statusFieldsText other).toList) :
    Bits.slice one 0 3 = Bits.slice other 0 3 := by
  have member (letter : Char) :
      letter ∈ (statusFieldsText one).toList ↔ letter ∈ (statusFieldsText other).toList := by
    rw [same]
  rw [Bits.slice_eq_iff (by decide), Bits.agreeOn_iff]
  intro index bound set
  obtain ⟨_, low⟩ := (Bits.test_span bound).mp set
  -- A bit is set if its letter is there.
  rw [Bool.eq_iff_iff]
  obtain rfl | rfl | rfl | rfl : index = 0 ∨ index = 1 ∨ index = 2 ∨ index = 3 := by omega
  · simpa [toList_statusFieldsText] using member 'c'
  · simpa [toList_statusFieldsText] using member 'x'
  · simpa [toList_statusFieldsText] using member 's'
  · simpa [toList_statusFieldsText] using member 'f'

theorem listedRegisters_inj {one other : Half}
    (same : listedRegisters one = listedRegisters other) : one = other := by
  apply BitVec.eq_of_getLsbD_eq
  intro index bound
  have member : ⟨index, bound⟩ ∈ listedRegisters one ↔ ⟨index, bound⟩ ∈ listedRegisters other := by
    rw [same]
  rw [Core.mem_listedRegisters, Core.mem_listedRegisters, ← Bool.eq_iff_iff] at member
  exact member

theorem registerListText_inj {one other : Half} {statusBit also : Bool}
    (same : (registerListText one statusBit).toList = (registerListText other also).toList) :
    one = other ∧ statusBit = also := by
  have spelled (registers : Half) (statusBit : Bool) :
      (registerListText registers statusBit).toList = '\x7b' ::
        ((namesText (listedRegisters registers)).toList ++
          '\x7d' :: (if statusBit then "^" else "").toList) := by
    simp [registerListText, namesText]
  rw [spelled, spelled, List.cons.injEq] at same
  obtain ⟨listed, marks⟩ := namesText_append_inj same.2
  refine ⟨listedRegisters_inj listed, ?_⟩
  cases statusBit <;> cases also <;> simp at marks ⊢

end Lists

namespace Instruction

/-- The instruction with all that its text does not tell in one form. -/
def shown : Instruction → Instruction
  | dataProcessing op setFlags rn rd operand =>
      dataProcessing op (setFlags || op.isTest) (if op.isMove then 0 else rn)
        (if op.isTest then 0 else rd) operand.shown
  | statusWrite kind source fields => statusWrite kind source.shown (Bits.slice fields 0 3)
  | multiply .mul setFlags rd _ rs rm => multiply .mul setFlags rd 0 rs rm
  | halfTransfer direction kind rd addressing => halfTransfer direction kind rd addressing.shown
  | doubleTransfer direction rd addressing => doubleTransfer direction rd addressing.shown
  | singleTransfer direction quantity rd addressing =>
      singleTransfer direction quantity rd addressing.shown
  | instruction => instruction

section Families

variable {rn rd rs rm rn' rd' rs' rm' : Nat}

theorem dataProcessing_shown_eq {op : AluOp} {setFlags also : Bool} {operand other : Operand}
    (near : ∀ distance ∈ operand.distances, distance < 32)
    (alsoNear : ∀ distance ∈ other.distances, distance < 32)
    (marks : (setFlags && !op.isTest) = (also && !op.isTest))
    (letters : (dataProcessing op setFlags rn rd operand).operandText.toList =
      (dataProcessing op also rn' rd' other).operandText.toList) :
    (dataProcessing op setFlags rn rd operand).shown =
      (dataProcessing op also rn' rd' other).shown := by
  -- A test leaves out its target and a move its source; nothing does both.
  have read : (op.isTest = false → rd = rd') ∧ (op.isMove = false → rn = rn') ∧
      operand.text.toList = other.text.toList := by
    cases op <;> simpa [operandText, AluOp.isTest, AluOp.isMove, and_assoc] using letters
  obtain ⟨targets, sources, texts⟩ := read
  have operands := Operand.shown_eq near alsoNear (String.toList_inj.mp texts)
  cases test : op.isTest <;> cases move : op.isMove <;> simp_all [shown]

theorem statusWrite_shown_eq {kind other : StatusKind} {source next : StatusSource}
    {fields also : Word}
    (letters : (statusWrite kind source fields).operandText.toList =
      (statusWrite other next also).operandText.toList) :
    (statusWrite kind source fields).shown = (statusWrite other next also).shown := by
  have word (fields : Word) :
      ∀ letter ∈ (statusFieldsText fields).toList, (letter != ',') = true := by
    intro letter member
    rw [bne_iff_ne]
    rintro rfl
    simp [toList_statusFieldsText] at member
  have read : kind = other ∧ (statusFieldsText fields).toList ++ (", " ++ source.text).toList =
      (statusFieldsText also).toList ++ (", " ++ next.text).toList := by
    cases kind <;> cases other <;> simp [operandText, StatusKind.text] at letters ⊢
    all_goals exact letters
  obtain ⟨rfl, rest⟩ := read
  obtain ⟨names, sources⟩ := word_append_inj (word _) (word _) (by simp) (by simp) rest
  rw [String.toList_inj, String.append_right_inj] at sources
  rw [shown, shown, slice_eq_of_statusFieldsText names, StatusSource.shown_eq sources]

theorem blockTransfer_shown_eq {direction : Direction} {indexing : Indexing}
    {offsetting : Offsetting} {statusBit other writeBack also : Bool} {registers others : Half}
    (letters : (blockTransfer direction indexing offsetting statusBit writeBack rn
        registers).operandText.toList =
      (blockTransfer direction indexing offsetting other also rn' others).operandText.toList) :
    (blockTransfer direction indexing offsetting statusBit writeBack rn registers).shown =
      (blockTransfer direction indexing offsetting other also rn' others).shown := by
  have read : rn = rn' ∧ writeBack = also ∧
      (registerListText registers statusBit).toList = (registerListText others other).toList := by
    cases writeBack <;> cases also <;> simp [operandText, writeBackText] at letters ⊢
    all_goals exact letters
  obtain ⟨rfl, rfl, listed⟩ := read
  obtain ⟨rfl, rfl⟩ := registerListText_inj listed
  rfl

end Families

/-- Instructions with the same mnemonic and the same operands show the same. -/
theorem shown_eq {one other : Instruction} (near : ∀ distance ∈ one.distances, distance < 32)
    (alsoNear : ∀ distance ∈ other.distances, distance < 32)
    (mnemonics : one.mnemonic = other.mnemonic) (operands : one.operandText = other.operandText) :
    one.shown = other.shown := by
  have stems := congrArg Mnemonic.stem mnemonics
  have endings := congrArg Mnemonic.ending mnemonics
  have letters := congrArg String.toList operands
  -- The stem tells the constructor, among the transfers of one register the ending does.
  cases one <;> cases other
  case dataProcessing.dataProcessing =>
    cases stems
    exact dataProcessing_shown_eq near alsoNear (flagsText_inj endings) letters
  case statusRead.statusRead kind _ other _ =>
    cases kind <;> cases other <;> simp [operandText, StatusKind.text] at letters
    all_goals rw [letters]
  case statusWrite.statusWrite => exact statusWrite_shown_eq letters
  case multiply.multiply variant _ _ _ _ _ _ _ _ _ _ _ =>
    cases stems
    cases variant <;> simp [operandText] at letters
    all_goals simp [shown, flagsText_inj endings, letters]
  case multiplyLong.multiplyLong =>
    cases stems
    simp [operandText] at letters
    simp [shown, flagsText_inj endings, letters]
  case swap.swap =>
    simp [operandText] at letters
    simp [shown, Quantity.text_inj endings, letters]
  case branchExchange.branchExchange => simpa [operandText, shown] using letters
  case byteReverse.byteReverse =>
    cases stems
    simpa [operandText, shown] using letters
  case halfTransfer.halfTransfer =>
    cases stems
    simp [operandText] at letters
    simp [shown, HalfKind.text_inj endings, letters,
      Addressing.shown_eq PlainOffset.legible letters.2]
  case halfTransfer.doubleTransfer => exact absurd endings (HalfKind.text_ne_double _)
  case halfTransfer.singleTransfer => exact absurd endings (HalfKind.text_ne_quantity _ _)
  case doubleTransfer.halfTransfer => exact absurd endings.symm (HalfKind.text_ne_double _)
  case doubleTransfer.doubleTransfer =>
    cases stems
    simp [operandText] at letters
    simp [shown, letters, Addressing.shown_eq PlainOffset.legible letters.2]
  case doubleTransfer.singleTransfer => exact absurd endings.symm (Quantity.text_ne_double _)
  case singleTransfer.halfTransfer => exact absurd endings.symm (HalfKind.text_ne_quantity _ _)
  case singleTransfer.doubleTransfer => exact absurd endings (Quantity.text_ne_double _)
  case singleTransfer.singleTransfer =>
    cases stems
    simp [operandText] at letters
    simp [shown, Quantity.text_inj endings, letters,
      Addressing.shown_eq ShiftedOffset.legible letters.2]
  case blockTransfer.blockTransfer =>
    cases stems
    obtain ⟨rfl, rfl⟩ := blockModeText_inj endings
    exact blockTransfer_shown_eq letters
  case branch.branch =>
    cases stems
    have offsets := (String.append_right_inj _).mp operands
    rw [BitVec.toInt_inj.mp (int_inj offsets)]
  case coprocessorTransfer.coprocessorTransfer =>
    cases stems
    simpa [operandText, shown] using letters
  case coprocessorOperation.coprocessorOperation => simpa [operandText, shown] using letters
  case coprocessorRegister.coprocessorRegister =>
    cases stems
    simpa [operandText, shown] using letters
  case softwareInterrupt.softwareInterrupt =>
    have comments := (String.append_right_inj _).mp operands
    rw [BitVec.toNat_inj.mp (hex_inj comments)]
  all_goals cases stems

end Instruction

end ArmBoard
