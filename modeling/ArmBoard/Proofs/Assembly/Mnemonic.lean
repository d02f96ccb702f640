import ArmBoard.Proofs.Assembly.Reading

/-!
# Reading mnemonics

What stands before the first blank of an assembly text is a stem, the suffix of
the condition and an ending, with nothing in between. The three can be told
apart all the same: a stem that begins another one takes no ending that would
make up the rest, and no ending begins like a suffix.
-/
namespace ArmBoard

/-- The letters of an assembly text before the condition. -/
inductive Stem where
  | dataProcessing (op : AluOp)
  | statusRead
  | statusWrite
  | multiply (variant : Multiplication)
  | multiplyLong (variant : LongMultiplication)
  | swap
  | branchExchange
  | byteReverse (variant : ByteReversal)
  | transfer (direction : Direction)
  | blockTransfer (direction : Direction)
  | branch (link : Bool)
  | coprocessorTransfer (direction : Direction)
  | coprocessorOperation
  | coprocessorRegister (direction : Direction)
  | softwareInterrupt
  deriving DecidableEq

namespace Stem

def text : Stem → String
  | dataProcessing op => op.name
  | statusRead => "MRS"
  | statusWrite => "MSR"
  | multiply variant => variant.name
  | multiplyLong variant => variant.name
  | swap => "SWP"
  | branchExchange => "BX"
  | byteReverse variant => variant.name
  | transfer direction => direction.name
  | blockTransfer direction => direction.blockName
  | branch link => "B" ++ (if link then "L" else "")
  | coprocessorTransfer direction => direction.coprocessorName
  | coprocessorOperation => "CDP"
  | coprocessorRegister direction => direction.coprocessorRegisterName
  | softwareInterrupt => "SWI"

/-- The letters that may stand after the condition. -/
def endings : Stem → List String
  | dataProcessing _ | multiply _ | multiplyLong _ => ["", "S"]
  | swap => ["", "B"]
  | transfer _ => ["", "B", "H", "SB", "SH", "D"]
  | blockTransfer _ => ["IA", "IB", "DA", "DB"]
  | _ => [""]

def all : List Stem :=
  (List.range 16).map (fun code => dataProcessing (.ofCode code)) ++
    [multiply .mul, multiply .mla, multiplyLong .umull, multiplyLong .umlal, multiplyLong .smull,
      multiplyLong .smlal, byteReverse .rev, byteReverse .rev16, byteReverse .revsh] ++
    [.store, .load].flatMap (fun direction =>
      [transfer direction, blockTransfer direction, coprocessorTransfer direction,
        coprocessorRegister direction]) ++
    [statusRead, statusWrite, swap, branchExchange, branch false, branch true,
      coprocessorOperation, softwareInterrupt]

theorem mem_all (stem : Stem) : stem ∈ all := by
  cases stem with
  | dataProcessing op => cases op <;> decide
  | multiply variant | multiplyLong variant | byteReverse variant => cases variant <;> decide
  | transfer direction | blockTransfer direction | coprocessorTransfer direction
  | coprocessorRegister direction => cases direction <;> decide
  | branch link => cases link <;> decide
  | _ => decide

/--
A stem that begins a longer one is not read for it: where a condition makes up for the missing
letters, what follows does not fit.
-/
theorem eq_or_apart : ∀ one ∈ all, ∀ other ∈ all, one.text.toList <+: other.text.toList →
    one = other ∨ ∀ code < 16, ∀ ending ∈ one.endings,
      other.text.toList <+: (one.text ++ (Condition.ofCode code).suffix ++ ending).toList →
        ∀ also < 16, ∀ last ∈ other.endings,
          one.text ++ (Condition.ofCode code).suffix ++ ending ≠
            other.text ++ (Condition.ofCode also).suffix ++ last := by
  decide +kernel

/-- No ending begins with the letters of a condition. -/
theorem al_of_suffix_isPrefix : ∀ stem ∈ all, ∀ ending ∈ stem.endings, ∀ code < 16,
    (Condition.ofCode code).suffix.toList <+: ending.toList → Condition.ofCode code = .al := by
  decide +kernel

theorem not_mem_blank : ∀ stem ∈ all,
    ' ' ∉ stem.text.toList ∧ ∀ ending ∈ stem.endings, ' ' ∉ ending.toList := by
  decide +kernel

end Stem

namespace Condition

theorem code_lt (condition : Condition) : condition.code < 16 := by
  cases condition <;> decide

theorem suffix_inj {one other : Condition} (same : one.suffix = other.suffix) : one = other := by
  have known : ∀ code < 16, ∀ also < 16, (ofCode code).suffix = (ofCode also).suffix →
      ofCode code = ofCode also := by
    decide +kernel
  have equal := known one.code one.code_lt other.code other.code_lt
  rw [ofCode_code, ofCode_code] at equal
  exact equal same

theorem length_suffix (condition : Condition) :
    condition.suffix.toList.length = if condition = .al then 0 else 2 := by
  cases condition <;> decide

theorem not_mem_suffix (condition : Condition) : ' ' ∉ condition.suffix.toList := by
  cases condition <;> decide

end Condition

/-- A stem with an ending that it takes. -/
structure Mnemonic where
  stem : Stem
  ending : String
  taken : ending ∈ stem.endings

namespace Mnemonic

def text (mnemonic : Mnemonic) (condition : Condition) : String :=
  mnemonic.stem.text ++ condition.suffix ++ mnemonic.ending

variable {one other : Mnemonic} {condition also : Condition}

theorem isPrefix_text (mnemonic : Mnemonic) (condition : Condition) :
    mnemonic.stem.text.toList <+: (mnemonic.text condition).toList := by
  rw [text, String.append_assoc, String.toList_append]
  exact List.prefix_append _ _

theorem stem_eq_of_isPrefix (same : one.text condition = other.text also)
    (front : one.stem.text.toList <+: other.stem.text.toList) : one.stem = other.stem := by
  rcases Stem.eq_or_apart _ one.stem.mem_all _ other.stem.mem_all front with equal | apart
  · exact equal
  · have begins : other.stem.text.toList <+: (one.text condition).toList :=
      same ▸ other.isPrefix_text also
    have different := apart condition.code condition.code_lt one.ending one.taken
    rw [Condition.ofCode_code] at different
    have never := different begins also.code also.code_lt other.ending other.taken
    rw [Condition.ofCode_code] at never
    exact absurd same never

theorem stem_eq (same : one.text condition = other.text also) : one.stem = other.stem := by
  have front := one.isPrefix_text condition
  have alsoFront := other.isPrefix_text also
  rw [← same] at alsoFront
  -- Of two stems that begin one text, one begins the other.
  rcases List.prefix_or_prefix_of_prefix front alsoFront with shorter | longer
  · exact stem_eq_of_isPrefix same shorter
  · exact (stem_eq_of_isPrefix same.symm longer).symm

/-- Two conditions that leave endings of one stem behind are equal. -/
theorem condition_eq {stem : Stem} {ending last : String} (taken : ending ∈ stem.endings)
    (alsoTaken : last ∈ stem.endings)
    (same : condition.suffix ++ ending = also.suffix ++ last) : condition = also := by
  have letters := congrArg String.toList same
  rw [String.toList_append, String.toList_append] at letters
  have absent {named : Condition} {word : String} (member : word ∈ stem.endings)
      (front : named.suffix.toList <+: word.toList) : named = .al := by
    have known := Stem.al_of_suffix_isPrefix stem stem.mem_all word member named.code named.code_lt
    rw [Condition.ofCode_code] at known
    exact known front
  -- Either both suffixes are empty, or both have two letters, or an ending begins with one.
  by_cases plain : condition = .al
  · subst plain
    have nothing : also = .al := absent taken ⟨last.toList, letters.symm⟩
    exact nothing.symm
  · by_cases alsoPlain : also = .al
    · subst alsoPlain
      exact absent alsoTaken ⟨ending.toList, letters⟩
    · have lengths : condition.suffix.toList.length = also.suffix.toList.length := by
        rw [condition.length_suffix, also.length_suffix, if_neg plain, if_neg alsoPlain]
      obtain ⟨suffixes, _⟩ := List.append_inj letters lengths
      exact Condition.suffix_inj (String.toList_inj.mp suffixes)

/-- The text of a mnemonic with a condition tells both. -/
theorem text_inj (same : one.text condition = other.text also) :
    one = other ∧ condition = also := by
  have stems := stem_eq same
  obtain ⟨stem, ending, taken⟩ := one
  obtain ⟨_, last, alsoTaken⟩ := other
  obtain rfl : stem = _ := stems
  simp only [text, String.append_assoc, String.append_right_inj] at same
  obtain rfl := condition_eq taken alsoTaken same
  obtain rfl : ending = last := (String.append_right_inj _).mp same
  exact ⟨rfl, rfl⟩

theorem not_mem_text (mnemonic : Mnemonic) (condition : Condition) :
    ' ' ∉ (mnemonic.text condition).toList := by
  obtain ⟨stem, endings⟩ := Stem.not_mem_blank mnemonic.stem mnemonic.stem.mem_all
  simp only [text, String.toList_append, List.mem_append, not_or]
  exact ⟨⟨stem, condition.not_mem_suffix⟩, endings mnemonic.ending mnemonic.taken⟩

end Mnemonic

end ArmBoard
