import ArmBoard.Execution.Core
import ArmBoard.Proofs.Memory.Frame

/-!
# Words in a row

Words that are stored one after the other. Their addresses may wrap around the
end of the address space, but no two of a few words share a byte, so that every
word is still there when the last one has been stored. It depends on memory
alone whether all of them can be stored, and nothing but them is changed.
-/
namespace ArmBoard.Memory

/-- Words lie one after the other from an address up. -/
def HoldsWords (memory : Memory) : Word → List Word → Prop
  | _, [] => True
  | address, word :: rest =>
      memory.readWord address = .ok word ∧ memory.HoldsWords (address + instructionSize) rest

/-- The places of a number of words one after the other. -/
def WithinWords (address : Word) (count place : Nat) : Prop :=
  ∃ index < count, Within (address + BitVec.ofNat 32 (4 * index)).toNat 4 place

/-- Each of a number of words one after the other can be read. -/
def ReadableWords (memory : Memory) (address : Word) (count : Nat) : Prop :=
  ∀ index < count, ∃ word, memory.readWord (address + BitVec.ofNat 32 (4 * index)) = .ok word

/-- Each of a number of words one after the other can be written. -/
def WritableWords (memory : Memory) (address : Word) (count : Nat) : Prop :=
  ∀ index < count, ∀ word, ∃ written,
    memory.writeWord (address + BitVec.ofNat 32 (4 * index)) word = .ok written

/-- Memory in which words have been stored one after the other. -/
inductive WritesWords : Memory → Word → List Word → Memory → Prop
  | nil {memory : Memory} {address : Word} : WritesWords memory address [] memory
  | cons {memory between written : Memory} {address word : Word} {rest : List Word}
      (first : memory.writeWord address word = .ok between)
      (later : WritesWords between (address + instructionSize) rest written) :
      WritesWords memory address (word :: rest) written

variable {memory written : Memory} {address : Word} {words : List Word} {count place : Nat}

section Places

theorem address_add_zero (address : Word) : address + BitVec.ofNat 32 (4 * 0) = address :=
  BitVec.add_zero address

theorem address_add_succ (address : Word) (index : Nat) :
    address + BitVec.ofNat 32 (4 * (index + 1)) =
      address + instructionSize + BitVec.ofNat 32 (4 * index) := by
  rw [Nat.mul_succ, Nat.add_comm (4 * index), BitVec.ofNat_add, ← BitVec.add_assoc]
  rfl

theorem withinWords_of_first (first : Within address.toNat 4 place) :
    WithinWords address (count + 1) place := by
  refine ⟨0, Nat.succ_pos count, ?_⟩
  rwa [address_add_zero]

theorem withinWords_of_later (later : WithinWords (address + instructionSize) count place) :
    WithinWords address (count + 1) place := by
  obtain ⟨index, below, within⟩ := later
  refine ⟨index + 1, Nat.succ_lt_succ below, ?_⟩
  rwa [address_add_succ]

/-- The words of a row do not reach round to its first one. -/
theorem apart_of_withinWords (few : count ≤ 16) (first : Within address.toNat 4 place) :
    ¬ WithinWords (address + instructionSize) count place := by
  -- Seventeen words are far from filling the address space, so that a wrap does not matter.
  rintro ⟨index, below, above, bound⟩
  obtain ⟨start, finish⟩ := first
  have bounded := address.isLt
  have size : instructionSize.toNat = 4 := rfl
  rw [BitVec.toNat_add, BitVec.toNat_add, size, BitVec.toNat_ofNat] at above bound
  omega

end Places

section Reading

theorem size_of_readWord {word : Word} (read : memory.readWord address = .ok word) :
    address.toNat + 4 ≤ memory.size := by
  by_cases inside : address.toNat + 4 ≤ memory.size
  · exact inside
  · obtain ⟨fault, beyond⟩ := check_eq_error (Nat.lt_of_not_le inside)
    rw [readWord, Memory.read, beyond] at read
    cases read

theorem size_of_writeWord {word : Word} (stored : memory.writeWord address word = .ok written) :
    address.toNat + 4 ≤ memory.size := by
  by_cases inside : address.toNat + 4 ≤ memory.size
  · exact inside
  · obtain ⟨fault, beyond⟩ := check_eq_error (Nat.lt_of_not_le inside)
    rw [writeWord, write, beyond] at stored
    cases stored

/-- What can be read can be written. -/
theorem ReadableWords.writable (readable : memory.ReadableWords address count) :
    memory.WritableWords address count := by
  intro index below word
  obtain ⟨_, read⟩ := readable index below
  exact exists_write_eq_ok (size_of_readWord read) word

/-- Memory holds words exactly if each of them is found in its place. -/
theorem holdsWords_iff :
    memory.HoldsWords address words ↔ ∀ index word, words[index]? = some word →
      memory.readWord (address + BitVec.ofNat 32 (4 * index)) = .ok word := by
  induction words generalizing address with
  | nil => simp [HoldsWords]
  | cons first rest ih =>
    rw [HoldsWords, ih]
    constructor
    · rintro ⟨here, later⟩ index word found
      cases index with
      | zero =>
        cases found
        rwa [address_add_zero]
      | succ index =>
        rw [address_add_succ]
        exact later index word found
    · intro all
      have here := all 0 first rfl
      rw [address_add_zero] at here
      refine ⟨here, fun index word found => ?_⟩
      have there := all (index + 1) word found
      rwa [address_add_succ] at there

theorem HoldsWords.readable (holds : memory.HoldsWords address words) :
    memory.ReadableWords address words.length := fun index below =>
  ⟨words[index], holdsWords_iff.mp holds index _ (List.getElem?_eq_getElem below)⟩

theorem HoldsWords.of_changedIn {places : Nat → Prop} {changed : Memory}
    (holds : memory.HoldsWords address words) (changes : ChangedIn places memory changed)
    (apart : ∀ place, WithinWords address words.length place → ¬ places place) :
    changed.HoldsWords address words := by
  rw [holdsWords_iff] at holds ⊢
  intro index word found
  obtain ⟨below, _⟩ := List.getElem?_eq_some_iff.mp found
  rw [← holds index word found]
  exact read_eq_of_changedIn changes fun place within => apart place ⟨index, below, within⟩

end Reading

section Writing

theorem WritableWords.of_succ (writable : memory.WritableWords address (count + 1)) :
    (∀ word, ∃ written, memory.writeWord address word = .ok written) ∧
      memory.WritableWords (address + instructionSize) count := by
  refine ⟨fun word => ?_, fun index below word => ?_⟩
  · have first := writable 0 (Nat.succ_pos count) word
    rwa [address_add_zero] at first
  · have later := writable (index + 1) (Nat.succ_lt_succ below) word
    rwa [address_add_succ] at later

/-- Whether words can be written depends on the size of memory alone. -/
theorem WritableWords.of_size {other : Memory} (writable : memory.WritableWords address count)
    (size : other.size = memory.size) : other.WritableWords address count := by
  intro index below word
  obtain ⟨_, stored⟩ := writable index below word
  have inside := size_of_writeWord stored
  rw [← size] at inside
  exact exists_write_eq_ok inside word

theorem exists_writesWords (writable : memory.WritableWords address words.length) :
    ∃ written, WritesWords memory address words written := by
  induction words generalizing memory address with
  | nil => exact ⟨memory, .nil⟩
  | cons word rest ih =>
    obtain ⟨first, later⟩ := writable.of_succ
    obtain ⟨between, stored⟩ := first word
    obtain ⟨written, writes⟩ := ih (later.of_size (changedIn_of_write stored).size)
    exact ⟨written, .cons stored writes⟩

namespace WritesWords

theorem changedIn (writes : WritesWords memory address words written) :
    ChangedIn (WithinWords address words.length) memory written := by
  induction writes with
  | nil => exact .refl _ _
  | cons stored _ ih =>
    exact ((changedIn_of_write stored).widen fun _ => withinWords_of_first).trans
      (ih.widen fun _ => withinWords_of_later)

/-- By induction on the row: what is stored later leaves the first word alone. -/
theorem holdsWords (writes : WritesWords memory address words written)
    (few : words.length ≤ 17) : written.HoldsWords address words := by
  induction writes with
  | nil => trivial
  | cons stored later ih =>
    rw [List.length_cons] at few
    refine ⟨?_, ih (by omega)⟩
    rw [← read_write stored]
    exact read_eq_of_changedIn later.changedIn fun place first =>
      apart_of_withinWords (by omega) first

end WritesWords

end Writing

end ArmBoard.Memory
