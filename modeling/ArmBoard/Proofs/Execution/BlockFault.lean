import ArmBoard.Proofs.Execution.BlockTransfer

/-!
# Block transfers that stop halfway

A block is transferred word by word, and the first word that lies outside memory
stops the transfer. What has been done by then stays done, and it is what a
transfer of the words before would have done, except that a store updates its
base only when it has stored a word.
-/
namespace ArmBoard

namespace Memory

/-- The word at a position is the first of a row that lies outside memory. -/
structure LeavesAt (memory : Memory) (start : Word) (position : Nat) : Prop where
  before : ∀ earlier < position,
    (start + BitVec.ofNat 32 (4 * earlier)).toNat + 4 ≤ memory.size
  here : memory.size < (start + BitVec.ofNat 32 (4 * position)).toNat + 4

variable {memory : Memory} {start : Word} {position : Nat}

theorem LeavesAt.readable (leaves : memory.LeavesAt start position) :
    memory.ReadableWords start position := fun earlier below =>
  exists_read_eq_ok (leaves.before earlier below)

end Memory

namespace Core

open ArmBoard.Action

variable {core : Core} {rn : Fin 16} {listed : List (Fin 16)} {start newBase : Word}
  {writeBack : Bool} {position : Nat}

section Splitting

/-- A block is stored front first, and the base is updated in the front if there is one. -/
theorem storeBlock_append (rn : Nat) (front back : List (Fin 16)) (address : Word)
    (newBase? : Option Word) :
    storeBlock rn (front ++ back) address newBase? = (do
      storeBlock rn front address newBase?
      storeBlock rn back (address + BitVec.ofNat 32 (4 * front.length))
        (if front = [] then newBase? else none)) := by
  induction front generalizing address newBase? with
  | nil =>
    rw [List.nil_append, storeBlock, pure_bind, if_pos rfl, List.length_nil,
      Memory.address_add_zero]
  | cons number front ih =>
    rw [List.cons_append, storeBlock, storeBlock, if_neg (List.cons_ne_nil number front),
      List.length_cons, Memory.address_add_succ, ih, ite_self]
    cases newBase? <;> simp only [bind_assoc]

theorem loadBlock_append (front back : List (Fin 16)) (address : Word) :
    loadBlock (front ++ back) address = (do
      loadBlock front address
      loadBlock back (address + BitVec.ofNat 32 (4 * front.length))) := by
  induction front generalizing address with
  | nil => rw [List.nil_append, loadBlock, pure_bind, List.length_nil, Memory.address_add_zero]
  | cons number front ih =>
    rw [List.cons_append, loadBlock, loadBlock, List.length_cons, Memory.address_add_succ, ih]
    simp only [bind_assoc]

/-- The list is cut in front of a position that it has. -/
theorem exists_take_append (below : position < listed.length) :
    ∃ front number rest, listed = front ++ number :: rest ∧ listed.take position = front ∧
      front.length = position := by
  refine ⟨listed.take position, listed[position], listed.drop (position + 1), ?_, rfl, ?_⟩
  · rw [← List.drop_eq_getElem_cons below, List.take_append_drop]
  · rw [List.length_take, Nat.min_eq_left (Nat.le_of_lt below)]

end Splitting

section Stopping

theorem storeBlock_beyond {newBase? : Option Word} {number : Fin 16} {rest : List (Fin 16)}
    (silent : core.bus.registry.subscriptions = [])
    (leaves : core.bus.memory.size < start.toNat + 4) :
    (storeBlock rn (number :: rest) start newBase?).perform core =
      (.error (core.bus.memory.beyond start), core) := by
  rw [perform_storeBlock_cons silent, Memory.writeWord, Memory.write_eq_beyond leaves]

theorem loadBlock_beyond {number : Fin 16} {rest : List (Fin 16)}
    (leaves : core.bus.memory.size < start.toNat + 4) :
    (loadBlock (number :: rest) start).perform core =
      (.error (core.bus.memory.beyond start), core) := by
  rw [loadBlock, perform_bind, loadWord, perform_load_beyond leaves]

variable (silent : core.bus.registry.subscriptions = []) (below : position < listed.length)
  (leaves : core.bus.memory.LeavesAt start position)
include silent below leaves

/-- A block store that does not get to its end has stored the words before. -/
theorem storeBlock_stops (other : writeBack = true → rn ≠ 15) (few : listed.length ≤ 16) :
    ∃ stopped, (storeBlock rn listed start (if writeBack then some newBase else none)).perform core =
        (.error (core.bus.memory.beyond (start + BitVec.ofNat 32 (4 * position))), stopped) ∧
      (position = 0 → stopped = core) ∧
      (0 < position → BlockStored writeBack rn (listed.take position) start newBase core stopped) := by
  obtain ⟨front, number, rest, rfl, taken, rfl⟩ := exists_take_append below
  rw [taken]
  by_cases begun : front = []
  · -- The first word of all is outside, so that the base has not been updated either.
    subst begun
    have here := leaves.here
    rw [List.length_nil, Memory.address_add_zero] at here ⊢
    exact ⟨core, storeBlock_beyond silent here, fun _ => rfl, fun more => absurd more (Nat.lt_irrefl 0)⟩
  · have short : front.length ≤ 16 := by
      rw [List.length_append] at few
      omega
    obtain ⟨stopped, performed, stores⟩ := @exists_blockStored core writeBack rn front start newBase
      silent other short (absurd · begun) leaves.readable.writable
    -- Memory is as large as before, and the word behind the stored ones is still outside.
    have here := leaves.here
    rw [← stores.elsewhere.size] at here
    have quiet : stopped.bus.registry.subscriptions = [] := by
      rw [stores.bus]
      exact silent
    refine ⟨stopped, ?_, fun empty => absurd (List.length_eq_zero_iff.mp empty) begun, fun _ => stores⟩
    rw [storeBlock_append, perform_bind, performed]
    dsimp only
    rw [storeBlock_beyond quiet here, stores.elsewhere.beyond]

/-- A block load that does not get to its end has loaded the words before. -/
theorem loadBlock_stops (distinct : listed.Nodup) :
    ∃ stopped, (loadBlock listed start).perform { core with
          cpu.registers :=
            core.cpu.registers.rebased rn (if writeBack then some newBase else none) } =
        (.error (core.bus.memory.beyond (start + BitVec.ofNat 32 (4 * position))), stopped) ∧
      BlockLoaded writeBack rn (listed.take position) start newBase core stopped := by
  obtain ⟨front, number, rest, rfl, taken, rfl⟩ := exists_take_append below
  rw [taken]
  obtain ⟨stopped, performed, loads⟩ := @exists_blockLoaded core writeBack rn front start newBase
    silent (List.nodup_append.mp distinct).1 leaves.readable
  have here := leaves.here
  rw [← loads.bus] at here
  refine ⟨stopped, ?_, loads⟩
  rw [loadBlock_append, perform_bind, performed]
  dsimp only
  rw [loadBlock_beyond here, loads.bus]

end Stopping

/--
A decoded block transfer that finds one of its words outside memory stops there, with the fault of
that word. A store has changed nothing if it was the first word, and otherwise has stored the words
before it as a successful store would have, and updated the base. A load has loaded the words
before it and updated the base if it has not loaded that. In no case is r15 changed.
-/
theorem failing_block_transfers_stop_at_their_fault {word : Word} {direction : Direction}
    {indexing : Indexing} {offsetting : Offsetting} {statusBit writeBack : Bool} {number : Nat}
    {registers : Half}
    (decoded : Opcode.decode word = .ok
      ⟨.blockTransfer direction indexing offsetting statusBit writeBack number registers, .al, word⟩)
    (silent : core.bus.registry.subscriptions = []) :
    ∃ rn : Fin 16, rn.val = number ∧
      let listed := listedRegisters registers
      let base := core.cpu.registers.get rn
      let start := blockStart indexing offsetting base listed.length
      let newBase := movedBase offsetting base listed.length
      let opcode : Opcode :=
        ⟨.blockTransfer direction indexing offsetting statusBit writeBack number registers, .al, word⟩
      ∀ position < listed.length, core.bus.memory.LeavesAt start position →
        ∃ stopped, (execute opcode).perform core =
            (.error (core.bus.memory.beyond (start + BitVec.ofNat 32 (4 * position))), stopped) ∧
          stopped.cpu.registers.pc = core.cpu.registers.pc ∧
          (direction = .store →
            (position = 0 → stopped = core) ∧
            (0 < position →
              BlockStored writeBack rn (listed.take position) start newBase core stopped)) ∧
          (direction = .load →
            BlockLoaded writeBack rn (listed.take position) start newBase core stopped) := by
  have bounds := Opcode.withinBounds_of_decode decoded
  have inside : number < 16 := bounds.registers_lt number (by simp [Instruction.registers])
  obtain ⟨rn, rfl⟩ : ∃ rn : Fin 16, rn.val = number := ⟨⟨number, inside⟩, rfl⟩
  have other : writeBack = true → rn ≠ 15 := fun writes counter =>
    Instruction.blockTransfer_accepted bounds.accepted writes (congrArg Fin.val counter)
  refine ⟨rn, rfl, ?_⟩
  intro listed base start newBase opcode position below leaves
  have finish (stopped : Core)
      (performed : (performInstruction word opcode.instruction).perform core =
        (.error (core.bus.memory.beyond (start + BitVec.ofNat 32 (4 * position))), stopped)) :
      (execute opcode).perform core =
          (.error (core.bus.memory.beyond (start + BitVec.ofNat 32 (4 * position))), stopped) ∧
        stopped.cpu.registers.pc = core.cpu.registers.pc := by
    have executed := execute_of_stopped (show core.cpu.status.passes opcode.condition = _ from rfl)
      performed
    exact ⟨executed, (execute_raised bounds executed).2⟩
  cases direction with
  | store =>
    obtain ⟨stopped, performed, first, later⟩ :=
      storeBlock_stops silent below leaves other (length_listedRegisters_le registers)
    obtain ⟨executed, kept⟩ := finish stopped (by
      dsimp only [opcode, performInstruction]
      rw [perform_blockStore, boundsOf_eq]
      exact performed)
    exact ⟨stopped, executed, kept, fun _ => ⟨first, later⟩,
      fun loads => absurd loads (by decide)⟩
  | load =>
    have distinct : listed.Nodup := (ascending_listedRegisters registers).imp Fin.ne_of_lt
    obtain ⟨stopped, performed, loads⟩ := loadBlock_stops silent below leaves distinct
    obtain ⟨executed, kept⟩ := finish stopped (by
      dsimp only [opcode, performInstruction]
      rw [perform_blockLoad, boundsOf_eq]
      exact performed)
    exact ⟨stopped, executed, kept, fun stores => absurd stores (by decide), fun _ => loads⟩

/-- Every register holds its number, and there are only four words of memory. -/
def numberedInFourWords : Core where
  cpu := numbered.cpu
  bus := .ofMemory (.blank 0x10 2)

/--
`STMIA r4!, {r1, r4, r5, r6}` finds no place for its fourth word, and `LDMIA` finds none to load
it from. The base is stored updated by the one and loaded by the other.
-/
theorem block_across_the_end_of_memory :
    ∃ stored loaded : Core,
      (execute ⟨.blockTransfer .store .post .up false true 4 0x72, .al, 0xE8A40072⟩).perform
        numberedInFourWords = (.error (.outOfRange 0x10 0x10), stored) ∧
      stored.cpu.registers.get 4 = 0x14 ∧ stored.bus.memory.readWord 4 = .ok 1 ∧
      stored.bus.memory.readWord 8 = .ok 0x14 ∧ stored.bus.memory.readWord 0xC = .ok 5 ∧
      (execute ⟨.blockTransfer .load .post .up false true 4 0x72, .al, 0xE8B40072⟩).perform
        numberedInFourWords = (.error (.outOfRange 0x10 0x10), loaded) ∧
      loaded.cpu.registers.get 1 = 0 ∧ loaded.cpu.registers.get 4 = 0 ∧
      loaded.cpu.registers.get 5 = 0 ∧ loaded.cpu.registers.get 6 = 6 := by
  have listed : listedRegisters 0x72 = [1, 4, 5, 6] := by decide
  have stores : Opcode.decode 0xE8A40072 =
    .ok ⟨.blockTransfer .store .post .up false true 4 0x72, .al, 0xE8A40072⟩ := rfl
  have loads : Opcode.decode 0xE8B40072 =
    .ok ⟨.blockTransfer .load .post .up false true 4 0x72, .al, 0xE8B40072⟩ := rfl
  have silent : numberedInFourWords.bus.registry.subscriptions = [] := rfl
  have base : numberedInFourWords.cpu.registers.get 4 = 4 := rfl
  have start : blockStart .post .up 4 [(1 : Fin 16), 4, 5, 6].length = 4 := rfl
  have newBase : movedBase .up 4 [(1 : Fin 16), 4, 5, 6].length = 0x14 := rfl
  have leaves : numberedInFourWords.bus.memory.LeavesAt 4 3 := ⟨by decide, by decide⟩
  obtain ⟨rn, same, storing⟩ := failing_block_transfers_stop_at_their_fault stores silent
  obtain rfl : rn = 4 := Fin.ext same
  dsimp only at storing
  rw [listed, base, start, newBase] at storing
  obtain ⟨stored, stops, _, left, _⟩ := storing 3 (by decide) leaves
  obtain ⟨rn, same, loading⟩ := failing_block_transfers_stop_at_their_fault loads silent
  obtain rfl : rn = 4 := Fin.ext same
  dsimp only at loading
  rw [listed, base, start, newBase] at loading
  obtain ⟨loaded, alsoStops, _, _, brought⟩ := loading 3 (by decide) leaves
  have left := (left rfl).2 (by decide)
  have brought := brought rfl
  refine ⟨stored, loaded, stops, left.base, left.words 0 1 rfl, left.words 1 4 rfl,
    left.words 2 5 rfl, alsoStops, ?_, ?_, ?_, brought.others 6 (by decide) (by decide)⟩
  · exact (Except.ok.inj (brought.words 0 1 rfl)).symm
  · exact (Except.ok.inj (brought.words 1 4 rfl)).symm
  · exact (Except.ok.inj (brought.words 2 5 rfl)).symm

end Core

end ArmBoard
