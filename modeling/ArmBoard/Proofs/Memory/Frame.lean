import ArmBoard.Memory.Paged

/-!
# What writes leave alone

A write changes no byte outside its own range, and a read depends on no byte
outside its own range. Both are said with sets of places, so that what several
writes may have changed is the union of their ranges.
-/
namespace ArmBoard.Memory

/-- The places of some bytes in a row. -/
def Within (start count place : Nat) : Prop := start ≤ place ∧ place < start + count

/-- Memory keeps its size and its bytes, apart from bytes in the given places. -/
structure ChangedIn (places : Nat → Prop) (memory changed : Memory) : Prop where
  size : changed.size = memory.size
  byteAt : ∀ place, ¬ places place → changed.byteAt place = memory.byteAt place

namespace ChangedIn

variable {places others : Nat → Prop} {first second third : Memory}

theorem refl (places : Nat → Prop) (memory : Memory) : ChangedIn places memory memory :=
  ⟨rfl, fun _ _ => rfl⟩

theorem trans (before : ChangedIn places first second) (after : ChangedIn places second third) :
    ChangedIn places first third where
  size := after.size.trans before.size
  byteAt place apart := (after.byteAt place apart).trans (before.byteAt place apart)

theorem widen (changed : ChangedIn places first second)
    (wider : ∀ place, places place → others place) : ChangedIn others first second where
  size := changed.size
  byteAt place apart := changed.byteAt place (apart ∘ wider place)

end ChangedIn

variable {places : Nat → Prop} {memory changed : Memory} {address : Word} {count : Nat}

theorem changedIn_setBytes (memory : Memory) (start : Nat) (bytes : List Byte) :
    ChangedIn (Within start bytes.length) memory (memory.setBytes start bytes) where
  size := rfl
  byteAt place apart := by
    rw [byteAt_setBytes]
    split
    · next above =>
      -- Beyond the last of the bytes nothing is stored.
      have beyond : bytes.length ≤ place - start :=
        Nat.le_of_not_lt fun inside => apart ⟨above, by omega⟩
      rw [List.getElem?_eq_none beyond]
      rfl
    · rfl

theorem changedIn_of_write {value : BitVec (8 * count)}
    (stored : memory.write count address value = .ok changed) :
    ChangedIn (Within address.toNat count) memory changed := by
  unfold write at stored
  split at stored
  · cases stored
  · cases stored
    have bytes := changedIn_setBytes memory address.toNat (Bytes.ofValue count value)
    rw [Bytes.length_ofValue] at bytes
    exact bytes

theorem changedIn_putChunk (memory : Memory) (address : Word) (bytes : List Byte) :
    ChangedIn (Within address.toNat bytes.length) memory (memory.putChunk address bytes).2 := by
  refine (changedIn_setBytes memory address.toNat _).widen ?_
  rintro place ⟨above, below⟩
  have shorter := List.length_take_le' (memory.room address bytes.length) bytes
  exact ⟨above, by omega⟩

theorem read_eq_of_changedIn (changes : ChangedIn places memory changed)
    (apart : ∀ place, Within address.toNat count place → ¬ places place) :
    changed.read count address = memory.read count address := by
  have bytes : changed.bytesAt address.toNat count = memory.bytesAt address.toNat count := by
    rw [bytesAt_eq, bytesAt_eq]
    apply List.map_congr_left
    intro index inside
    rw [List.mem_range] at inside
    exact changes.byteAt _ (apart _ ⟨by omega, by omega⟩)
  rw [read, read, check, check, changes.size, bytes]

/-- Memories that read alike somewhere have the same bytes there. -/
theorem byteAt_eq_of_read {value : BitVec (8 * count)}
    (read : memory.read count address = .ok value) (also : changed.read count address = .ok value)
    {place : Nat} (inside : Within address.toNat count place) :
    changed.byteAt place = memory.byteAt place := by
  have found {memory : Memory} (read : memory.read count address = .ok value) :
      Bytes.toValue count (memory.bytesAt address.toNat count) = value := by
    unfold Memory.read at read
    split at read
    · cases read
    · exact Except.ok.inj read
  have length (memory : Memory) : (memory.bytesAt address.toNat count).length = count := by
    rw [bytesAt_eq, List.length_map, List.length_range]
  have same := Bytes.toValue_inj (length changed) (length memory)
    ((found also).trans (found read).symm)
  rw [bytesAt_eq, bytesAt_eq, List.map_inj_left] at same
  obtain ⟨above, below⟩ := inside
  have byte := same (place - address.toNat) (List.mem_range.mpr (by omega))
  rwa [Nat.add_sub_cancel' above] at byte

theorem check_eq_ok (inside : address.toNat + count ≤ memory.size) :
    memory.check address count = .ok () := if_pos inside

/-- The fault of an access from an address up: it names the lowest byte that lies outside. -/
def beyond (memory : Memory) (address : Word) : Fault :=
  .outOfRange (max address.toNat memory.size) memory.size

theorem ChangedIn.beyond (changes : ChangedIn places memory changed) (address : Word) :
    changed.beyond address = memory.beyond address := by
  rw [Memory.beyond, Memory.beyond, changes.size]

theorem check_eq_beyond (leaves : memory.size < address.toNat + count) :
    memory.check address count = .error (memory.beyond address) := if_neg (Nat.not_le_of_lt leaves)

theorem check_eq_error (beyond : memory.size < address.toNat + count) :
    ∃ fault, memory.check address count = .error fault := ⟨_, check_eq_beyond beyond⟩

theorem write_eq_beyond (leaves : memory.size < address.toNat + count)
    (value : BitVec (8 * count)) :
    memory.write count address value = .error (memory.beyond address) := by
  rw [write, check_eq_beyond leaves]

theorem exists_read_eq_ok (inside : address.toNat + count ≤ memory.size) :
    ∃ value, memory.read count address = .ok value := by
  rw [read, check_eq_ok inside]
  exact ⟨_, rfl⟩

theorem exists_write_eq_ok (inside : address.toNat + count ≤ memory.size)
    (value : BitVec (8 * count)) : ∃ written, memory.write count address value = .ok written := by
  rw [write, check_eq_ok inside]
  exact ⟨_, rfl⟩

end ArmBoard.Memory
