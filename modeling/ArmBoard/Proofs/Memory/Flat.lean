import Mathlib.Algebra.Group.Nat.Defs
import Mathlib.Data.Nat.Find
import ArmBoard.Proofs.Memory.Frame

/-!
# Paged memory refines a flat one

A flat memory is a list of bytes. Its values are read and written as numbers in
base 256, and an access succeeds if it ends within the list. Whatever operations
are performed on paged memory, at whatever addresses and with pages of whatever
size, the flat memory gives the same answers and ends with the same bytes.
-/
namespace ArmBoard

/-- One plain operation on memory. -/
inductive Access where
  | read (width : Width) (address : Word)
  | write (width : Width) (address : Word) (value : BitVec (8 * width.bytes))
  | putChunk (address : Word) (bytes : List Byte)
  | chunk (address : Word) (count : Nat)

/-- What an operation answers. -/
inductive Answer where
  | value (number : Nat)
  | done
  | count (count : Nat)
  | bytes (bytes : List Byte)
  deriving DecidableEq

namespace Access

/-- Whether the byte at an address lies in the range that the operation writes. -/
def writesTo (query : Nat) : Access → Bool
  | write width address _ => address.toNat ≤ query && query < address.toNat + width.bytes
  | putChunk address bytes => address.toNat ≤ query && query < address.toNat + bytes.length
  | read _ _ | chunk _ _ => false

/-- Performs operations one after the other and collects their answers. -/
def performAll {σ : Type} (perform : Access → σ → Except Fault Answer × σ) :
    List Access → σ → List (Except Fault Answer) × σ
  | [], state => ([], state)
  | access :: rest, state =>
      let (answer, next) := perform access state
      let (answers, last) := performAll perform rest next
      (answer :: answers, last)

end Access

/-- A row of bytes. -/
structure Flat where
  cells : List Byte
  deriving DecidableEq

namespace Flat

/-- A number of zeros. -/
def blank (size : Nat) : Flat := ⟨List.replicate size 0⟩

def size (flat : Flat) : Nat := flat.cells.length

/-- The number that bytes stand for in base 256, the first one counting least. -/
def number : List Byte → Nat
  | [] => 0
  | byte :: rest => byte.toNat + 256 * number rest

/-- The lowest digits of a number in base 256, the first one counting least. -/
def digits (count number : Nat) : List Byte :=
  (List.range count).map fun index => BitVec.ofNat 8 (number / 256 ^ index)

/-- At most `count` bytes from an address up, as many as there are. -/
def slice (flat : Flat) (address count : Nat) : List Byte := (flat.cells.drop address).take count

/-- The row with the bytes from an address up replaced. -/
def splice (flat : Flat) (address : Nat) (bytes : List Byte) : Flat :=
  ⟨flat.cells.take address ++ bytes ++ flat.cells.drop (address + bytes.length)⟩

/-- Reports the lowest of `count` addresses from one up at which there is no byte. -/
def outside (flat : Flat) (address count : Nat) : Fault :=
  let touched := (List.range' address count).find? fun touched => flat.size ≤ touched
  .outOfRange (touched.getD address) flat.size

/-- Performs an operation. -/
def perform (access : Access) (flat : Flat) : Except Fault Answer × Flat :=
  match access with
  | .read width address =>
      if address.toNat + width.bytes ≤ flat.size then
        (.ok (.value (number (flat.slice address.toNat width.bytes))), flat)
      else (.error (flat.outside address.toNat width.bytes), flat)
  | .write width address value =>
      if address.toNat + width.bytes ≤ flat.size then
        (.ok .done, flat.splice address.toNat (digits width.bytes value.toNat))
      else (.error (flat.outside address.toNat width.bytes), flat)
  | .putChunk address bytes =>
      let fitting := Nat.findGreatest (fun count => address.toNat + count ≤ flat.size) bytes.length
      (.ok (.count fitting), flat.splice address.toNat (bytes.take fitting))
  | .chunk address count => (.ok (.bytes (flat.slice address.toNat count)), flat)

end Flat

namespace Bytes

theorem number_lt (bytes : List Byte) : Flat.number bytes < 256 ^ bytes.length := by
  induction bytes with
  | nil => exact Nat.one_pos
  | cons byte rest ih =>
    have bound : byte.toNat < 256 := byte.isLt
    simp only [Flat.number, List.length_cons, Nat.pow_succ]
    omega

/-- Assembling bytes by shifts gives the number they stand for. -/
theorem toNat_toValue {count : Nat} {bytes : List Byte} (fits : bytes.length ≤ count) :
    (toValue count bytes).toNat = Flat.number bytes := by
  induction bytes with
  | nil => simp [toValue, Flat.number]
  | cons byte rest ih =>
    rw [List.length_cons] at fits
    have low : byte.toNat < 2 ^ 8 := byte.isLt
    have room : 256 ^ (rest.length + 1) ≤ 256 ^ count := Nat.pow_le_pow_right (by decide) fits
    have bound := number_lt rest
    have width : 2 ^ (8 * count) = 256 ^ count := by rw [Nat.pow_mul]
    have first : byte.toNat < 2 ^ (8 * count) := by
      have one : 256 ^ 1 ≤ 256 ^ count := Nat.pow_le_pow_right (by decide) (by omega)
      omega
    have others : Flat.number rest * 2 ^ 8 < 2 ^ (8 * count) := by
      rw [Nat.pow_succ] at room
      omega
    -- The first byte takes the lowest eight bits and the others lie above, so nothing overlaps.
    rw [toValue, BitVec.toNat_or, BitVec.toNat_setWidth, Nat.mod_eq_of_lt first,
      BitVec.toNat_shiftLeft, ih (by omega), Nat.shiftLeft_eq, Nat.mod_eq_of_lt others,
      Nat.or_comm, ← Nat.shiftLeft_eq, ← Nat.shiftLeft_add_eq_or_of_lt low, Nat.shiftLeft_eq,
      Flat.number]
    omega

theorem ofValue_eq_digits {w : Nat} (count : Nat) (value : BitVec w) :
    ofValue count value = Flat.digits count value.toNat := by
  induction count generalizing value with
  | zero => rfl
  | succ count ih =>
    have first : value.setWidth 8 = BitVec.ofNat 8 (value.toNat / 256 ^ 0) := by
      apply BitVec.eq_of_toNat_eq
      rw [Nat.pow_zero, Nat.div_one, BitVec.toNat_setWidth, BitVec.toNat_ofNat]
    have next (index : Nat) :
        (value >>> 8).toNat / 256 ^ index = value.toNat / 256 ^ (index + 1) := by
      rw [BitVec.toNat_ushiftRight, Nat.shiftRight_eq_div_pow, Nat.div_div_eq_div_mul,
        @Nat.pow_succ' 256]
    rw [ofValue, ih, Flat.digits, Flat.digits, List.range_succ_eq_map, List.map_cons, List.map_map,
      first]
    simp only [next, Function.comp_def, Nat.succ_eq_add_one]

end Bytes

namespace Memory

/-- Performs an operation on paged memory. -/
def perform (access : Access) (memory : Memory) : Except Fault Answer × Memory :=
  match access with
  | .read width address =>
      match memory.read width.bytes address with
      | .ok value => (.ok (.value value.toNat), memory)
      | .error fault => (.error fault, memory)
  | .write width address value =>
      match memory.write width.bytes address value with
      | .ok written => (.ok .done, written)
      | .error fault => (.error fault, memory)
  | .putChunk address bytes =>
      let (count, written) := memory.putChunk address bytes
      (.ok (.count count), written)
  | .chunk address count => (.ok (.bytes (memory.chunk address count)), memory)

/-- All bytes of the memory in a row. -/
def flat (memory : Memory) : Flat := ⟨(List.range memory.size).map memory.byteAt⟩

theorem size_flat (memory : Memory) : memory.flat.size = memory.size := by
  simp [flat, Flat.size]

theorem flat_blank (size pageBits : Nat) : (blank size pageBits).flat = .blank size := by
  rw [flat, Flat.blank, Flat.mk.injEq, List.eq_replicate_iff]
  refine ⟨by simp [blank], fun byte member => ?_⟩
  obtain ⟨address, _, rfl⟩ := List.mem_map.mp member
  exact byteAt_blank size pageBits address

/-- Bytes within memory are a slice of the row. -/
theorem bytesAt_eq_slice {memory : Memory} {address count : Nat}
    (inside : address + count ≤ memory.size) :
    memory.bytesAt address count = memory.flat.slice address count := by
  rw [bytesAt_eq]
  refine List.ext_getElem ?_ fun index bound other => ?_
  · simp [flat, Flat.slice]
    omega
  · simp [flat, Flat.slice]

theorem chunk_eq_slice (memory : Memory) (address : Word) (count : Nat) :
    memory.chunk address count = memory.flat.slice address.toNat count := by
  rw [chunk, bytesAt_eq]
  refine List.ext_getElem ?_ fun index bound other => ?_
  · simp [flat, Flat.slice, room]
    omega
  · simp [flat, Flat.slice]

/-- Replacing bytes within memory splices them into the row. -/
theorem flat_setBytes {memory : Memory} {address : Nat} {bytes : List Byte}
    (inside : bytes = [] ∨ address + bytes.length ≤ memory.size) :
    (memory.setBytes address bytes).flat = memory.flat.splice address bytes := by
  rcases inside with rfl | inside
  · simp [flat, Flat.splice, setBytes, Pages.writeBytes]
  · rw [flat, Flat.splice, Flat.mk.injEq, size_setBytes]
    refine List.ext_getElem ?_ fun index bound other => ?_
    · simp [flat]
      omega
    · simp only [List.length_map, List.length_range] at bound
      -- A byte lies before the replaced ones, among them or behind them.
      simp only [flat, List.getElem_map, List.getElem_range, byteAt_setBytes, List.getElem_append,
        List.getElem_take, List.getElem_drop, List.length_append, List.length_take, List.length_map,
        List.length_range, show min address memory.size = address by omega]
      by_cases before : index < address
      · simp [before, show ¬ address ≤ index by omega, show index < address + bytes.length by omega]
      · by_cases within : index < address + bytes.length
        · have place : index - address < bytes.length := by omega
          simp [before, within, place, show address ≤ index by omega]
        · have place : bytes.length ≤ index - address := by omega
          have back : address + bytes.length + (index - (address + bytes.length)) = index := by omega
          simp [within, place, back]

/-- The reported address is the lowest of those touched that lies outside. -/
theorem outside_flat {memory : Memory} {address count : Nat} (positive : 0 < count)
    (beyond : ¬ address + count ≤ memory.size) :
    memory.flat.outside address count = .outOfRange (max address memory.size) memory.size := by
  have found : (List.range' address count).find? (fun touched => memory.flat.size ≤ touched) =
      .some (max address memory.size) := by
    rw [List.find?_range'_eq_some, List.mem_range'_1, size_flat, decide_eq_true_eq]
    refine ⟨Nat.le_max_right _ _, by omega, fun lower above below => ?_⟩
    rw [Bool.not_eq_true', decide_eq_false_iff_not]
    omega
  rw [Flat.outside, found, size_flat]
  rfl

theorem room_eq_findGreatest (memory : Memory) (address : Word) (count : Nat) :
    memory.room address count =
      Nat.findGreatest (fun fitting => address.toNat + fitting ≤ memory.flat.size) count := by
  symm
  rw [Nat.findGreatest_eq_iff, size_flat, room]
  refine ⟨Nat.min_le_right _ _, fun positive => ?_, fun fitting above below => ?_⟩
  · omega
  · omega

theorem bytes_pos (width : Width) : 0 < width.bytes := by cases width <;> decide

theorem check_of_beyond {memory : Memory} {address : Word} {count : Nat} (positive : 0 < count)
    (beyond : ¬ address.toNat + count ≤ memory.size) :
    memory.check address count = .error (memory.flat.outside address.toNat count) := by
  rw [outside_flat positive beyond]
  exact if_neg beyond

/-- The flat memory gives the answer of the paged one and stays its image. -/
theorem perform_flat (access : Access) (memory : Memory) :
    Flat.perform access memory.flat =
      ((perform access memory).1, (perform access memory).2.flat) := by
  cases access with
  | read width address =>
    simp only [Flat.perform, perform, read, size_flat]
    by_cases inside : address.toNat + width.bytes ≤ memory.size
    · have value : (Bytes.toValue width.bytes (memory.bytesAt address.toNat width.bytes)).toNat =
          Flat.number (memory.flat.slice address.toNat width.bytes) := by
        rw [bytesAt_eq_slice inside]
        exact Bytes.toNat_toValue (List.length_take_le _ _)
      rw [if_pos inside, check_eq_ok inside]
      dsimp only
      rw [value]
    · rw [if_neg inside, check_of_beyond (bytes_pos width) inside]
  | write width address value =>
    simp only [Flat.perform, perform, write, size_flat]
    by_cases inside : address.toNat + width.bytes ≤ memory.size
    · have spliced : (memory.setBytes address.toNat (Bytes.ofValue width.bytes value)).flat =
          memory.flat.splice address.toNat (Flat.digits width.bytes value.toNat) := by
        rw [flat_setBytes (Or.inr (by rwa [Bytes.length_ofValue])), Bytes.ofValue_eq_digits]
      rw [if_pos inside, check_eq_ok inside]
      dsimp only
      rw [spliced]
    · rw [if_neg inside, check_of_beyond (bytes_pos width) inside]
  | putChunk address bytes =>
    have spliced : (memory.setBytes address.toNat
        (bytes.take (memory.room address bytes.length))).flat =
          memory.flat.splice address.toNat (bytes.take (memory.room address bytes.length)) := by
      refine flat_setBytes ?_
      rw [room]
      by_cases above : address.toNat ≤ memory.size
      · right
        rw [List.length_take]
        omega
      · -- Behind the end of memory no byte fits.
        left
        rw [show memory.size - address.toNat = 0 by omega, Nat.zero_min, List.take_zero]
    simp only [Flat.perform, perform, putChunk, ← room_eq_findGreatest]
    rw [spliced]
  | chunk address count =>
    simp only [Flat.perform, perform, chunk_eq_slice]

theorem performAll_flat (accesses : List Access) (memory : Memory) :
    Access.performAll Flat.perform accesses memory.flat =
      ((Access.performAll perform accesses memory).1,
        (Access.performAll perform accesses memory).2.flat) := by
  induction accesses generalizing memory with
  | nil => rfl
  | cons access rest ih =>
    simp only [Access.performAll, perform_flat access memory, ih]

/-- An operation leaves every byte alone that it does not write. -/
theorem byteAt_perform {access : Access} {query : Nat} (apart : access.writesTo query = false)
    (memory : Memory) : (perform access memory).2.byteAt query = memory.byteAt query := by
  have kept {address : Nat} {bytes : List Byte}
      (outside : ¬ (address ≤ query ∧ query < address + bytes.length)) :
      (memory.setBytes address bytes).byteAt query = memory.byteAt query := by
    rw [byteAt_setBytes]
    split
    · next above =>
      rw [List.getElem?_eq_none (by omega)]
      rfl
    · rfl
  cases access with
  | read width address =>
    simp only [perform]
    split <;> rfl
  | write width address value =>
    simp only [Access.writesTo, Bool.and_eq_false_iff, decide_eq_false_iff_not] at apart
    simp only [perform]
    split
    · next stored =>
      unfold write at stored
      split at stored
      · cases stored
      · cases stored
        apply kept
        rw [Bytes.length_ofValue]
        omega
    · rfl
  | putChunk address bytes =>
    simp only [Access.writesTo, Bool.and_eq_false_iff, decide_eq_false_iff_not] at apart
    apply kept
    rw [List.length_take]
    omega
  | chunk address count => rfl

/-- An operation that fails changes nothing. -/
theorem perform_eq_of_error {access : Access} {memory : Memory} {fault : Fault}
    (failed : (perform access memory).1 = .error fault) : (perform access memory).2 = memory := by
  cases access with
  | read width address =>
    simp only [perform]
    split <;> rfl
  | write width address value =>
    simp only [perform] at failed ⊢
    split
    · next stored =>
      rw [stored] at failed
      cases failed
    · rfl
  | putChunk address bytes => cases failed
  | chunk address count => cases failed

theorem create?_two_pow (size pageBits : Nat) :
    create? size (2 ^ pageBits) = .ok (blank size (2 ^ pageBits).log2) := by
  rw [create?, Nat.log2_two_pow, pageBytes, Nat.one_shiftLeft, if_pos rfl]

/--
Memory in pages of any size answers every sequence of operations like a row of zeros of its size
and ends with the same bytes. Wherever it gets that way, a failing operation changes nothing and
no operation changes a byte outside its range.
-/
theorem paged_refines_flat (size pageBits : Nat) (accesses : List Access) :
    ∃ memory answers reached, create? size (2 ^ pageBits) = .ok memory ∧
      Access.performAll perform accesses memory = (answers, reached) ∧
      Access.performAll Flat.perform accesses (.blank size) = (answers, reached.flat) ∧
      (∀ access fault, (perform access reached).1 = .error fault →
        (perform access reached).2 = reached) ∧
      ∀ access query, access.writesTo query = false →
        (perform access reached).2.byteAt query = reached.byteAt query := by
  refine ⟨_, _, _, create?_two_pow size pageBits, rfl, ?_, fun access fault => perform_eq_of_error,
    fun access query apart => byteAt_perform apart _⟩
  rw [← flat_blank size (2 ^ pageBits).log2]
  exact performAll_flat accesses _

/-- Three bytes in pages of one byte. A half fits behind the first byte, a word nowhere. -/
theorem half_across_single_byte_pages :
    ∃ memory reached, create? 3 1 = .ok memory ∧
      Access.performAll perform [.write .half 1 0xBEEF, .write .word 0 5, .read .half 1] memory =
        ([.ok .done, .error (.outOfRange 3 3), .ok (.value 0xBEEF)], reached) ∧
      reached.flat = ⟨[0x00, 0xEF, 0xBE]⟩ ∧
      (perform (.read .dword 2) reached).2 = reached ∧
      (perform (.write .byte 1 7) reached).2.byteAt 2 = reached.byteAt 2 := by
  let accesses : List Access := [.write .half 1 0xBEEF, .write .word 0 5, .read .half 1]
  obtain ⟨memory, answers, reached, created, performed, flat, unchanged, apart⟩ :=
    paged_refines_flat 3 0 accesses
  have computed : Access.performAll Flat.perform accesses (.blank 3) =
      ([.ok .done, .error (.outOfRange 3 3), .ok (.value 0xBEEF)], ⟨[0x00, 0xEF, 0xBE]⟩) := by
    rfl
  rw [computed, Prod.mk.injEq] at flat
  obtain ⟨rfl, cells⟩ := flat
  -- The image tells that the read fails.
  have failed : (perform (.read .dword 2) reached).1 = .error (.outOfRange 3 3) := by
    have answer := congrArg Prod.fst (perform_flat (.read .dword 2) reached)
    rw [← answer, ← cells]
    rfl
  exact ⟨memory, reached, created, performed, cells.symm, unchanged _ _ failed,
    apart _ _ (by decide)⟩

end Memory

end ArmBoard
