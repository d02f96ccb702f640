import Std.Data.TreeMap
import ArmBoard.Memory.Bytes
import ArmBoard.Fault

/-!
# Paged memory

Memory is a row of bytes, all zero at first, kept in pages that exist only
once something has been written to them. Reading never creates a page. What
spans several pages is read and written page by page. Every access is checked
against the size with exact numbers, so that an access near the end of the
address space does not wrap.
-/
namespace ArmBoard

/-- The number of bytes in a page whose places take `pageBits` bits. -/
def pageBytes (pageBits : Nat) : Nat := 1 <<< pageBits

theorem pageBytes_pos (pageBits : Nat) : 0 < pageBytes pageBits := by
  rw [pageBytes, Nat.one_shiftLeft]
  exact Nat.two_pow_pos pageBits

/-- Pages of equal size, keyed by page number. -/
abbrev Pages (pageBits : Nat) : Type := Std.TreeMap Nat (Vector Byte (pageBytes pageBits))

namespace Pages

variable {pageBits : Nat}

def pageOf (pageBits address : Nat) : Nat := address / pageBytes pageBits

def offsetOf (pageBits address : Nat) : Fin (pageBytes pageBits) :=
  ⟨address % pageBytes pageBits, Nat.mod_lt _ (pageBytes_pos _)⟩

/-- The byte at an address; a page that does not exist holds zeros. -/
def byteAt (pages : Pages pageBits) (address : Nat) : Byte :=
  match pages[pageOf pageBits address]? with
  | some page => page[offsetOf pageBits address]
  | none => 0

theorem byteAt_empty (address : Nat) : byteAt (∅ : Pages pageBits) address = 0 := by
  rw [byteAt, show (∅ : Pages pageBits)[pageOf pageBits address]? = none from
    Std.TreeMap.getElem?_emptyc]

/-- How many of `left` bytes from an address up lie in one page with it. -/
def reach (pageBits address left : Nat) : Nat :=
  min (pageBytes pageBits - offsetOf pageBits address) left

theorem reach_pos {address left : Nat} (remains : left ≠ 0) : 0 < reach pageBits address left := by
  have inside := (offsetOf pageBits address).isLt
  unfold reach
  omega

theorem reach_le (address left : Nat) : reach pageBits address left ≤ left := Nat.min_le_right _ _

theorem offset_add_reach (address left : Nat) :
    address % pageBytes pageBits + reach pageBits address left ≤ pageBytes pageBits := by
  have inside := Nat.mod_lt address (pageBytes_pos pageBits)
  simp only [reach, offsetOf]
  omega

/-- What a page holds from the place of an address up; a page that does not exist holds zeros. -/
def segment (pages : Pages pageBits) (address count : Nat) : List Byte :=
  match pages[pageOf pageBits address]? with
  | some page =>
      let offset := offsetOf pageBits address
      (page.extract offset (offset + count)).toList
  | none => List.replicate count 0

/-- The bytes from an address up, gathered page by page. -/
@[semireducible]
def readBytes (pages : Pages pageBits) (address left : Nat) : List Byte :=
  if left = 0 then []
  else
    let count := reach pageBits address left
    pages.segment address count ++ readBytes pages (address + count) (left - count)
termination_by left
decreasing_by
  have moved : 0 < reach pageBits address left := reach_pos ‹left ≠ 0›
  omega

def overwrite {size : Nat} (page : Vector Byte size) (offset : Nat) :
    List Byte → Vector Byte size
  | [] => page
  | byte :: rest => overwrite (page.setIfInBounds offset byte) (offset + 1) rest

/-- Replaces bytes within the page of an address, creating the page if need be. -/
def setSegment (pages : Pages pageBits) (address : Nat) (bytes : List Byte) : Pages pageBits :=
  pages.alter (pageOf pageBits address) fun page? =>
    some (overwrite (page?.getD (Vector.replicate _ 0)) (offsetOf pageBits address) bytes)

/-- Replaces the bytes from an address up, page by page. -/
@[semireducible]
def writeBytes (pages : Pages pageBits) (address : Nat) (bytes : List Byte) : Pages pageBits :=
  if bytes.length = 0 then pages
  else
    let count := reach pageBits address bytes.length
    writeBytes (pages.setSegment address (bytes.take count)) (address + count) (bytes.drop count)
termination_by bytes.length
decreasing_by
  have moved : 0 < reach pageBits address bytes.length := reach_pos ‹bytes.length ≠ 0›
  rw [List.length_drop]
  omega

/-- Addresses up to the end of a page lie in it, at places that follow one another. -/
theorem pageOf_add {address index : Nat}
    (inside : address % pageBytes pageBits + index < pageBytes pageBits) :
    pageOf pageBits (address + index) = pageOf pageBits address := by
  have split := Nat.div_add_mod address (pageBytes pageBits)
  rw [pageOf, pageOf, ← split, Nat.add_assoc, Nat.mul_add_div (pageBytes_pos _),
    Nat.div_eq_of_lt inside, Nat.mul_add_div (pageBytes_pos _),
    Nat.div_eq_of_lt (Nat.mod_lt _ (pageBytes_pos _))]

theorem offsetOf_add {address index : Nat}
    (inside : address % pageBytes pageBits + index < pageBytes pageBits) :
    (offsetOf pageBits (address + index)).val = address % pageBytes pageBits + index := by
  change (address + index) % pageBytes pageBits = _
  rw [Nat.add_mod, Nat.mod_eq_of_lt (show index < pageBytes pageBits by omega),
    Nat.mod_eq_of_lt inside]

theorem segment_eq (pages : Pages pageBits) {address count : Nat}
    (inside : address % pageBytes pageBits + count ≤ pageBytes pageBits) :
    pages.segment address count =
      (List.range count).map fun index => pages.byteAt (address + index) := by
  unfold segment
  cases found : pages[pageOf pageBits address]? with
  | none =>
    refine List.ext_getElem (by simp) fun index bound _ => ?_
    rw [List.length_replicate] at bound
    have same := pageOf_add (show address % pageBytes pageBits + index < pageBytes pageBits by omega)
    simp [byteAt, same, found]
  | some page =>
    refine List.ext_getElem ?_ fun index bound other => ?_
    · simp [offsetOf]
      omega
    · simp only [List.length_map, List.length_range] at other
      have inPage : address % pageBytes pageBits + index < pageBytes pageBits := by omega
      have same := pageOf_add inPage
      have place := offsetOf_add inPage
      simp [byteAt, same, found, place]
      rfl

/-- Gathering page by page finds at every address the byte that is there. -/
theorem readBytes_eq (pages : Pages pageBits) (address left : Nat) :
    pages.readBytes address left =
      (List.range left).map fun index => pages.byteAt (address + index) := by
  fun_induction readBytes pages address left with
  | case1 address => rfl
  | case2 address left remains count ih =>
    have inside : address % pageBytes pageBits + count ≤ pageBytes pageBits :=
      offset_add_reach address left
    have least : count ≤ left := reach_le address left
    rw [ih, segment_eq pages inside]
    have split : left = count + (left - count) := by omega
    conv => rhs; rw [split, List.range_add, List.map_append, List.map_map]
    simp only [Function.comp_def, Nat.add_assoc]

theorem getElem_overwrite {size : Nat} (page : Vector Byte size) (offset index : Nat)
    (bytes : List Byte) (bound : index < size) :
    (overwrite page offset bytes)[index] =
      if offset ≤ index then bytes[index - offset]?.getD page[index] else page[index] := by
  induction bytes generalizing page offset with
  | nil => simp [overwrite]
  | cons byte rest ih =>
    rw [overwrite, ih, Vector.getElem_setIfInBounds]
    by_cases start : offset = index
    -- The first byte goes to the first place, and the rest lies above it.
    · subst start
      simp [show ¬ offset + 1 ≤ offset by omega]
    · by_cases after : offset + 1 ≤ index
      · simp [start, after, show offset ≤ index by omega,
          show index - offset = index - (offset + 1) + 1 by omega]
      · simp [start, after, show ¬ offset ≤ index by omega]

theorem byteAt_setSegment (pages : Pages pageBits) {address : Nat} (query : Nat) {bytes : List Byte}
    (inside : address % pageBytes pageBits + bytes.length ≤ pageBytes pageBits) :
    (pages.setSegment address bytes).byteAt query =
      if address ≤ query then bytes[query - address]?.getD (pages.byteAt query)
      else pages.byteAt query := by
  have positive := pageBytes_pos pageBits
  have first := Nat.div_add_mod address (pageBytes pageBits)
  have second := Nat.div_add_mod query (pageBytes pageBits)
  by_cases samePage : pageOf pageBits address = pageOf pageBits query
  · -- Within a page, addresses are as far apart as their places.
    have order : address % pageBytes pageBits ≤ query % pageBytes pageBits ↔ address ≤ query := by
      unfold pageOf at samePage
      rw [samePage] at first
      omega
    have apart (_ : address ≤ query) :
        query % pageBytes pageBits - address % pageBytes pageBits = query - address := by
      unfold pageOf at samePage
      rw [samePage] at first
      omega
    have old : (pages[pageOf pageBits query]?.getD (Vector.replicate _ 0))[offsetOf pageBits query] =
        pages.byteAt query := by
      unfold byteAt
      cases pages[pageOf pageBits query]? with
      | none => simp
      | some page => rfl
    have written : (pages.setSegment address bytes).byteAt query =
        (overwrite (pages[pageOf pageBits query]?.getD (Vector.replicate _ 0))
          (offsetOf pageBits address) bytes)[offsetOf pageBits query] := by
      simp only [byteAt, setSegment, Std.TreeMap.getElem?_alter, Nat.compare_eq_eq, samePage,
        if_true]
    have place := getElem_overwrite (pages[pageOf pageBits query]?.getD (Vector.replicate _ 0))
      (address % pageBytes pageBits) (query % pageBytes pageBits) bytes (Nat.mod_lt _ positive)
    rw [written, ← old]
    refine place.trans ?_
    by_cases above : address ≤ query
    · rw [if_pos (order.mpr above), if_pos above, apart above]
      rfl
    · rw [if_neg (mt order.mp above), if_neg above]
      rfl
  · have other : (pages.setSegment address bytes).byteAt query = pages.byteAt query := by
      simp only [byteAt, setSegment, Std.TreeMap.getElem?_alter, Nat.compare_eq_eq, samePage,
        if_false]
    rw [other]
    split
    · next above =>
      have before : address / pageBytes pageBits < query / pageBytes pageBits :=
        Nat.lt_of_le_of_ne (Nat.div_le_div_right above) samePage
      have next := Nat.mul_le_mul_left (pageBytes pageBits) (Nat.succ_le_of_lt before)
      have beyond : bytes.length ≤ query - address := by
        rw [Nat.mul_succ] at next
        omega
      rw [List.getElem?_eq_none beyond]
      rfl
    · rfl

/-- Written bytes are found where they were written, and every other byte is as before. -/
theorem byteAt_writeBytes (pages : Pages pageBits) (address query : Nat) (bytes : List Byte) :
    (pages.writeBytes address bytes).byteAt query =
      if address ≤ query then bytes[query - address]?.getD (pages.byteAt query)
      else pages.byteAt query := by
  fun_induction writeBytes pages address bytes with
  | case1 pages address bytes empty =>
    rw [List.length_eq_zero_iff] at empty
    simp [empty]
  | case2 pages address bytes remains count ih =>
    have least : count ≤ bytes.length := reach_le address bytes.length
    have length : (bytes.take count).length = count := by
      rw [List.length_take]
      omega
    have inside : address % pageBytes pageBits + (bytes.take count).length ≤ pageBytes pageBits := by
      rw [length]
      exact offset_add_reach address bytes.length
    rw [ih, byteAt_setSegment pages query inside]
    -- The rest is written above what goes to the first page.
    by_cases beyond : address + count ≤ query
    · have later : (bytes.take count)[query - address]? = none := by
        rw [List.getElem?_eq_none]
        omega
      have place : count + (query - (address + count)) = query - address := by omega
      simp [beyond, show address ≤ query by omega, List.getElem?_drop, later, place]
    · by_cases above : address ≤ query
      · have here : query - address < count := by omega
        simp [beyond, above, here]
      · simp [beyond, above]

end Pages

/-- Memory of `size` bytes in pages. -/
structure Memory where
  size : Nat
  pageBits : Nat
  pages : Pages pageBits

namespace Memory

def defaultSize : Nat := 0x100000000

def defaultPageSize : Nat := 4096

/-- Memory in which nothing has been written. -/
def blank (size pageBits : Nat) : Memory := ⟨size, pageBits, ∅⟩

def standard : Memory := blank defaultSize 12

/-- Blank memory with pages of a given number of bytes, which must be a power of two. -/
def create? (size pageSize : Nat) : Except Fault Memory :=
  if pageBytes pageSize.log2 = pageSize then .ok (blank size pageSize.log2)
  else .error (.misuse (.pageSize pageSize))

def pageSize (memory : Memory) : Nat := pageBytes memory.pageBits

/-- The byte at an address; a byte that was never written is zero. -/
def byteAt (memory : Memory) (address : Nat) : Byte := memory.pages.byteAt address

theorem byteAt_blank (size pageBits address : Nat) : (blank size pageBits).byteAt address = 0 :=
  Pages.byteAt_empty address

def bytesAt (memory : Memory) (address count : Nat) : List Byte :=
  memory.pages.readBytes address count

def setBytes (memory : Memory) (address : Nat) (bytes : List Byte) : Memory :=
  { memory with pages := memory.pages.writeBytes address bytes }

theorem bytesAt_eq (memory : Memory) (address count : Nat) :
    memory.bytesAt address count =
      (List.range count).map fun index => memory.byteAt (address + index) :=
  Pages.readBytes_eq memory.pages address count

/-- Stored bytes read back, and storing them leaves every byte outside their range alone. -/
theorem byteAt_setBytes (memory : Memory) (address query : Nat) (bytes : List Byte) :
    (memory.setBytes address bytes).byteAt query =
      if address ≤ query then bytes[query - address]?.getD (memory.byteAt query)
      else memory.byteAt query :=
  Pages.byteAt_writeBytes memory.pages address query bytes

theorem size_setBytes (memory : Memory) (address : Nat) (bytes : List Byte) :
    (memory.setBytes address bytes).size = memory.size := rfl

theorem bytesAt_setBytes (memory : Memory) (address : Nat) (bytes : List Byte) :
    (memory.setBytes address bytes).bytesAt address bytes.length = bytes := by
  refine List.ext_getElem (by simp [bytesAt_eq]) fun index _ bound => ?_
  simp [bytesAt_eq, byteAt_setBytes, bound]

/-- Accepts an access of `count` bytes that lies within memory. -/
def check (memory : Memory) (address : Word) (count : Nat) : Except Fault Unit :=
  if address.toNat + count ≤ memory.size then .ok ()
  else .error (.outOfRange (max address.toNat memory.size) memory.size)

/-- How many of `count` bytes from an address lie within memory. -/
def room (memory : Memory) (address : Word) (count : Nat) : Nat :=
  min (memory.size - address.toNat) count

def read (memory : Memory) (count : Nat) (address : Word) : Except Fault (BitVec (8 * count)) :=
  match memory.check address count with
  | .error fault => .error fault
  | .ok () => .ok (Bytes.toValue count (memory.bytesAt address.toNat count))

def write (memory : Memory) (count : Nat) (address : Word) (value : BitVec (8 * count)) :
    Except Fault Memory :=
  match memory.check address count with
  | .error fault => .error fault
  | .ok () => .ok (memory.setBytes address.toNat (Bytes.ofValue count value))

/-- A value that was stored reads back. -/
theorem read_write {memory written : Memory} {count : Nat} {address : Word}
    {value : BitVec (8 * count)} (stored : memory.write count address value = .ok written) :
    written.read count address = .ok value := by
  unfold write at stored
  split at stored
  · cases stored
  · next fits =>
    cases stored
    have unchanged : (memory.setBytes address.toNat (Bytes.ofValue count value)).check address count
        = .ok () := by
      rw [← fits]
      rfl
    have bytes := bytesAt_setBytes memory address.toNat (Bytes.ofValue count value)
    rw [Bytes.length_ofValue] at bytes
    simp only [read, unchanged, bytes, Bytes.toValue_ofValue]

def readWord (memory : Memory) (address : Word) : Except Fault Word := memory.read 4 address

def writeWord (memory : Memory) (address value : Word) : Except Fault Memory :=
  memory.write 4 address value

/-- The bytes from an address, as many of `count` as there are. -/
def chunk (memory : Memory) (address : Word) (count : Nat) : List Byte :=
  memory.bytesAt address.toNat (memory.room address count)

/-- Stores as many bytes as fit before the end of memory, and tells how many. -/
def putChunk (memory : Memory) (address : Word) (bytes : List Byte) : Nat × Memory :=
  let count := memory.room address bytes.length
  (count, memory.setBytes address.toNat (bytes.take count))

/-- The addresses at which the existing pages start, in ascending order. -/
def allocatedPages (memory : Memory) : List Nat := memory.pages.keys.map (· * memory.pageSize)

end Memory

end ArmBoard
