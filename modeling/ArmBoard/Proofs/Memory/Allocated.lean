import ArmBoard.Proofs.Memory.Frame

/-!
# Which pages exist

A page exists from the first time that one of its bytes is written. Bytes that
lie across pages are split between them, and every part of the split has a byte
at least, so that the pages that come to exist are those that the bytes touch.
-/
namespace ArmBoard

namespace Pages

variable {pageBits : Nat}

theorem mem_setSegment (pages : Pages pageBits) (address key : Nat) (bytes : List Byte) :
    key ∈ pages.setSegment address bytes ↔ key ∈ pages ∨ pageOf pageBits address = key := by
  rw [setSegment, Std.TreeMap.mem_alter]
  by_cases same : pageOf pageBits address = key
  · simp [same]
  · simp [same]

/-- The pages of the written bytes exist, and no others besides those that existed before. -/
theorem mem_writeBytes (pages : Pages pageBits) (address key : Nat) (bytes : List Byte) :
    key ∈ pages.writeBytes address bytes ↔
      key ∈ pages ∨ ∃ index < bytes.length, pageOf pageBits (address + index) = key := by
  fun_induction writeBytes pages address bytes with
  | case1 pages address bytes empty => simp [empty]
  | case2 pages address bytes remains count ih =>
    have positive : 0 < count := reach_pos remains
    have least : count ≤ bytes.length := reach_le address bytes.length
    have inside : address % pageBytes pageBits + count ≤ pageBytes pageBits :=
      offset_add_reach address bytes.length
    rw [ih, mem_setSegment, List.length_drop, or_assoc, or_congr_right]
    constructor
    · rintro (here | ⟨index, below, later⟩)
      · exact ⟨0, by omega, here⟩
      · exact ⟨count + index, by omega, by rwa [← Nat.add_assoc]⟩
    · rintro ⟨index, below, found⟩
      by_cases first : index < count
      · -- Up to the end of the page all bytes lie in the page of the first one.
        rw [pageOf_add (by omega)] at found
        exact Or.inl found
      · refine Or.inr ⟨index - count, by omega, ?_⟩
        rwa [show address + count + (index - count) = address + index by omega]

end Pages

/-- Some bytes in a row, which an access reaches or might reach. -/
structure Piece where
  address : Word
  count : Nat
  deriving DecidableEq, Repr

namespace Piece

/-- The piece ends within a memory of that size. -/
def inside (size : Nat) (piece : Piece) : Bool := decide (piece.address.toNat + piece.count ≤ size)

/-- The piece has a byte in the page that starts at an address. -/
def Touches (pageSize start : Nat) (piece : Piece) : Prop :=
  ∃ place, Memory.Within piece.address.toNat piece.count place ∧
    Memory.Within start pageSize place

end Piece

namespace Memory

section Pages

theorem mem_allocatedPages {memory : Memory} {start : Nat} :
    start ∈ memory.allocatedPages ↔ ∃ key ∈ memory.pages, key * memory.pageSize = start := by
  simp only [allocatedPages, List.mem_map, Std.TreeMap.mem_keys]

theorem pageSize_pos (memory : Memory) : 0 < memory.pageSize := pageBytes_pos memory.pageBits

theorem allocatedPages_ascending (memory : Memory) : memory.allocatedPages.Pairwise (· < ·) := by
  rw [allocatedPages, List.pairwise_map]
  refine Std.TreeMap.ordered_keys.imp fun {first second} less => ?_
  exact Nat.mul_lt_mul_of_pos_right (Nat.compare_eq_lt.mp less) memory.pageSize_pos

theorem allocatedPages_blank (size pageBits : Nat) : (blank size pageBits).allocatedPages = [] :=
  rfl

/-- Stored bytes bring about the pages that they touch. -/
theorem mem_allocatedPages_setBytes (memory : Memory) (address start : Nat) (bytes : List Byte) :
    start ∈ (memory.setBytes address bytes).allocatedPages ↔
      start ∈ memory.allocatedPages ∨ memory.pageSize ∣ start ∧
        ∃ place, Within address bytes.length place ∧ Within start memory.pageSize place := by
  have positive := memory.pageSize_pos
  rw [mem_allocatedPages, mem_allocatedPages]
  change (∃ key ∈ memory.pages.writeBytes address bytes, key * memory.pageSize = start) ↔ _
  simp only [Pages.mem_writeBytes]
  constructor
  · rintro ⟨key, old | ⟨index, below, here⟩, rfl⟩
    · exact Or.inl ⟨key, old, rfl⟩
    · refine Or.inr ⟨Nat.dvd_mul_left _ _, address + index, ⟨by omega, by omega⟩, ?_⟩
      have split := Nat.div_add_mod (address + index) memory.pageSize
      have rest := Nat.mod_lt (address + index) positive
      rw [show (address + index) / memory.pageSize = key from here, Nat.mul_comm] at split
      exact ⟨by omega, by omega⟩
  · rintro (⟨key, old, rfl⟩ | ⟨⟨key, rfl⟩, place, ⟨above, below⟩, first, last⟩)
    · exact ⟨key, Or.inl old, rfl⟩
    · refine ⟨key, Or.inr ⟨place - address, by omega, ?_⟩, Nat.mul_comm _ _⟩
      rw [Nat.add_sub_cancel' above]
      refine Nat.div_eq_of_lt_le ?_ ?_
      · rwa [Nat.mul_comm]
      · rwa [Nat.succ_mul, Nat.mul_comm]

/-- Nothing at all happens where nothing is stored. -/
theorem setBytes_nil (memory : Memory) (address : Nat) : memory.setBytes address [] = memory := by
  rw [setBytes, Pages.writeBytes]
  rfl

end Pages

/-- Memory after some bytes were stored at each of the pieces, one after the other. -/
inductive Stores : List Piece → Memory → Memory → Prop
  | nil {memory : Memory} : Stores [] memory memory
  | cons {memory reached : Memory} {piece : Piece} {pieces : List Piece} {bytes : List Byte}
      (length : bytes.length = piece.count) (inside : piece.inside memory.size = true)
      (later : Stores pieces (memory.setBytes piece.address.toNat bytes) reached) :
      Stores (piece :: pieces) memory reached

/-- What stores at some pieces have done to the pages. -/
structure AllocatedBy (pieces : List Piece) (memory reached : Memory) : Prop where
  size : reached.size = memory.size
  pageSize : reached.pageSize = memory.pageSize
  inside : ∀ piece ∈ pieces, piece.inside memory.size = true
  pages : ∀ start, start ∈ reached.allocatedPages ↔ start ∈ memory.allocatedPages ∨
    memory.pageSize ∣ start ∧ ∃ piece ∈ pieces, piece.Touches memory.pageSize start

namespace Stores

variable {pieces others : List Piece} {memory between reached : Memory}

theorem append (before : Stores pieces memory between) (after : Stores others between reached) :
    Stores (pieces ++ others) memory reached := by
  induction before with
  | nil => exact after
  | cons length inside _ ih => exact .cons length inside (ih after)

theorem of_write {count : Nat} {address : Word} {value : BitVec (8 * count)}
    (written : memory.write count address value = .ok reached) :
    Stores [⟨address, count⟩] memory reached := by
  unfold write check at written
  by_cases fits : address.toNat + count ≤ memory.size
  · rw [if_pos fits] at written
    cases written
    exact .cons (Bytes.length_ofValue _ _) (decide_eq_true fits) .nil
  · rw [if_neg fits] at written
    cases written

theorem allocatedBy (stores : Stores pieces memory reached) :
    AllocatedBy pieces memory reached := by
  -- On the pieces: each adds the pages that it touches to those before.
  induction stores with
  | nil => exact ⟨rfl, rfl, by simp, by simp⟩
  | @cons memory reached piece pieces bytes length inside later ih =>
    obtain ⟨size, pageSize, within, pages⟩ := ih
    refine ⟨size, pageSize, List.forall_mem_cons.mpr ⟨inside, within⟩, fun start => ?_⟩
    rw [pages, mem_allocatedPages_setBytes, length, or_assoc, or_congr_right]
    change _ ∨ memory.pageSize ∣ start ∧ (∃ piece ∈ pieces, piece.Touches memory.pageSize start) ↔ _
    simp only [List.mem_cons, exists_eq_or_imp, and_or_left]
    rfl

theorem eq_of_nil (stores : Stores [] memory reached) : reached = memory := by
  cases stores
  rfl

end Stores

end Memory

end ArmBoard
