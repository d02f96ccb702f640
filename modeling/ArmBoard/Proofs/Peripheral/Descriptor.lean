import Mathlib.Algebra.Order.Floor.Div
import ArmBoard.Peripheral.Framebuffer
import ArmBoard.Proofs.Memory.Words

/-!
# Descriptors of framebuffers

A descriptor lies in memory as ten words in a row and is read exactly where
they lie. What it asks for is granted if the lines, the whole and the room
below the limit allow it, and a grant fills in three of the words. So a
descriptor that was read can be written, and the other seven words stay.
-/
namespace ArmBoard

open Memory (Within WithinWords ChangedIn)

namespace Framebuffer

/-- The bytes of a line, with whole bytes for every pixel. -/
def lineBytes (request : Framebuffer) : Nat :=
  request.virtualWidth.toNat * (request.depth.toNat ⌈/⌉ 8)

def byteCount (request : Framebuffer) : Nat := request.lineBytes * request.virtualHeight.toNat

/-- A request that can be granted below a limit. -/
structure Fits (request : Framebuffer) (limit : Word) : Prop where
  line : request.lineBytes < 2 ^ 32
  size : request.byteCount < 2 ^ 32
  room : request.byteCount ≤ limit.toNat

/-- The answer to a request, on words. -/
def granted (request : Framebuffer) (limit : Word) : Framebuffer :=
  { request with
    pitch := BitVec.ofNat 32 request.lineBytes
    pointer := limit - BitVec.ofNat 32 request.byteCount
    size := BitVec.ofNat 32 request.byteCount }

/-- What a request that is granted becomes. -/
structure Grants (request : Framebuffer) (limit : Word) (frame : Framebuffer) : Prop where
  pitch : frame.pitch.toNat = request.lineBytes
  pointer : frame.pointer.toNat = limit.toNat - request.byteCount
  size : frame.size.toNat = request.byteCount
  others : frame =
    { request with pitch := frame.pitch, pointer := frame.pointer, size := frame.size }

/-- The positions of the words that a grant fills in. -/
def filledIn : List Nat := [4, 8, 9]

/-- The places of the words that a grant fills in. -/
def FilledIn (address : Word) (place : Nat) : Prop :=
  ∃ index ∈ filledIn, Within (wordAddress address index).toNat 4 place

variable {request frame : Framebuffer} {limit address : Word} {memory written : Memory}

section Granting

theorem allocate_eq_ok_iff :
    request.allocate limit = .ok frame ↔ request.Fits limit ∧ frame = request.granted limit := by
  have allocated : request.allocate limit =
      if 0x100000000 ≤ request.lineBytes then .error (.misuse .pitchOverflow)
      else if 0x100000000 ≤ request.byteCount then .error (.misuse .framebufferOverflow)
      else if limit.toNat < request.byteCount then
        .error (.misuse (.framebufferRoom (BitVec.ofNat 32 request.byteCount) limit))
      else .ok (request.granted limit) := rfl
  constructor
  · intro succeeded
    rw [allocated] at succeeded
    split at succeeded
    · cases succeeded
    · split at succeeded
      · cases succeeded
      · split at succeeded
        · cases succeeded
        · cases succeeded
          exact ⟨⟨by omega, by omega, by omega⟩, rfl⟩
  · rintro ⟨⟨line, size, room⟩, rfl⟩
    rw [allocated, if_neg (by omega), if_neg (by omega), if_neg (by omega)]

/-- Nothing is lost on the way to words. -/
theorem grants_granted (fits : request.Fits limit) :
    request.Grants limit (request.granted limit) := by
  have size : (BitVec.ofNat 32 request.byteCount).toNat = request.byteCount :=
    Nat.mod_eq_of_lt fits.size
  refine ⟨Nat.mod_eq_of_lt fits.line, ?_, size, rfl⟩
  have inside : BitVec.ofNat 32 request.byteCount ≤ limit := by
    rw [BitVec.le_def, size]
    exact fits.room
  rw [granted, BitVec.toNat_sub_of_le inside, size]

theorem Grants.getElem?_words (grants : request.Grants limit frame) {index : Nat}
    (kept : index ∉ filledIn) : frame.words[index]? = request.words[index]? := by
  rw [grants.others]
  match index with
  | 0 | 1 | 2 | 3 | 5 | 6 | 7 => rfl
  | 4 | 8 | 9 => exact absurd (by decide) kept
  | _ + 10 => rfl

end Granting

section Descriptors

theorem forall_words_iff {holds : Nat → Word → Prop} :
    (∀ index word, frame.words[index]? = some word → holds index word) ↔
      holds 0 frame.physicalWidth ∧ holds 1 frame.physicalHeight ∧ holds 2 frame.virtualWidth ∧
      holds 3 frame.virtualHeight ∧ holds 4 frame.pitch ∧ holds 5 frame.depth ∧
      holds 6 frame.xOffset ∧ holds 7 frame.yOffset ∧ holds 8 frame.pointer ∧
      holds 9 frame.size := by
  constructor
  · intro all
    exact ⟨all 0 _ rfl, all 1 _ rfl, all 2 _ rfl, all 3 _ rfl, all 4 _ rfl, all 5 _ rfl,
      all 6 _ rfl, all 7 _ rfl, all 8 _ rfl, all 9 _ rfl⟩
  · rintro ⟨physicalWidth, physicalHeight, virtualWidth, virtualHeight, pitch, depth, xOffset,
      yOffset, pointer, size⟩ index word found
    match index with
    | 0 => cases found; exact physicalWidth
    | 1 => cases found; exact physicalHeight
    | 2 => cases found; exact virtualWidth
    | 3 => cases found; exact virtualHeight
    | 4 => cases found; exact pitch
    | 5 => cases found; exact depth
    | 6 => cases found; exact xOffset
    | 7 => cases found; exact yOffset
    | 8 => cases found; exact pointer
    | 9 => cases found; exact size
    | _ + 10 => cases found

/-- A descriptor is read exactly where its ten words lie. -/
theorem read_eq_ok_iff :
    Framebuffer.read memory address = .ok frame ↔ memory.HoldsWords address frame.words := by
  rw [Memory.holdsWords_iff, forall_words_iff]
  constructor
  · intro read
    obtain ⟨_, physicalWidth, read⟩ := Fault.eq_ok_of_bind read
    obtain ⟨_, physicalHeight, read⟩ := Fault.eq_ok_of_bind read
    obtain ⟨_, virtualWidth, read⟩ := Fault.eq_ok_of_bind read
    obtain ⟨_, virtualHeight, read⟩ := Fault.eq_ok_of_bind read
    obtain ⟨_, pitch, read⟩ := Fault.eq_ok_of_bind read
    obtain ⟨_, depth, read⟩ := Fault.eq_ok_of_bind read
    obtain ⟨_, xOffset, read⟩ := Fault.eq_ok_of_bind read
    obtain ⟨_, yOffset, read⟩ := Fault.eq_ok_of_bind read
    obtain ⟨_, pointer, read⟩ := Fault.eq_ok_of_bind read
    obtain ⟨_, size, read⟩ := Fault.eq_ok_of_bind read
    cases read
    exact ⟨physicalWidth, physicalHeight, virtualWidth, virtualHeight, pitch, depth, xOffset,
      yOffset, pointer, size⟩
  · rintro ⟨physicalWidth, physicalHeight, virtualWidth, virtualHeight, pitch, depth, xOffset,
      yOffset, pointer, size⟩
    simp only [Framebuffer.read, wordAddress, physicalWidth, physicalHeight, virtualWidth,
      virtualHeight, pitch, depth, xOffset, yOffset, pointer, size]
    rfl

theorem wordAddress_zero (address : Word) : wordAddress address 0 = address :=
  Memory.address_add_zero address

theorem wordAddress_succ (address : Word) (index : Nat) :
    wordAddress address (index + 1) = wordAddress address index + instructionSize := by
  rw [wordAddress, Memory.address_add_succ, BitVec.add_assoc, BitVec.add_comm instructionSize,
    ← BitVec.add_assoc]
  rfl

theorem writeWords_eq_ok_iff {index : Nat} {words : List Word} :
    writeWords memory address index words = .ok written ↔
      Memory.WritesWords memory (wordAddress address index) words written := by
  induction words generalizing memory index with
  | nil =>
    constructor
    · intro stored
      cases stored
      exact .nil
    · intro writes
      cases writes
      rfl
  | cons word rest ih =>
    rw [writeWords]
    constructor
    · intro stored
      obtain ⟨between, first, later⟩ := Fault.eq_ok_of_bind stored
      rw [ih, wordAddress_succ] at later
      exact .cons first later
    · intro writes
      cases writes with
      | cons first later =>
        rw [← wordAddress_succ, ← ih] at later
        rw [first]
        exact later

/-- A descriptor whose words lie in memory can be written. -/
theorem exists_written (holds : memory.HoldsWords address request.words) (frame : Framebuffer) :
    ∃ written, frame.write memory address = .ok written := by
  have writable : memory.WritableWords address frame.words.length := holds.readable.writable
  obtain ⟨written, writes⟩ := Memory.exists_writesWords writable
  rw [← wordAddress_zero address] at writes
  exact ⟨written, writeWords_eq_ok_iff.mpr writes⟩

/-- Writing a granted descriptor changes no byte of the words that are not filled in. -/
theorem changedIn_of_write (holds : memory.HoldsWords address request.words)
    (grants : request.Grants limit frame) (stored : frame.write memory address = .ok written) :
    written.HoldsWords address frame.words ∧ ChangedIn (FilledIn address) memory written := by
  rw [write, writeWords_eq_ok_iff, wordAddress_zero] at stored
  have stands := stored.holdsWords (show wordCount ≤ 17 by decide)
  refine ⟨stands, stored.changedIn.size, fun place apart => ?_⟩
  by_cases inside : WithinWords address frame.words.length place
  · obtain ⟨index, below, within⟩ := inside
    have kept : index ∉ filledIn := fun listed => apart ⟨index, listed, within⟩
    have found := List.getElem?_eq_getElem below
    have same := (grants.getElem?_words kept).symm.trans found
    have before := Memory.holdsWords_iff.mp holds index _ same
    have after := Memory.holdsWords_iff.mp stands index _ found
    exact Memory.byteAt_eq_of_read before after within
  · exact stored.changedIn.byteAt place inside

end Descriptors

end Framebuffer

end ArmBoard
