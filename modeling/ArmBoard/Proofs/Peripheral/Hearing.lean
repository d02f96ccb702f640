import ArmBoard.Peripheral.Gpu
import ArmBoard.Proofs.Peripheral.Descriptor

/-!
# What the graphics unit makes of an access

In a block of registers that lies in memory the unit can always be read and
brought up to date. Hearing of an access it then does one of three things: it
latches the mail that was written, it takes note that its answer was read, or
it ignores the access. Memory changes at most in the status register, which
always shows the two flags of the unit.
-/
namespace ArmBoard.Gpu

open ArmBoard.Memory (Within ChangedIn)

/-- The block of registers lies in memory and does not wrap. -/
structure Room (base : Word) (memory : Memory) : Prop where
  straight : base.toNat + blockSize.toNat ≤ 0x100000000
  inside : base.toNat + blockSize.toNat ≤ memory.size

/-- The places of the register at an offset of the block. -/
def Register (base offset : Word) : Nat → Prop := Within (base.toNat + offset.toNat) 4

theorem register_apart {base first second : Word} {place : Nat}
    (apart : first.toNat + 4 ≤ second.toNat ∨ second.toNat + 4 ≤ first.toNat)
    (inside : Register base first place) : ¬ Register base second place := by
  rintro ⟨above, below⟩
  obtain ⟨start, finish⟩ := inside
  omega

/-- The status register shows the flags of the unit. -/
def Publishes (base : Word) (gpu : Gpu) (memory : Memory) : Prop :=
  memory.readWord (base + statusOffset) = .ok gpu.statusWord

variable {base : Word} {gpu : Gpu} {memory changed : Memory} {touch : Touch}

theorem test_statusWord (gpu : Gpu) :
    Bits.test gpu.statusWord emptyBit = !gpu.readReady ∧
      Bits.test gpu.statusWord fullBit = !gpu.writeReady := by
  constructor
  · rw [statusWord, Bits.test_put _ _ _ _ (by decide), if_neg (by decide),
      Bits.test_put _ _ _ _ (by decide), if_pos rfl]
  · rw [statusWord, Bits.test_put _ _ _ _ (by decide), if_pos rfl]

namespace Room

theorem of_changedIn {places : Nat → Prop} (room : Room base memory)
    (changes : ChangedIn places memory changed) : Room base changed :=
  ⟨room.straight, changes.size ▸ room.inside⟩

theorem toNat_add (room : Room base memory) {offset : Word}
    (within : offset.toNat < blockSize.toNat) :
    (base + offset).toNat = base.toNat + offset.toNat := by
  have straight := room.straight
  rw [BitVec.toNat_add, Nat.mod_eq_of_lt (by omega)]

theorem fits (room : Room base memory) {offset : Word}
    (within : offset.toNat + 4 ≤ blockSize.toNat) :
    (base + offset).toNat + 4 ≤ memory.size := by
  rw [room.toNat_add (by omega)]
  have inside := room.inside
  omega

theorem exists_readWord (room : Room base memory) (offset : Word)
    (within : offset.toNat + 4 ≤ blockSize.toNat) :
    ∃ word, memory.readWord (base + offset) = .ok word :=
  Memory.exists_read_eq_ok (room.fits within)

theorem exists_writeWord (room : Room base memory) (offset word : Word)
    (within : offset.toNat + 4 ≤ blockSize.toNat) :
    ∃ written, memory.writeWord (base + offset) word = .ok written ∧
      ChangedIn (Register base offset) memory written := by
  obtain ⟨written, stored⟩ := Memory.exists_write_eq_ok (room.fits within) word
  have changes := Memory.changedIn_of_write stored
  rw [room.toNat_add (by omega)] at changes
  exact ⟨written, stored, changes⟩

theorem readWord_eq {places : Nat → Prop} {offset : Word} (room : Room base memory)
    (within : offset.toNat + 4 ≤ blockSize.toNat) (changes : ChangedIn places memory changed)
    (apart : ∀ place, Register base offset place → ¬ places place) :
    changed.readWord (base + offset) = memory.readWord (base + offset) := by
  refine Memory.read_eq_of_changedIn changes ?_
  rw [room.toNat_add (by omega)]
  exact apart

/-- The unit can show its flags; nothing but the status register changes. -/
theorem exists_published (room : Room base memory) (placed : gpu.mailboxBase? = some base) :
    ∃ written, gpu.publishStatus memory = .ok written ∧ gpu.Publishes base written ∧
      ChangedIn (Register base statusOffset) memory written := by
  obtain ⟨written, stored, changes⟩ :=
    room.exists_writeWord statusOffset gpu.statusWord (by decide)
  refine ⟨written, ?_, Memory.read_write stored, changes⟩
  rw [publishStatus, mailboxBase, placed]
  exact stored

end Room

theorem Publishes.of_changedIn {places : Nat → Prop} (room : Room base memory)
    (publishes : gpu.Publishes base memory) (changes : ChangedIn places memory changed)
    (apart : ∀ place, Register base statusOffset place → ¬ places place) :
    gpu.Publishes base changed :=
  (room.readWord_eq (by decide) changes apart).trans publishes

/-- The access is a write of the write register that finds the unit ready. -/
def Accepts (base : Word) (gpu : Gpu) (touch : Touch) : Prop :=
  touch.event = .write ∧ gpu.writeReady = true ∧ touch.covers (base + writeOffset) = true

theorem not_accepts_of_event (other : touch.event ≠ .write) : ¬ Accepts base gpu touch :=
  fun accepts => other accepts.1

/-- What hearing of an access comes to. -/
inductive Reacts (base : Word) (gpu : Gpu) (memory : Memory) (touch : Touch) : Gpu × Memory → Prop
  /-- The word that stands in the write register is latched. -/
  | latched {mail : Word} {written : Memory} (accepts : Accepts base gpu touch)
      (stands : memory.readWord (base + writeOffset) = .ok mail)
      (publishes : Publishes base { gpu with pending? := some mail, writeReady := false } written)
      (changes : ChangedIn (Register base statusOffset) memory written) :
      Reacts base gpu memory touch
        ({ gpu with pending? := some mail, writeReady := false }, written)
  /-- The answer has been read. -/
  | emptied {written : Memory} (declines : ¬ Accepts base gpu touch)
      (publishes : Publishes base { gpu with readReady := false } written)
      (changes : ChangedIn (Register base statusOffset) memory written) :
      Reacts base gpu memory touch ({ gpu with readReady := false }, written)
  | ignored (declines : ¬ Accepts base gpu touch) : Reacts base gpu memory touch (gpu, memory)

theorem reacts_of_hear (room : Room base memory) (placed : gpu.mailboxBase? = some base)
    (touch : Touch) : Reacts base gpu memory touch (gpu.hear memory touch) := by
  obtain ⟨mailboxBase?, limit?, fixed, readReady, writeReady, pending?, frame?⟩ := gpu
  obtain rfl : mailboxBase? = some base := placed
  unfold hear
  dsimp only
  -- Only a write can post and only a read can empty; an announced read is passed over.
  cases event : touch.event with
  | write =>
    dsimp only
    by_cases ready : (writeReady && touch.covers (base + writeOffset)) = true
    · obtain ⟨mail, stands⟩ := room.exists_readWord writeOffset (by decide)
      let latched : Gpu := ⟨some base, limit?, fixed, readReady, false, some mail, frame?⟩
      have placed : latched.mailboxBase? = some base := rfl
      obtain ⟨written, published, shown, changes⟩ := room.exists_published placed
      rw [if_pos ready, stands]
      dsimp only
      rw [published]
      exact .latched ⟨event, Bool.and_eq_true_iff.mp ready⟩ stands shown changes
    · rw [if_neg ready]
      refine .ignored ?_
      rintro ⟨_, accepting⟩
      exact ready (Bool.and_eq_true_iff.mpr accepting)
  | read =>
    dsimp only
    have other : touch.event ≠ .write := by simp [event]
    split
    · next unchanged =>
      split at unchanged
      · cases unchanged
      · exact .ignored (not_accepts_of_event other)
    · next emptied =>
      split at emptied
      · cases emptied
        let emptied : Gpu := ⟨some base, limit?, fixed, false, writeReady, pending?, frame?⟩
        have placed : emptied.mailboxBase? = some base := rfl
        obtain ⟨written, published, shown, changes⟩ := room.exists_published placed
        rw [published]
        exact .emptied (not_accepts_of_event other) shown changes
      · cases emptied
  | preRead => exact .ignored (not_accepts_of_event (by simp [event]))

namespace Reacts

variable {after : Gpu × Memory}

theorem placed (reacts : Reacts base gpu memory touch after)
    (placed : gpu.mailboxBase? = some base) : after.1.mailboxBase? = some base := by
  cases reacts <;> exact placed

theorem publishes (reacts : Reacts base gpu memory touch after)
    (shown : gpu.Publishes base memory) : after.1.Publishes base after.2 := by
  cases reacts with
  | latched _ _ publishes => exact publishes
  | emptied _ publishes => exact publishes
  | ignored => exact shown

theorem changedIn (reacts : Reacts base gpu memory touch after) :
    ChangedIn (Register base statusOffset) memory after.2 := by
  cases reacts with
  | latched _ _ _ changes => exact changes
  | emptied _ _ changes => exact changes
  | ignored => exact .refl _ _

/-- A waiting mail keeps the unit from being ready for another one. -/
theorem waiting (reacts : Reacts base gpu memory touch after)
    (waiting : gpu.pending?.isSome → gpu.writeReady = false) :
    after.1.pending?.isSome → after.1.writeReady = false := by
  cases reacts with
  | latched => exact fun _ => rfl
  | emptied => exact waiting
  | ignored => exact waiting

end Reacts

theorem allocate_eq_ok {mail : Word} {after : Gpu} {written : Memory}
    (allocated : gpu.allocate memory mail = .ok (after, written)) :
    ∃ frame, after = { gpu with framebuffer? := some frame } ∧
      ChangedIn (fun _ => True) memory written := by
  obtain ⟨limit, _, allocated⟩ := Fault.eq_ok_of_bind allocated
  obtain ⟨request, _, allocated⟩ := Fault.eq_ok_of_bind allocated
  obtain ⟨frame, _, allocated⟩ := Fault.eq_ok_of_bind allocated
  obtain ⟨memory, stored, allocated⟩ := Fault.eq_ok_of_bind allocated
  cases allocated
  have writes := Framebuffer.writeWords_eq_ok_iff.mp stored
  exact ⟨frame, rfl, writes.changedIn.widen fun _ _ => trivial⟩

/-- Whether an allocation fails depends on nothing of the unit but the end of framebuffers. -/
theorem allocate_eq_error {other : Gpu} {mail : Word} {fault : Fault}
    (refused : other.allocate memory mail = .error fault)
    (same : other.framebufferEnd? = gpu.framebufferEnd?) :
    gpu.allocate memory mail = .error fault := by
  rw [allocate, framebufferEnd, same] at refused
  refine Fault.bind_eq_error (fun limit => ?_) refused
  refine Fault.bind_eq_error fun request => ?_
  refine Fault.bind_eq_error fun frame => ?_
  exact Fault.bind_eq_error fun _ written => nomatch written

end ArmBoard.Gpu
