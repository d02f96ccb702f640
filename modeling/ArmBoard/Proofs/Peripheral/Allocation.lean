import ArmBoard.Proofs.Peripheral.Attendance

/-!
# Framebuffers are granted whole

A step of the graphics unit reads the descriptor that a mail points to, works
out what it comes to and writes it back with three words filled in. All that
can be refused is refused before the first byte is written: a descriptor that
was read can also be written, and the registers of the unit lie in memory.
-/
namespace ArmBoard

open Memory (Within WithinWords ChangedIn)

namespace Gpu

variable {gpu after : Gpu} {limit mail : Word} {memory written : Memory} {request : Framebuffer}

theorem channelOf_eq (mail : Word) : channelOf mail = BitVec.ofNat 32 (mail.toNat % 16) := by
  have field : (channelOf mail).toNat = mail.toNat % 16 := Bits.field_eq_shiftRight_mod mail 0 3
  rw [← field, BitVec.ofNat_toNat, BitVec.setWidth_eq]

theorem statusWord_of_ready (read : gpu.readReady = true) (write : gpu.writeReady = true) :
    gpu.statusWord = 0 := by
  rw [statusWord, read, write]
  rfl

theorem allocate_of_fits (bounded : gpu.framebufferEnd? = some limit)
    (holds : memory.HoldsWords (addressOf mail) request.words) (fits : request.Fits limit) :
    ∃ result, gpu.allocate memory mail = .ok result := by
  have read := Framebuffer.read_eq_ok_iff.mpr holds
  have allocated := Framebuffer.allocate_eq_ok_iff.mpr ⟨fits, rfl⟩
  obtain ⟨written, stored⟩ := Framebuffer.exists_written holds (request.granted limit)
  refine ⟨({ gpu with framebuffer? := some (request.granted limit) }, written), ?_⟩
  rw [allocate, framebufferEnd, bounded]
  dsimp only [bind, Except.bind]
  rw [read]
  dsimp only
  rw [allocated]
  dsimp only
  rw [stored]
  rfl

theorem granted_of_allocate {frame : Framebuffer} (bounded : gpu.framebufferEnd? = some limit)
    (allocated : gpu.allocate memory mail =
      .ok ({ gpu with framebuffer? := some frame }, written)) :
    ∃ request : Framebuffer, memory.HoldsWords (addressOf mail) request.words ∧
      request.Fits limit ∧ request.Grants limit frame ∧
      frame.write memory (addressOf mail) = .ok written := by
  rw [allocate, framebufferEnd, bounded] at allocated
  obtain ⟨_, known, allocated⟩ := Fault.eq_ok_of_bind allocated
  cases known
  obtain ⟨request, read, allocated⟩ := Fault.eq_ok_of_bind allocated
  obtain ⟨granted, answer, allocated⟩ := Fault.eq_ok_of_bind allocated
  obtain ⟨memory, stored, allocated⟩ := Fault.eq_ok_of_bind allocated
  cases allocated
  obtain ⟨fits, rfl⟩ := Framebuffer.allocate_eq_ok_iff.mp answer
  exact ⟨request, Framebuffer.read_eq_ok_iff.mp read, fits, Framebuffer.grants_granted fits, stored⟩

end Gpu

namespace Bus

variable {holder : Handle} {base limit mail : Word} {gpu : Gpu} {bus : Bus}

/-- What a granted mail leaves in memory. -/
structure Granted (base limit mail : Word) (request frame : Framebuffer)
    (memory written : Memory) : Prop where
  requested : memory.HoldsWords (Gpu.addressOf mail) request.words
  grants : request.Grants limit frame
  descriptor : written.HoldsWords (Gpu.addressOf mail) frame.words
  answer : written.readWord (base + Gpu.readOffset) = .ok (BitVec.ofNat 32 (mail.toNat % 16))
  status : written.readWord (base + Gpu.statusOffset) = .ok 0
  elsewhere : ChangedIn
    (fun place => Framebuffer.FilledIn (Gpu.addressOf mail) place ∨ Attends.Announcement base place)
    memory written

/--
A step that takes a mail succeeds exactly if the descriptor can be read and what it asks for fits
below the end of framebuffers. Then the descriptor is filled in, the mail is answered, the unit is
ready in both directions and keeps what memory now holds, and no other byte has changed. Otherwise
no byte has changed at all, and the unit keeps the framebuffer that it had.
-/
theorem framebuffers_are_granted_whole_or_not_at_all (attends : Attends holder base gpu bus)
    (bounded : gpu.framebufferEnd? = some limit) (waiting : gpu.pending? = some mail)
    (apart : ∀ place, WithinWords (Gpu.addressOf mail) Framebuffer.wordCount place →
      ¬ Within base.toNat Gpu.blockSize.toNat place) :
    ∃ outcome reached after, (step holder).perform bus = (outcome, reached) ∧
      reached.gpu? holder = some after ∧
      (outcome = .ok () ↔ ∃ request : Framebuffer,
        bus.memory.HoldsWords (Gpu.addressOf mail) request.words ∧ request.Fits limit) ∧
      (outcome = .ok () → ∃ request frame,
        Granted base limit mail request frame bus.memory reached.memory ∧
        after = { gpu with
          pending? := none, framebuffer? := some frame, readReady := true, writeReady := true }) ∧
      (outcome ≠ .ok () →
        reached.memory = bus.memory ∧ after.framebuffer? = gpu.framebuffer?) := by
  have takenBounded : ({ gpu with pending? := none } : Gpu).framebufferEnd? = some limit := bounded
  have placed : ({ gpu with pending? := none } : Gpu).mailboxBase? = some base := attends.placed
  rcases attends.perform_step waiting with
    ⟨fault, refused, performed⟩ | ⟨frame, memory, reached, allocated, performed, announced⟩
  · refine ⟨_, _, _, performed, (attends.withGpu placed).gpu?_eq, ⟨nofun, ?_⟩, nofun,
      fun _ => ⟨rfl, rfl⟩⟩
    rintro ⟨request, holds, fits⟩
    obtain ⟨result, granted⟩ := Gpu.allocate_of_fits takenBounded holds fits
    rw [granted] at refused
    cases refused
  · obtain ⟨request, holds, fits, grants, stored⟩ := Gpu.granted_of_allocate takenBounded allocated
    obtain ⟨stands, filled⟩ := Framebuffer.changedIn_of_write holds grants stored
    refine ⟨_, _, _, performed, announced.attends.gpu?_eq, ⟨fun _ => ⟨request, holds, fits⟩,
      fun _ => rfl⟩, fun _ => ⟨request, frame, ?_, rfl⟩, fun failed => absurd rfl failed⟩
    -- The answer goes to the block of the unit, where no word of the descriptor lies.
    have outside (place : Nat)
        (within : WithinWords (Gpu.addressOf mail) Framebuffer.wordCount place) :
        ¬ Attends.Announcement base place := fun inside =>
      apart place within (Attends.within_block_of_announcement inside)
    refine ⟨holds, grants, stands.of_changedIn announced.changes outside, ?_, ?_,
      (filled.widen fun _ => Or.inl).trans (announced.changes.widen fun _ => Or.inr)⟩
    · rw [announced.answer, Gpu.channelOf_eq]
    · rw [announced.publishes, Gpu.statusWord_of_ready rfl rfl]

/-- A wish for four by two pixels of sixteen bits. -/
def small : Framebuffer := ⟨4, 2, 4, 2, 0, 16, 0, 0, 0, 0⟩

/-- The wish begins sixteen bytes before the end of the address space. -/
def wishful : Memory :=
  ((Memory.blank 0x100000000 4).setBytes 0xFFFFFFF0
    [4, 0, 0, 0, 2, 0, 0, 0, 4, 0, 0, 0, 2, 0, 0, 0]).setBytes 4 [16]

/-- A unit with just enough room is asked on channel one. -/
def asking : Bus where
  memory := wishful
  registry := ⟨2, [⟨1, Gpu.watch 0x1000, 0⟩]⟩
  watchers := #[.gpu { Gpu.create (some 0x1000) (some 16) with pending? := some 0xFFFFFFF1 }]
  now := 0
  journal := #[]

/-- The framebuffer takes all the room that there is, and its descriptor is filled in. -/
theorem small_wish_around_the_end_is_granted :
    ∃ reached, (step 0).perform asking = (.ok (), reached) ∧
      reached.memory.readWord 0 = .ok 8 ∧ reached.memory.readWord 16 = .ok 0 ∧
      reached.memory.readWord 20 = .ok 16 ∧ reached.memory.readWord 0x1000 = .ok 1 := by
  have attends : Attends 0 0x1000
      { Gpu.create (some 0x1000) (some 16) with pending? := some 0xFFFFFFF1 } asking :=
    ⟨rfl, rfl, ⟨1, rfl⟩, ⟨by decide, by decide⟩⟩
  have elsewhere : ∀ index < Framebuffer.wordCount,
      (Gpu.addressOf 0xFFFFFFF1 + BitVec.ofNat 32 (4 * index)).toNat + 4 ≤ 0x1000 ∨
        0x1024 ≤ (Gpu.addressOf 0xFFFFFFF1 + BitVec.ofNat 32 (4 * index)).toNat := by decide
  have apart (place : Nat)
      (within : WithinWords (Gpu.addressOf 0xFFFFFFF1) Framebuffer.wordCount place) :
      ¬ Within (0x1000 : Word).toNat Gpu.blockSize.toNat place := by
    obtain ⟨index, below, start, finish⟩ := within
    rintro ⟨above, bound⟩
    have first : 0x1000 ≤ place := above
    have last : place < 0x1024 := bound
    have outside := elsewhere index below
    omega
  have holds : asking.memory.HoldsWords (Gpu.addressOf 0xFFFFFFF1) small.words :=
    Framebuffer.read_eq_ok_iff.mp rfl
  have fits : small.Fits 16 := ⟨by decide, by decide, by decide⟩
  obtain ⟨outcome, reached, after, performed, _, succeeds, commits, _⟩ :=
    framebuffers_are_granted_whole_or_not_at_all attends rfl rfl apart
  obtain rfl := succeeds.mpr ⟨small, holds, fits⟩
  obtain ⟨request, frame, granted, _⟩ := commits rfl
  have read := Framebuffer.read_eq_ok_iff.mpr granted.requested
  rw [Framebuffer.read_eq_ok_iff.mpr holds] at read
  cases read
  have pitch : frame.pitch = 8 := BitVec.eq_of_toNat_eq granted.grants.pitch
  have pointer : frame.pointer = 0 := BitVec.eq_of_toNat_eq granted.grants.pointer
  have size : frame.size = 16 := BitVec.eq_of_toNat_eq granted.grants.size
  have stands := Memory.holdsWords_iff.mp granted.descriptor
  refine ⟨reached, performed, ?_, ?_, ?_, granted.answer⟩
  · rw [← pitch]
    exact stands 4 _ rfl
  · rw [← pointer]
    exact stands 8 _ rfl
  · rw [← size]
    exact stands 9 _ rfl

end Bus

end ArmBoard
