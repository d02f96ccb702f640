import ArmBoard.Bus.Peripherals
import ArmBoard.Proofs.Bus.Habit
import ArmBoard.Proofs.Peripheral.Hearing

/-!
# A graphics unit alone on the bus

When the watch of a graphics unit is the only subscription, every report goes
to the unit, and only to it. What an access or a step comes to is then settled
by the unit and by memory alone.
-/
namespace ArmBoard

open Memory (Within ChangedIn)

namespace Bus

open Gpu (Room Register Reacts)

/-- The unit of a handle is on the bus with the only subscription, and its block lies in memory. -/
structure Attends (holder : Handle) (base : Word) (gpu : Gpu) (bus : Bus) : Prop where
  present : bus.watchers[holder]? = some (.gpu gpu)
  placed : gpu.mailboxBase? = some base
  alone : ∃ id, bus.registry.subscriptions = [⟨id, Gpu.watch base, holder⟩]
  room : Room base bus.memory

variable {holder : Handle} {base : Word} {gpu : Gpu} {bus : Bus}

def gpu? (holder : Handle) (bus : Bus) : Option Gpu :=
  match bus.watchers[holder]? with
  | some (.gpu gpu) => some gpu
  | _ => none

theorem notify_gpu (present : bus.watchers[holder]? = some (.gpu gpu)) (report : Reporter)
    (subscription : Nat) (touch : Touch) :
    bus.notify report subscription holder touch =
      { bus with memory := (gpu.hear bus.memory touch).2 }.setWatcher holder
        (.gpu (gpu.hear bus.memory touch).1) := by
  rw [notify, present]

theorem overlaps_of_covers {memory : Memory} (room : Room base memory) {touch : Touch}
    {offset : Word} (within : offset.toNat < Gpu.blockSize.toNat)
    (covers : touch.covers (base + offset) = true) :
    (Gpu.watch base).overlaps touch = true := by
  simp only [Touch.covers, room.toNat_add within, Bool.and_eq_true, decide_eq_true_eq] at covers
  have first : touch.address.toNat < base.toNat + Gpu.blockSize.toNat := by omega
  have second : base.toNat < touch.address.toNat + touch.length := by omega
  exact Bool.and_eq_true_iff.mpr ⟨decide_eq_true first, decide_eq_true second⟩

namespace Attends

theorem gpu?_eq (attends : Attends holder base gpu bus) : bus.gpu? holder = some gpu := by
  rw [gpu?, attends.present]

theorem hearing_eq (attends : Attends holder base gpu bus) (touch : Touch) :
    ∃ id, bus.registry.hearing touch =
      if (Gpu.watch base).hears touch then [⟨id, Gpu.watch base, holder⟩] else [] := by
  obtain ⟨id, alone⟩ := attends.alone
  refine ⟨id, ?_⟩
  rw [Registry.hearing, alone, List.filter_cons, List.filter_nil]

theorem report_preRead (attends : Attends holder base gpu bus) (busy : List Handle) (address : Word)
    (length : Nat) : report busy ⟨.preRead, address, length⟩ bus = bus := by
  obtain ⟨id, hearing⟩ := attends.hearing_eq ⟨.preRead, address, length⟩
  exact report_eq_self hearing busy

theorem report_busy (attends : Attends holder base gpu bus) (touch : Touch) :
    report [holder] touch bus = bus := by
  obtain ⟨id, hearing⟩ := attends.hearing_eq touch
  unfold report
  cases bus.watchers.size with
  | zero => rfl
  | succ level =>
    rw [reportWithin, hearing]
    split
    · -- The one who hears of it is the unit itself.
      simp
    · rfl

/-- An access in the window is delivered to the unit, whose reaction is the only effect. -/
theorem report_heard (attends : Attends holder base gpu bus) {touch : Touch}
    (heard : (Gpu.watch base).hears touch = true) :
    (Bus.report [] touch bus).memory = (gpu.hear bus.memory touch).2 ∧
      (Bus.report [] touch bus).watchers[holder]? =
        some (.gpu (gpu.hear bus.memory touch).1) ∧
      (Bus.report [] touch bus).registry = bus.registry := by
  obtain ⟨id, hearing⟩ := attends.hearing_eq touch
  rw [if_pos heard] at hearing
  obtain ⟨inside, _⟩ := Array.getElem?_eq_some_iff.mp attends.present
  -- The unit is one of the watchers, so that there is a level to be told on.
  obtain ⟨level, levels⟩ : ∃ level, bus.watchers.size = level + 1 :=
    ⟨bus.watchers.size - 1, by omega⟩
  have delivered : Bus.report [] touch bus =
      bus.deliver (reportWithin level [holder]) ⟨id, Gpu.watch base, holder⟩ touch := by
    rw [Bus.report, levels, reportWithin, hearing]
    rfl
  have noted : (bus.note (.entered id holder touch)).watchers[holder]? = some (.gpu gpu) :=
    attends.present
  rw [delivered, deliver]
  dsimp only
  rw [notify_gpu noted]
  exact ⟨rfl, present_setWatcher attends.present _, rfl⟩

theorem report (attends : Attends holder base gpu bus) (touch : Touch) :
    ∃ after, Attends holder base after (Bus.report [] touch bus) ∧
      Reacts base gpu bus.memory touch (after, (Bus.report [] touch bus).memory) := by
  by_cases heard : (Gpu.watch base).hears touch = true
  · have reacts := Gpu.reacts_of_hear attends.room attends.placed touch
    obtain ⟨memory, present, registry⟩ := attends.report_heard heard
    refine ⟨(gpu.hear bus.memory touch).1, ⟨present, reacts.placed attends.placed, ?_, ?_⟩, ?_⟩
    · rw [registry]
      exact attends.alone
    · rw [memory]
      exact attends.room.of_changedIn reacts.changedIn
    · rw [memory]
      exact reacts
  · obtain ⟨id, hearing⟩ := attends.hearing_eq touch
    rw [if_neg heard] at hearing
    rw [report_eq_self hearing]
    refine ⟨gpu, attends, .ignored ?_⟩
    rintro ⟨written, _, covers⟩
    -- A write of the write register would have been heard.
    refine heard (Bool.and_eq_true_iff.mpr ⟨?_, overlaps_of_covers attends.room (by decide) covers⟩)
    rw [written]
    rfl

end Attends

/-- What an operation of the program comes to for the unit and for memory. -/
inductive Serves (base : Word) (gpu : Gpu) (memory : Memory) (operation : Operation) :
    Except Fault Reply → Gpu × Memory → Prop
  /-- Neither memory nor the unit has changed. -/
  | failed {fault : Fault} : Serves base gpu memory operation (.error fault) (gpu, memory)
  /-- The unit has not heard of it. -/
  | plain {reply : Reply} {changed : Memory} (unreported : operation.report? = none)
      (changes : ChangedIn operation.MayWrite memory changed) :
      Serves base gpu memory operation (.ok reply) (gpu, changed)
  /-- The unit has reacted to it. -/
  | tracked {reply : Reply} {changed : Memory} {touch : Touch} {after : Gpu × Memory}
      (reported : operation.report? = some touch)
      (changes : ChangedIn operation.MayWrite memory changed)
      (reacts : Reacts base gpu changed touch after) :
      Serves base gpu memory operation (.ok reply) after

namespace Attends

theorem withMemory (attends : Attends holder base gpu bus) {memory : Memory}
    {places : Nat → Prop} (changes : ChangedIn places bus.memory memory) :
    Attends holder base gpu { bus with memory } :=
  ⟨attends.present, attends.placed, attends.alone, attends.room.of_changedIn changes⟩

end Attends

/-- The result of an operation, as the unit and memory account for it. -/
def Served (holder : Handle) (base : Word) (gpu : Gpu) (bus : Bus) (operation : Operation)
    (result : Except Fault Reply × Bus) : Prop :=
  ∃ after, Attends holder base after result.2 ∧
    Serves base gpu bus.memory operation result.1 (after, result.2.memory)

namespace Attends

theorem served_store (attends : Attends holder base gpu bus) (width : Width) (address : Word)
    (value : BitVec (8 * width.bytes)) :
    Served holder base gpu bus (.write width address value true)
      ((perform (Bus.report []) (.write width address value true)).perform bus) := by
  rw [perform, Action.perform_bind, store, Action.perform_ofFunction]
  cases stored : bus.memory.write width.bytes address value with
  | error fault => exact ⟨gpu, attends, .failed⟩
  | ok memory =>
    have changes := Memory.changedIn_of_write stored
    obtain ⟨after, attending, reacts⟩ :=
      (attends.withMemory changes).report ⟨.write, address, width.bytes⟩
    exact ⟨after, attending, .tracked rfl changes reacts⟩

theorem served_load (attends : Attends holder base gpu bus) (width : Width) (address : Word) :
    Served holder base gpu bus (.read width address true)
      ((perform (Bus.report []) (.read width address true)).perform bus) := by
  rw [perform, Action.perform_bind, load, Action.perform_ofFunction]
  cases bus.memory.check address width.bytes with
  | error fault => exact ⟨gpu, attends, .failed⟩
  | ok _ =>
    dsimp only
    rw [attends.report_preRead]
    cases bus.memory.read width.bytes address with
    | error fault => exact ⟨gpu, attends, .failed⟩
    | ok value =>
      obtain ⟨after, attending, reacts⟩ := attends.report ⟨.read, address, width.bytes⟩
      exact ⟨after, attending, .tracked rfl (.refl _ _) reacts⟩

/-- A write that is not tracked is refused or changes memory, and the unit does not hear of it. -/
theorem served_unreported (attends : Attends holder base gpu bus) {operation : Operation}
    (count : Nat) (address : Word) (value : Bus → BitVec (8 * count))
    (unreported : operation.report? = none)
    (places : operation.MayWrite = Within address.toNat count) :
    Served holder base gpu bus operation
      ((do
        Action.changeOr fun bus : Bus =>
          (bus.memory.write count address (value bus)).map fun memory => { bus with memory }
        return .done : Action Bus Reply).perform bus) := by
  rw [Action.perform_bind, Action.perform, Action.changeOr]
  cases stored : bus.memory.write count address (value bus) with
  | error fault => exact ⟨gpu, attends, .failed⟩
  | ok memory =>
    have changes := Memory.changedIn_of_write stored
    refine ⟨gpu, attends.withMemory changes, .plain unreported ?_⟩
    rw [places]
    exact changes

theorem served (attends : Attends holder base gpu bus) {operation : Operation}
    (access : operation.isAccess = true) :
    Served holder base gpu bus operation
      ((perform (Bus.report []) operation).perform bus) := by
  -- Only tracked reads and writes are reported; all else concerns memory alone.
  cases operation with
  | write width address value tracked =>
    cases tracked with
    | true => exact attends.served_store width address value
    | false => exact attends.served_unreported width.bytes address (fun _ => value) rfl rfl
  | read width address tracked =>
    cases tracked with
    | true => exact attends.served_load width address
    | false =>
      rw [perform, Action.perform_bind, Action.perform_ask]
      cases bus.memory.read width.bytes address with
      | error fault => exact ⟨gpu, attends, .failed⟩
      | ok value => exact ⟨gpu, attends, .plain rfl (.refl _ _)⟩
  | addWord address value =>
    exact attends.served_unreported 4 address
      (fun bus => (bus.memory.readWord address).toOption.getD 0 + value) rfl rfl
  | putChunk address bytes =>
    have changes := Memory.changedIn_putChunk bus.memory address bytes
    exact ⟨gpu, attends.withMemory changes, .plain rfl changes⟩
  | chunk | pages | extent => exact ⟨gpu, attends, .plain rfl (.refl _ _)⟩
  | observe | unobserve => cases access

end Attends

/-- What a step comes to for the unit and for memory. -/
inductive Steps (base : Word) (gpu : Gpu) (memory : Memory) :
    Except Fault Unit → Gpu × Memory → Prop
  | idle (waiting : gpu.pending? = none) : Steps base gpu memory (.ok ()) (gpu, memory)
  /-- The mail is taken, but no framebuffer can be allocated for it. -/
  | refused {mail : Word} {fault : Fault} (waiting : gpu.pending? = some mail)
      (refused : gpu.allocate memory mail = .error fault) :
      Steps base gpu memory (.error fault) ({ gpu with pending? := none }, memory)
  /-- The mail is taken and answered, and the unit is ready again. -/
  | answered {mail : Word} {after : Gpu} {written : Memory} (waiting : gpu.pending? = some mail)
      (ready : after.readReady = true ∧ after.writeReady = true)
      (taken : after.pending? = none)
      (publishes : after.Publishes base written)
      (answer : written.readWord (base + Gpu.readOffset) = .ok (Gpu.channelOf mail)) :
      Steps base gpu memory (.ok ()) (after, written)

def Stepped (holder : Handle) (base : Word) (gpu : Gpu) (bus : Bus)
    (result : Except Fault Unit × Bus) : Prop :=
  ∃ after, Attends holder base after result.2 ∧
    Steps base gpu bus.memory result.1 (after, result.2.memory)

namespace Attends

theorem withGpu (attends : Attends holder base gpu bus) {other : Gpu}
    (placed : other.mailboxBase? = some base) :
    Attends holder base other (bus.setWatcher holder (.gpu other)) :=
  ⟨present_setWatcher attends.present _, placed, attends.alone, attends.room⟩

theorem perform_changeGpu (attends : Attends holder base gpu bus) (update : Gpu → Gpu) :
    (changeGpu holder update).perform bus =
      (.ok (), bus.setWatcher holder (.gpu (update gpu))) := by
  rw [changeGpu, Action.perform_change, attends.present]

/-- The unit writes its block unheard, being busy itself. -/
theorem perform_store (attends : Attends holder base gpu bus) (offset word : Word)
    (within : offset.toNat + 4 ≤ Gpu.blockSize.toNat) :
    ∃ written, (store (Bus.report [holder]) 4 (base + offset) word).perform bus =
        (.ok (), { bus with memory := written }) ∧
      written.readWord (base + offset) = .ok word ∧
      ChangedIn (Register base offset) bus.memory written := by
  obtain ⟨written, stored, changes⟩ := attends.room.exists_writeWord offset word within
  refine ⟨written, ?_, Memory.read_write stored, changes⟩
  rw [Memory.writeWord] at stored
  rw [store, Action.perform_ofFunction, stored]
  dsimp only
  rw [(attends.withMemory changes).report_busy]

/-- Shows the flags of a unit, if that is what a handle stands for. -/
def publish (holder : Handle) : Action Bus Unit := Action.changeOr fun bus : Bus =>
  match bus.watchers[holder]? with
  | some (.gpu gpu) => (gpu.publishStatus bus.memory).map fun memory => { bus with memory }
  | _ => .ok bus

theorem perform_publish (attends : Attends holder base gpu bus) :
    ∃ written, (publish holder).perform bus = (.ok (), { bus with memory := written }) ∧
      gpu.Publishes base written ∧
      ChangedIn (Register base Gpu.statusOffset) bus.memory written := by
  obtain ⟨written, published, shown, changes⟩ := attends.room.exists_published attends.placed
  refine ⟨written, ?_, shown, changes⟩
  rw [publish, Action.perform, Action.changeOr, attends.present]
  dsimp only
  rw [published]
  rfl

/-- The places that an answer takes in the block. -/
def Announcement (base : Word) (place : Nat) : Prop :=
  Register base Gpu.readOffset place ∨ Register base Gpu.statusOffset place

theorem within_block_of_announcement {place : Nat} (inside : Announcement base place) :
    Within base.toNat Gpu.blockSize.toNat place := by
  have block : Gpu.blockSize.toNat = 0x24 := rfl
  rcases inside with ⟨above, below⟩ | ⟨above, below⟩
  · have offset : Gpu.readOffset.toNat = 0 := rfl
    exact ⟨by omega, by omega⟩
  · have offset : Gpu.statusOffset.toNat = 0x18 := rfl
    exact ⟨by omega, by omega⟩

/-- A unit that has put an answer on a channel and shows its flags, and all that changed for it. -/
structure Announced (holder : Handle) (base : Word) (gpu : Gpu) (channel : Word) (memory : Memory)
    (bus : Bus) : Prop where
  attends : Attends holder base gpu bus
  publishes : gpu.Publishes base bus.memory
  answer : bus.memory.readWord (base + Gpu.readOffset) = .ok channel
  changes : ChangedIn (Announcement base) memory bus.memory

/-- Once a framebuffer is allocated, the rest of the answer cannot fail. -/
theorem perform_announcement (attends : Attends holder base gpu bus) {block : Except Fault Word}
    (known : block = .ok base) (channel : Word) :
    ∃ reached, (do
        let base ← Action.ask fun _ => block
        store (Bus.report [holder]) 4 (base + Gpu.readOffset) channel
        changeGpu holder fun gpu => { gpu with readReady := true, writeReady := true }
        publish holder : Action Bus Unit).perform bus = (.ok (), reached) ∧
      Announced holder base { gpu with readReady := true, writeReady := true } channel bus.memory
        reached := by
  obtain ⟨stored, storing, answer, answered⟩ :=
    attends.perform_store Gpu.readOffset channel (by decide)
  have answering := attends.withMemory answered
  let ready : Gpu := { gpu with readReady := true, writeReady := true }
  have placed : ready.mailboxBase? = some base := attends.placed
  have readied := answering.withGpu placed
  obtain ⟨shown, publishing, publishes, changes⟩ := readied.perform_publish
  -- Showing the flags does not touch the answer.
  have apart (place : Nat) (inside : Register base Gpu.readOffset place) :
      ¬ Register base Gpu.statusOffset place := Gpu.register_apart (by decide) inside
  have kept := (answering.room.readWord_eq (by decide) changes apart).trans answer
  have both := (answered.widen fun _ => Or.inl).trans (changes.widen fun _ => Or.inr)
  refine ⟨_, ?_, readied.withMemory changes, publishes, kept, both⟩
  rw [Action.perform_bind, Action.perform_ask, known]
  dsimp only
  rw [Action.perform_bind, storing]
  dsimp only
  rw [Action.perform_bind, answering.perform_changeGpu]
  exact publishing

/-- An answer fails only for want of a framebuffer, and then nothing has been changed. -/
theorem perform_answerMail (attends : Attends holder base gpu bus) (mail : Word) :
    (∃ fault, gpu.allocate bus.memory mail = .error fault ∧
      (answerMail holder gpu mail).perform bus = (.error fault, bus)) ∨
    ∃ frame memory reached,
      gpu.allocate bus.memory mail = .ok ({ gpu with framebuffer? := some frame }, memory) ∧
      (answerMail holder gpu mail).perform bus = (.ok (), reached) ∧
      Announced holder base
        { gpu with framebuffer? := some frame, readReady := true, writeReady := true }
        (Gpu.channelOf mail) memory reached := by
  have known : gpu.mailboxBase = .ok base := by rw [Gpu.mailboxBase, attends.placed]
  rw [answerMail, Action.perform_bind, Action.perform, Action.changeOr]
  -- Behind the allocation only registers are written, which lie in memory.
  cases allocated : gpu.allocate bus.memory mail with
  | error fault => exact Or.inl ⟨fault, rfl, rfl⟩
  | ok result =>
    obtain ⟨allocating, memory⟩ := result
    obtain ⟨frame, rfl, changes⟩ := Gpu.allocate_eq_ok allocated
    let framed : Gpu := { gpu with framebuffer? := some frame }
    have placed : framed.mailboxBase? = some base := attends.placed
    obtain ⟨reached, performed, announced⟩ :=
      ((attends.withMemory changes).withGpu placed).perform_announcement known (Gpu.channelOf mail)
    exact Or.inr ⟨frame, memory, reached, rfl, performed, announced⟩

/-- A step takes the mail that waits, and fails only for want of a framebuffer. -/
theorem perform_step (attends : Attends holder base gpu bus) {mail : Word}
    (waiting : gpu.pending? = some mail) :
    let taken : Gpu := { gpu with pending? := none }
    (∃ fault, taken.allocate bus.memory mail = .error fault ∧
      (step holder).perform bus = (.error fault, bus.setWatcher holder (.gpu taken))) ∨
    ∃ frame memory reached,
      taken.allocate bus.memory mail = .ok ({ taken with framebuffer? := some frame }, memory) ∧
      (step holder).perform bus = (.ok (), reached) ∧
      Announced holder base
        { taken with framebuffer? := some frame, readReady := true, writeReady := true }
        (Gpu.channelOf mail) memory reached := by
  intro taken
  have placed : taken.mailboxBase? = some base := attends.placed
  rw [step, Action.perform_ofFunction, attends.present]
  dsimp only
  rw [waiting]
  exact (attends.withGpu placed).perform_answerMail mail

theorem stepped (attends : Attends holder base gpu bus) :
    Stepped holder base gpu bus ((step holder).perform bus) := by
  cases waiting : gpu.pending? with
  | none =>
    rw [step, Action.perform_ofFunction, attends.present]
    dsimp only
    rw [waiting]
    exact ⟨gpu, attends, .idle waiting⟩
  | some mail =>
    rcases attends.perform_step waiting with
      ⟨fault, refused, performed⟩ | ⟨frame, memory, reached, _, performed, announced⟩
    · have placed : ({ gpu with pending? := none } : Gpu).mailboxBase? = some base := attends.placed
      rw [performed]
      exact ⟨_, attends.withGpu placed, .refused waiting (Gpu.allocate_eq_error refused rfl)⟩
    · rw [performed]
      exact ⟨_, announced.attends,
        .answered waiting ⟨rfl, rfl⟩ rfl announced.publishes announced.answer⟩

end Attends

end Bus

end ArmBoard
