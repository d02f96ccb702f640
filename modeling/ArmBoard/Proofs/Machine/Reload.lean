import ArmBoard.Proofs.Execution.Lockstep
import ArmBoard.Proofs.Machine.NextAddress
import ArmBoard.Proofs.Memory.Frame

/-!
# Loading a program once more

A program that is loaded into a machine that has run finds r15 ahead of the
next instruction by the words in the queue. Loading drops these words and leaves
r15, and so the machine goes on behind the instructions that were queued, even
if the bytes that were loaded are the ones that memory already held. Which pages
hold them is of no consequence.
-/
namespace ArmBoard

/-- Storing bytes that are already there changes no byte, though it may allocate pages. -/
theorem Memory.alike_putChunk {memory : Memory} {bytes : List Byte}
    (held : ∀ (index : Nat) (inside : index < bytes.length), index < memory.size →
      memory.byteAt index = bytes[index]) : memory.Alike (memory.putChunk 0 bytes).2 where
  size := rfl
  pageBits := rfl
  byteAt place := by
    have zero : (0 : Word).toNat = 0 := rfl
    rw [putChunk]
    dsimp only
    rw [byteAt_setBytes, zero, if_pos (Nat.zero_le place), Nat.sub_zero]
    cases found : (bytes.take (memory.room 0 bytes.length))[place]? with
    | none => rfl
    | some byte =>
      obtain ⟨stored, same⟩ := List.getElem?_eq_some_iff.mp found
      rw [List.getElem_take] at same
      simp only [List.length_take, room, zero] at stored
      rw [held place (by omega) (by omega), same]
      rfl

namespace Machine

open ArmBoard.Action (Respects)

/-- Machines without peripherals that differ at most in the pages of memory and in the journal. -/
structure Alike (machine other : Machine) : Prop where
  core : machine.toCore.Alike other.toCore
  fetched : machine.fetched = other.fetched
  cycles : machine.cycles = other.cycles
  unattended : machine.attachments = []
  otherUnattended : other.attachments = []

section Lockstep

theorem onCore_respects {α : Type} {action : Action Core α}
    (respects : Respects Core.Alike action) : Respects Alike (onCore action) := by
  apply respects.onPart
  · intro machine other alike
    exact alike.core
  · intro machine other core otherCore alike same
    exact ⟨same, alike.fetched, alike.cycles, alike.unattended, alike.otherUnattended⟩

theorem stepPeripherals_respects : Respects Alike stepPeripherals := by
  constructor
  intro machine other alike
  rw [perform_stepPeripherals alike.unattended, perform_stepPeripherals alike.otherUnattended]
  exact ⟨rfl, alike⟩

theorem fetch_respects : Respects Alike fetch := by
  constructor
  intro machine other alike
  have read : machine.bus.memory.readWord machine.cpu.registers.pc =
      other.bus.memory.readWord other.cpu.registers.pc := by
    rw [alike.core.cpu, alike.core.bus.memory.readWord_eq]
  rw [perform_fetch, perform_fetch, read]
  cases other.bus.memory.readWord other.cpu.registers.pc with
  | error fault => exact ⟨rfl, alike⟩
  | ok word =>
    have advanced := congrArg (fun cpu : Cpu =>
      { cpu with registers := cpu.registers.advancePc instructionSize }) alike.core.cpu
    exact ⟨rfl, ⟨advanced, alike.core.bus⟩, congrArg (· ++ [word]) alike.fetched, alike.cycles,
      alike.unattended, alike.otherUnattended⟩

theorem fillQueue_respects (missing : Nat) : Respects Alike (fillQueue missing) := by
  induction missing with
  | zero => exact .pure _
  | succ missing ih => exact fetch_respects.bind fun _ => ih

theorem takeFetched_respects : Respects Alike takeFetched := by
  constructor
  intro machine other alike
  rw [takeFetched, Action.perform_ofFunction, Action.perform_ofFunction, alike.fetched]
  cases other.fetched with
  | nil => exact ⟨rfl, alike⟩
  | cons word rest =>
    exact ⟨rfl, alike.core, rfl, alike.cycles, alike.unattended, alike.otherUnattended⟩

theorem executeWord_respects (address word : Word) : Respects Alike (executeWord address word) := by
  apply Respects.mapFault
  apply Respects.bind (Respects.ask fun _ => rfl)
  intro opcode
  exact onCore_respects (Core.execute_holds opcode : Core.lockstep.holds _)

theorem cycle_respects : Respects Alike cycle := by
  apply Respects.bind stepPeripherals_respects
  intro _
  apply Respects.bind (Respects.ask fun alike => by rw [alike.fetched])
  intro queued
  apply Respects.bind (fillQueue_respects _)
  intro _
  apply Respects.bind (onCore_respects (Core.lockstep.pc : Core.lockstep.holds _))
  intro ahead
  apply Respects.bind takeFetched_respects
  intro word
  apply Respects.bind (executeWord_respects _ word)
  intro branched
  apply Respects.change
  intro machine other alike
  refine ⟨alike.core, ?_, congrArg (· + 1) alike.cycles, alike.unattended, alike.otherUnattended⟩
  dsimp only
  rw [alike.fetched]

end Lockstep

/-- The machine after a number of cycles, those that stop with a fault included. -/
def cycled : Nat → Machine → Machine
  | 0, machine => machine
  | count + 1, machine => cycled count (cycle.perform machine).2

/-- Every cycle from now on has one outcome on both machines, and leaves them alike. -/
def Accompanies (machine other : Machine) : Prop :=
  ∀ count, (cycle.perform (machine.cycled count)).1 = (cycle.perform (other.cycled count)).1 ∧
    Alike (machine.cycled (count + 1)) (other.cycled (count + 1))

section Reloading

variable {start machine other : Machine}

theorem Alike.cycled (alike : Alike machine other) (count : Nat) :
    Alike (machine.cycled count) (other.cycled count) := by
  induction count generalizing machine other with
  | zero => exact alike
  | succ count ih => exact ih (cycle_respects.both alike).2

theorem Alike.accompanies (alike : Alike machine other) : Accompanies machine other := by
  intro count
  have now := alike.cycled count
  exact ⟨(cycle_respects.both now).1, alike.cycled (count + 1)⟩

theorem Reaches.short (reaches : start.Reaches machine) (unattended : start.attachments = [])
    (empty : start.fetched = []) : machine.fetched.length ≤ 1 := by
  induction reaches with
  | start => simp [empty]
  | later before ih => exact (cycle_proceeds (before.unattended unattended) ih).short

/-- The machine with an empty queue, about to fetch from an address. -/
def resumedAt (address : Word) (machine : Machine) : Machine :=
  ⟨machine.toCore.atPc address, [], machine.attachments, machine.cycles⟩

theorem resumedAt_pc (machine : Machine) :
    machine.resumedAt machine.cpu.registers.pc = { machine with fetched := [] } := by
  rw [resumedAt, Core.atPc_self]

/-- A word that is fetched again where it was fetched before makes no difference. -/
theorem perform_cycle_resumedAt (unattended : machine.attachments = [])
    (short : machine.fetched.length ≤ 1)
    (fresh : ∀ word ∈ machine.fetched, machine.bus.memory.readWord machine.next = .ok word) :
    cycle.perform (machine.resumedAt machine.next) = cycle.perform machine := by
  match queued : machine.fetched with
  | [] =>
    rw [next_of_empty queued, resumedAt_pc, ← queued]
  | [word] =>
    have read := fresh word (by simp [queued])
    have ahead : machine.next + instructionSize = machine.cpu.registers.pc := by
      rw [next, queued]
      exact BitVec.sub_add_cancel _ _
    -- After one word the queue is the same, and so is r15.
    have refetched : fetch.perform (machine.resumedAt machine.next) = (.ok (), machine) := by
      rw [resumedAt, perform_fetch_of_read [] _ _ (Core.pc_atPc _ _) read, ahead, Core.atPc_atPc,
        Core.atPc_self, List.nil_append, ← queued]
    have filled : (fillQueue (fetchDepth - (machine.resumedAt machine.next).fetched.length)).perform
        (machine.resumedAt machine.next) =
          (fillQueue (fetchDepth - machine.fetched.length)).perform machine := by
      rw [queued]
      change (fillQueue (1 + 1)).perform _ = (fillQueue 1).perform machine
      rw [perform_fillQueue_succ, refetched]
    have alone : (machine.resumedAt machine.next).attachments = [] := unattended
    rw [perform_cycle alone, perform_cycle unattended, filled]
  | _ :: _ :: _ =>
    rw [queued] at short
    simp only [List.length_cons] at short
    omega

/-- It is enough that both come to the same by their first cycle. -/
theorem Accompanies.of_first {third : Machine} (same : cycle.perform machine = cycle.perform other)
    (accompanies : Accompanies other third) : Accompanies machine third := by
  have later (count : Nat) : machine.cycled (count + 1) = other.cycled (count + 1) := by
    rw [Machine.cycled, Machine.cycled, same]
  intro count
  obtain ⟨outcome, alike⟩ := accompanies count
  rw [later]
  refine ⟨?_, alike⟩
  cases count with
  | zero => exact (congrArg Prod.fst same).trans outcome
  | succ count =>
    rw [later]
    exact outcome

variable {program : List Byte} {count : Nat} {loaded : Machine}

/-- From the same address, the machine with the program in place goes on as the one without. -/
theorem alike_of_loadProgram (unattended : machine.attachments = [])
    (ignorant : ∀ watcher ∈ machine.bus.watchers, watcher.IgnoresPages)
    (held : ∀ (index : Nat) (inside : index < program.length), index < machine.bus.memory.size →
      machine.bus.memory.byteAt index = program[index])
    (loads : machine.loadProgram program = (count, loaded)) (address : Word) :
    Alike (machine.resumedAt address) (loaded.resumedAt address) := by
  cases loads
  have bus : machine.bus.Alike (machine.loadProgram program).2.bus :=
    ⟨Memory.alike_putChunk held, rfl, rfl, rfl, ignorant⟩
  exact ⟨⟨rfl, bus⟩, rfl, rfl, unattended, unattended⟩

/-- The queue is empty, and r15 is where it was. -/
theorem resumedAt_of_loadProgram (loads : machine.loadProgram program = (count, loaded)) :
    loaded.resumedAt machine.cpu.registers.pc = loaded := by
  cases loads
  exact resumedAt_pc _

/--
A machine that has loaded what memory already holds goes on like one that fetches afresh behind
the words it had queued. Were r15 set back by these words, and they still stood in memory, it would
go on as before; as it is, it does so if none were queued. Loading may allocate pages, and observers
must not go by that.
-/
theorem reloaded_machine_goes_on_behind_the_queue (unattended : start.attachments = [])
    (empty : start.fetched = []) (reaches : start.Reaches machine)
    (ignorant : ∀ watcher ∈ machine.bus.watchers, watcher.IgnoresPages)
    (held : ∀ (index : Nat) (inside : index < program.length), index < machine.bus.memory.size →
      machine.bus.memory.byteAt index = program[index])
    (fresh : ∀ word ∈ machine.fetched, machine.bus.memory.readWord machine.next = .ok word)
    (loads : machine.loadProgram program = (count, loaded)) :
    machine.fetched.length ≤ 1 ∧
    loaded.next = machine.next + instructionSize * BitVec.ofNat 32 machine.fetched.length ∧
    Accompanies (machine.resumedAt loaded.next) loaded ∧
    Accompanies machine (loaded.resumedAt machine.next) ∧
    (machine.fetched = [] → Accompanies machine loaded) := by
  have alone := reaches.unattended unattended
  have short := reaches.short unattended empty
  have alike := alike_of_loadProgram alone ignorant held loads
  have ahead := alike machine.cpu.registers.pc
  -- Loading empties the queue and leaves r15, so nothing need be set for the loaded machine.
  rw [resumedAt_of_loadProgram loads] at ahead
  have behind : loaded.next = machine.cpu.registers.pc := by
    rw [next_of_empty ahead.fetched.symm, ← ahead.core.cpu]
    exact Core.pc_atPc _ _
  refine ⟨short, ?_, ?_, ?_, fun idle => ?_⟩
  · rw [behind, next, BitVec.sub_add_cancel]
  · rw [behind]
    exact ahead.accompanies
  · exact (alike machine.next).accompanies.of_first (perform_cycle_resumedAt alone short fresh).symm
  · rw [resumedAt_pc, ← idle] at ahead
    exact ahead.accompanies

end Reloading

/-- Instructions that set r0 to r3, one after the other. -/
def settings : List Byte :=
  Bytes.ofValue 4 0xE3A00001#32 ++ Bytes.ofValue 4 0xE3A01002#32 ++ Bytes.ofValue 4 0xE3A02003#32 ++
    Bytes.ofValue 4 0xE3A03004#32

/-- The program is loaded. There is an observer that asks for pages, but it has no subscription. -/
def settingOut : Machine :=
  let machine := ((ofMemory (.blank 64 4)).loadProgram settings).2
  { machine with bus := { machine.bus with watchers := #[.script [(.preRead, .pages)]] } }

/-- The first instruction has been executed, and the second one is queued. -/
def underWay : Machine := (cycle.perform settingOut).2

theorem next_underWay : underWay.next = 4 := by decide +kernel

theorem fetched_underWay : underWay.fetched = [0xE3A01002#32] := by decide +kernel

theorem watchers_underWay : underWay.bus.watchers = #[.script [(.preRead, .pages)]] := by
  rfl

theorem held_underWay :
    ∀ place : Fin settings.length, underWay.bus.memory.byteAt place = settings[place] := by
  decide +kernel

theorem fresh_underWay (word : Word) (queued : word ∈ underWay.fetched) :
    underWay.bus.memory.readWord underWay.next = .ok word := by
  have bytes : underWay.bus.memory.bytesAt 4 4 = Bytes.ofValue 4 0xE3A01002#32 := by
    decide +kernel
  rw [fetched_underWay, List.mem_singleton] at queued
  have inside : (4 : Word).toNat + 4 ≤ underWay.bus.memory.size := by decide +kernel
  rw [next_underWay, Memory.readWord, Memory.read, Memory.check_eq_ok inside, queued]
  change Except.ok (Bytes.toValue 4 (underWay.bus.memory.bytesAt 4 4)) = _
  rw [bytes, Bytes.toValue_ofValue]

/-- Loaded once more, the program goes on with its third instruction. -/
theorem third_instruction_follows_the_first :
    ∃ count loaded, underWay.loadProgram settings = (count, loaded) ∧ loaded.next = 8 ∧
      Accompanies (underWay.resumedAt 8) loaded ∧ Accompanies underWay (loaded.resumedAt 4) := by
  rcases loads : underWay.loadProgram settings with ⟨count, loaded⟩
  have reaches : settingOut.Reaches underWay := .later .start
  have ignorant : ∀ watcher ∈ underWay.bus.watchers, watcher.IgnoresPages := by
    simp [watchers_underWay, Watcher.ignoresPages_script]
  obtain ⟨_, behind, after, before, _⟩ := reloaded_machine_goes_on_behind_the_queue rfl rfl reaches
    ignorant (fun index inside _ => held_underWay ⟨index, inside⟩) fresh_underWay loads
  have third : loaded.next = 8 := by
    rw [behind, next_underWay, fetched_underWay]
    rfl
  rw [third] at after
  rw [next_underWay] at before
  exact ⟨count, loaded, rfl, third, after, before⟩

/-- It is not true that loading what memory already holds goes unnoticed. -/
theorem second_instruction_is_skipped :
    ¬ ∀ start machine : Machine, start.attachments = [] → start.fetched = [] →
      start.Reaches machine → ∀ program : List Byte,
        (∀ (index : Nat) (inside : index < program.length),
          machine.bus.memory.byteAt index = program[index]) →
        (∀ word ∈ machine.fetched, machine.bus.memory.readWord machine.next = .ok word) →
          Accompanies machine (machine.loadProgram program).2 := by
  intro transparent
  have reaches : settingOut.Reaches underWay := .later .start
  have same := (transparent settingOut underWay rfl rfl reaches settings
    (fun index inside => held_underWay ⟨index, inside⟩) fresh_underWay 0).2.core.cpu
  rw [Nat.zero_add] at same
  -- Without the second load r1 is set, and with it r2.
  have executed : (underWay.cycled 1).cpu.registers.get 1 = 2 := by decide +kernel
  have skipped : ((underWay.loadProgram settings).2.cycled 1).cpu.registers.get 1 = 0 := by
    decide +kernel
  rw [same, skipped] at executed
  exact absurd executed (by decide)

end Machine

end ArmBoard
