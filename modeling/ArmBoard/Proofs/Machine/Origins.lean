import ArmBoard.Proofs.Machine.NextAddress

/-!
# Where queued words come from

A recording is a machine that also remembers, for every word of its queue, the
memory that the word was fetched from. Recording changes nothing about the
machine. It lets us say what a queued word is long after memory has changed:
the word that stood at its address at the moment of the fetch.
-/
namespace ArmBoard

/-- A machine and the memories that the words of its queue were fetched from. -/
structure Recording where
  machine : Machine
  origins : List Memory

namespace Recording

open ArmBoard.Action (Erases)

variable {α : Type}

def onMachine (action : Action Machine α) : Action Recording α :=
  action.onPart (·.machine) fun recording machine => { recording with machine }

/-- Fetches a word and remembers the memory at this moment. -/
def fetch : Action Recording Unit := do
  let memory ← Action.ask fun recording : Recording => .ok recording.machine.bus.memory
  onMachine Machine.fetch
  Action.change fun recording : Recording =>
    { recording with origins := recording.origins ++ [memory] }

def fillQueue : Nat → Action Recording Unit
  | 0 => pure ()
  | missing + 1 => do
      fetch
      fillQueue missing

/-- Takes the oldest word and forgets where it came from. -/
def takeFetched : Action Recording Word := do
  let word ← onMachine Machine.takeFetched
  Action.change fun recording : Recording =>
    { recording with origins := recording.origins.tail }
  return word

def finish (address word : Word) : Action Recording Unit := do
  let branched ← onMachine (Machine.executeWord address word)
  Action.change fun recording : Recording =>
    { machine :=
        { recording.machine with
          fetched := if branched then [] else recording.machine.fetched
          cycles := recording.machine.cycles + 1 }
      origins := if branched then [] else recording.origins }

/-- A cycle of the machine with each fetch remembered. -/
def cycle : Action Recording Unit := do
  onMachine Machine.stepPeripherals
  let queued ← Action.ask fun recording : Recording => .ok recording.machine.fetched.length
  fillQueue (Machine.fetchDepth - queued)
  let ahead ← onMachine (Machine.onCore Core.pc)
  let word ← takeFetched
  finish (ahead - pipelineDistance) word

variable {recording reached : Recording}

theorem perform_fetch (recording : Recording) :
    fetch.perform recording =
      match Machine.fetch.perform recording.machine with
      | (.error fault, machine) => (.error fault, { recording with machine })
      | (.ok _, machine) =>
          (.ok (), ⟨machine, recording.origins ++ [recording.machine.bus.memory]⟩) := by
  unfold fetch onMachine
  rw [Action.perform_bind, Action.perform_ask]
  dsimp only
  rw [Action.perform_bind, Action.perform_onPart]
  rcases Machine.fetch.perform recording.machine with ⟨_ | _, machine⟩ <;> rfl

theorem perform_takeFetched (recording : Recording) :
    takeFetched.perform recording =
      match Machine.takeFetched.perform recording.machine with
      | (.error fault, machine) => (.error fault, { recording with machine })
      | (.ok word, machine) => (.ok word, ⟨machine, recording.origins.tail⟩) := by
  unfold takeFetched onMachine
  rw [Action.perform_bind, Action.perform_onPart]
  rcases Machine.takeFetched.perform recording.machine with ⟨_ | _, machine⟩ <;> rfl

theorem perform_finish (address word : Word) (recording : Recording) :
    (finish address word).perform recording =
      match (Machine.executeWord address word).perform recording.machine with
      | (.error fault, machine) => (.error fault, { recording with machine })
      | (.ok branched, machine) =>
          (.ok (),
            { machine :=
                { machine with
                  fetched := if branched then [] else machine.fetched
                  cycles := machine.cycles + 1 }
              origins := if branched then [] else recording.origins }) := by
  unfold finish onMachine
  rw [Action.perform_bind, Action.perform_onPart]
  rcases (Machine.executeWord address word).perform recording.machine with ⟨_ | _, machine⟩ <;> rfl

theorem onMachine_erases (action : Action Machine α) :
    Erases (·.machine) (onMachine action) action := .onPart (fun _ _ => rfl) action

theorem fetch_erases : Erases (·.machine) fetch Machine.fetch := by
  intro recording
  rw [perform_fetch]
  rcases Machine.fetch.perform recording.machine with ⟨_ | _, machine⟩ <;> exact ⟨rfl, rfl⟩

theorem fillQueue_erases (missing : Nat) :
    Erases (·.machine) (fillQueue missing) (Machine.fillQueue missing) := by
  induction missing with
  | zero => exact .pure _ _
  | succ missing ih => exact .bind fetch_erases fun _ => ih

theorem takeFetched_erases : Erases (·.machine) takeFetched Machine.takeFetched := by
  intro recording
  rw [perform_takeFetched]
  rcases Machine.takeFetched.perform recording.machine with ⟨_ | _, machine⟩ <;> exact ⟨rfl, rfl⟩

theorem cycle_erases : Erases (·.machine) cycle Machine.cycle := by
  refine .bind (onMachine_erases _) fun _ => ?_
  refine .bind (.ask _ fun machine : Machine => .ok machine.fetched.length) fun queued => ?_
  refine .bind (fillQueue_erases _) fun _ => ?_
  refine .bind (onMachine_erases _) fun ahead => ?_
  refine .bind takeFetched_erases fun word recording => ?_
  rw [perform_finish, Action.perform_bind]
  rcases (Machine.executeWord (ahead - pipelineDistance) word).perform recording.machine with
    ⟨_ | _, machine⟩ <;> exact ⟨rfl, rfl⟩

theorem machine_cycle (recording : Recording) :
    (cycle.perform recording).2.machine = (Machine.cycle.perform recording.machine).2 :=
  (cycle_erases recording).2

/-- Each word of a queue stood, in the memory it was fetched from, where the queue has it. -/
def Stems : Word → List Word → List Memory → Prop
  | _, [], [] => True
  | address, word :: rest, memory :: origins =>
      memory.readWord address = .ok word ∧ Stems (address + instructionSize) rest origins
  | _, _, _ => False

theorem Stems.append {address word : Word} {queue : List Word} {origins : List Memory}
    {memory : Memory} (stems : Stems address queue origins)
    (read : memory.readWord (address + instructionSize * BitVec.ofNat 32 queue.length) = .ok word) :
    Stems address (queue ++ [word]) (origins ++ [memory]) := by
  induction queue generalizing address origins with
  | nil =>
    cases origins with
    | nil => exact ⟨by simpa using read, trivial⟩
    | cons origin origins => cases stems
  | cons oldest rest ih =>
    cases origins with
    | nil => cases stems
    | cons origin origins =>
      obtain ⟨stood, stems⟩ := stems
      refine ⟨stood, ih stems ?_⟩
      -- The place behind the rest, counted from its own beginning.
      rw [List.length_cons, BitVec.ofNat_add] at read
      rw [← read]
      congr 1
      grind

/-- A recording from which the words of the queue can be read again. -/
structure Faithful (recording : Recording) : Prop where
  unattended : recording.machine.attachments = []
  stems : Stems recording.machine.next recording.machine.fetched recording.origins

/-- An action keeps recordings faithful, whether it returns or stops with a fault. -/
def KeepsFaith (action : Action Recording α) : Prop :=
  ∀ recording : Recording, recording.Faithful → (action.perform recording).2.Faithful

namespace KeepsFaith

theorem pure (value : α) : KeepsFaith (Pure.pure value) := fun _ => id

theorem ask (question : Recording → Except Fault α) : KeepsFaith (Action.ask question) :=
  fun _ => id

theorem bind {action : Action Recording α} {next : α → Action Recording β}
    (first : KeepsFaith action) (second : ∀ value, KeepsFaith (next value)) :
    KeepsFaith (action >>= next) := by
  intro recording faithful
  have kept := first recording faithful
  rw [Action.perform_bind]
  rcases acted : action.perform recording with ⟨fault | value, reached⟩
  · rw [acted] at kept
    exact kept
  · rw [acted] at kept
    exact second value reached kept

end KeepsFaith

theorem fetch_keepsFaith : KeepsFaith fetch := by
  intro recording faithful
  rw [perform_fetch, Machine.perform_fetch]
  split
  · next fetched =>
    split at fetched
    · cases fetched
      exact faithful
    · cases fetched
  · next fetched =>
    split at fetched
    · cases fetched
    · next word read =>
      cases fetched
      refine ⟨faithful.unattended, ?_⟩
      have further := Registers.pc_setPc recording.machine.cpu.registers
        (recording.machine.cpu.registers.pc + instructionSize)
      rw [Machine.next_eq_of_fetched rfl further]
      -- r15 is the next address with the length of the queue put back.
      refine faithful.stems.append ?_
      rw [Machine.next, BitVec.sub_add_cancel]
      exact read

theorem fillQueue_keepsFaith (missing : Nat) : KeepsFaith (fillQueue missing) := by
  induction missing with
  | zero => exact .pure _
  | succ missing ih => exact .bind fetch_keepsFaith fun _ => ih

theorem takeFetched_keepsFaith : KeepsFaith takeFetched := by
  intro recording faithful
  rw [perform_takeFetched, Machine.takeFetched, Action.perform_ofFunction]
  cases queued : recording.machine.fetched with
  | nil => exact faithful
  | cons word rest =>
    obtain ⟨unattended, stems⟩ := faithful
    rw [queued] at stems
    -- The rest of the queue begins one instruction further on.
    let taken : Machine := { recording.machine with fetched := rest }
    have moved : taken.next = recording.machine.next + instructionSize :=
      Machine.next_eq_of_taken queued rfl rfl
    refine ⟨unattended, ?_⟩
    change Stems taken.next rest recording.origins.tail
    rw [moved]
    cases origins : recording.origins with
    | nil =>
      rw [origins] at stems
      cases stems
    | cons origin others =>
      rw [origins] at stems
      exact stems.2

end Recording

namespace Machine

/-- Unless it is sent elsewhere, executing a word leaves r15 alone, and always the queue. -/
theorem executeWord_keeps {machine reached : Machine} {address word : Word}
    {outcome : Except Fault Bool}
    (performed : (executeWord address word).perform machine = (outcome, reached)) :
    reached.fetched = machine.fetched ∧ reached.attachments = machine.attachments ∧
      (outcome ≠ .ok true → reached.cpu.registers.pc = machine.cpu.registers.pc) := by
  rw [perform_executeWord] at performed
  split at performed
  · cases performed
    exact ⟨rfl, rfl, fun _ => rfl⟩
  · next opcode decoded =>
    have bounds := Opcode.withinBounds_of_decode decoded
    split at performed
    · next failed =>
      cases performed
      -- Not even an instruction that fails midway has written r15.
      exact ⟨rfl, rfl, fun _ => (Core.execute_raised bounds failed).2⟩
    · next branched core executed =>
      cases performed
      refine ⟨rfl, rfl, fun stays => (Core.execute_ok bounds executed).2 ?_⟩
      cases branched with
      | false => rfl
      | true => exact absurd rfl stays

end Machine

namespace Recording

theorem Faithful.of_kept {recording reached : Recording} (faithful : recording.Faithful)
    (queue : reached.machine.fetched = recording.machine.fetched)
    (origins : reached.origins = recording.origins)
    (pc : reached.machine.cpu.registers.pc = recording.machine.cpu.registers.pc)
    (unattended : reached.machine.attachments = []) : reached.Faithful := by
  have next : reached.machine.next = recording.machine.next := by
    rw [Machine.next, Machine.next, queue, pc]
  refine ⟨unattended, ?_⟩
  rw [next, queue, origins]
  exact faithful.stems

theorem finish_keepsFaith (address word : Word) : KeepsFaith (finish address word) := by
  intro recording faithful
  rw [perform_finish]
  rcases executed : (Machine.executeWord address word).perform recording.machine with
    ⟨fault | branched, machine⟩
  · obtain ⟨queue, attachments, kept⟩ := Machine.executeWord_keeps executed
    exact faithful.of_kept queue rfl (kept (by simp)) (attachments.trans faithful.unattended)
  · obtain ⟨queue, attachments, kept⟩ := Machine.executeWord_keeps executed
    have unattended := attachments.trans faithful.unattended
    cases branched with
    | false => exact faithful.of_kept queue rfl (kept (by simp)) unattended
    | true => exact ⟨unattended, trivial⟩

theorem cycle_keepsFaith : KeepsFaith cycle := by
  have stepping : KeepsFaith (onMachine Machine.stepPeripherals) := by
    intro recording faithful
    rw [onMachine, Action.perform_onPart, Machine.perform_stepPeripherals faithful.unattended]
    exact faithful
  have looking : KeepsFaith (onMachine (Machine.onCore Core.pc)) := fun _ => id
  refine .bind stepping fun _ => .bind (.ask _) fun queued => ?_
  refine .bind (fillQueue_keepsFaith _) fun _ => .bind looking fun ahead => ?_
  exact .bind takeFetched_keepsFaith fun word => finish_keepsFaith _ word

end Recording

namespace Machine

/-- What the owner may do between cycles: anything that leaves r15 and the queue alone. -/
structure Edits (machine edited : Machine) : Prop where
  fetched : edited.fetched = machine.fetched
  pc : edited.cpu.registers.pc = machine.cpu.registers.pc
  unattended : edited.attachments = []

/-- What becomes of a machine by cycles, successful or not, and by edits of its owner. -/
inductive Driven (start : Machine) : Machine → Prop
  | start : Driven start start
  | cycled {machine : Machine} (driven : Driven start machine) :
      Driven start (cycle.perform machine).2
  | edited {machine edited : Machine} (driven : Driven start machine)
      (edits : machine.Edits edited) : Driven start edited

end Machine

/-- The same histories with every fetch remembered; at the beginning nothing is queued. -/
inductive Recorded (start : Machine) : Recording → Prop
  | start : Recorded start ⟨start, []⟩
  | cycled {recording : Recording} (recorded : Recorded start recording) :
      Recorded start (Recording.cycle.perform recording).2
  | edited {recording : Recording} {edited : Machine} (recorded : Recorded start recording)
      (edits : recording.machine.Edits edited) : Recorded start ⟨edited, recording.origins⟩

namespace Recorded

variable {start : Machine} {recording : Recording}

theorem faithful (recorded : Recorded start recording) (unattended : start.attachments = [])
    (empty : start.fetched = []) : recording.Faithful := by
  induction recorded with
  | start =>
    refine ⟨unattended, ?_⟩
    rw [empty]
    trivial
  | cycled _ ih => exact Recording.cycle_keepsFaith _ ih
  | edited _ edits ih => exact ih.of_kept edits.fetched rfl edits.pc edits.unattended

theorem short (recorded : Recorded start recording) (unattended : start.attachments = [])
    (empty : start.fetched = []) : recording.machine.fetched.length ≤ 1 := by
  induction recorded with
  | start => simp [empty]
  | @cycled recording recorded ih =>
    rw [recording.machine_cycle]
    exact (Machine.cycle_proceeds (recorded.faithful unattended empty).unattended ih).short
  | edited _ edits ih =>
    rw [edits.fetched]
    exact ih

theorem of_driven {machine : Machine} (driven : start.Driven machine) :
    ∃ recording, Recorded start recording ∧ recording.machine = machine := by
  induction driven with
  | start => exact ⟨_, .start, rfl⟩
  | cycled _ ih =>
    obtain ⟨recording, recorded, rfl⟩ := ih
    exact ⟨_, recorded.cycled, recording.machine_cycle⟩
  | edited _ edits ih =>
    obtain ⟨recording, recorded, rfl⟩ := ih
    exact ⟨_, recorded.edited edits, rfl⟩

end Recorded

theorem Recording.Stems.cases_of_short {address : Word} {queue : List Word}
    {origins : List Memory} (stems : Recording.Stems address queue origins)
    (short : queue.length ≤ 1) :
    (queue = [] ∧ origins = []) ∨
      ∃ word origin, queue = [word] ∧ origins = [origin] ∧ origin.readWord address = .ok word := by
  match queue, origins, stems with
  | [], [], _ => exact Or.inl ⟨rfl, rfl⟩
  | [word], [origin], ⟨stood, _⟩ => exact Or.inr ⟨word, origin, rfl, rfl, stood⟩
  | _ :: _ :: _, _, _ =>
    simp only [List.length_cons] at short
    omega

namespace Machine

/--
However a machine without peripherals is driven from an empty queue, it has at most one word
queued, and this is the word that memory held at the next address when it was fetched. Each cycle
then proceeds in one of four ways: without a word, with a fault, on to the next instruction, or
elsewhere.
-/
theorem next_address_survives_every_cycle {start machine : Machine}
    (unattended : start.attachments = []) (empty : start.fetched = [])
    (driven : start.Driven machine) :
    machine.fetched.length ≤ 1 ∧
    (∃ recording, Recorded start recording ∧ recording.machine = machine) ∧
    (∀ recording, Recorded start recording → recording.machine = machine →
      (machine.fetched = [] ∧ recording.origins = []) ∨
      ∃ word origin, machine.fetched = [word] ∧ recording.origins = [origin] ∧
        origin.readWord machine.next = .ok word) ∧
    machine.Proceeds (cycle.perform machine).1 (cycle.perform machine).2 := by
  obtain ⟨recording, recorded, rfl⟩ := Recorded.of_driven driven
  have short := recorded.short unattended empty
  have proceeds := cycle_proceeds (recorded.faithful unattended empty).unattended short
  refine ⟨short, ⟨recording, recorded, rfl⟩, ?_, proceeds⟩
  intro other recorded same
  have stems := (recorded.faithful unattended empty).stems
  rw [same] at stems
  exact stems.cases_of_short short

/-- The loop after its first instruction, with the branch that is queued overwritten by zeros. -/
def overwritten : Machine :=
  let cycled := (cycle.perform looping).2
  let memory := (cycled.bus.memory.putChunk 4 [0, 0, 0, 0]).2
  { cycled with bus := { cycled.bus with memory } }

/-- The branch is executed all the same, as it stood when it was fetched. -/
theorem overwritten_branches_back :
    overwritten.next = 4 ∧ overwritten.bus.memory.readWord 4 = .ok 0 ∧
      (∃ origin : Memory, origin.readWord 4 = .ok 0xEAFFFFFD#32) ∧
      overwritten.Proceeds (.ok ()) (cycle.perform overwritten).2 ∧
      (cycle.perform overwritten).2.next = 0 := by
  have driven : looping.Driven overwritten := .edited (.cycled .start) ⟨rfl, rfl, rfl⟩
  have here : overwritten.next = 4 := by decide
  obtain ⟨_, ⟨recording, recorded, same⟩, origins, proceeds⟩ :=
    next_address_survives_every_cycle rfl rfl driven
  refine ⟨here, rfl, ?_, proceeds, by decide⟩
  rcases origins recording recorded same with ⟨emptied, _⟩ | ⟨word, origin, queued, _, stood⟩
  · cases emptied
  · cases queued
    rw [here] at stood
    exact ⟨origin, stood⟩

end Machine

end ArmBoard
