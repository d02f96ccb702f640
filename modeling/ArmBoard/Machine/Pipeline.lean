import ArmBoard.Execution.Execute
import ArmBoard.Cpu.Decoder

/-!
# The machine and its pipeline

A machine fetches, decodes and executes. Two words are fetched ahead of the
executing instruction, so that r15 is eight bytes beyond it. When r15 is
written the words fetched ahead are dropped. Before every instruction the
attached peripherals take a step.
-/
namespace ArmBoard

/-- A peripheral of the machine and, once it has been put to use, its subscriptions. -/
structure Attachment where
  holder : Handle
  subscriptions? : Option (List Nat)
  deriving DecidableEq, Repr

/-- A processor on its bus, the words fetched ahead, the peripherals and an instruction count. -/
structure Machine extends Core where
  fetched : List Word
  attachments : List Attachment
  cycles : Nat

namespace Machine

/-- A machine that has not run, with a memory of its own. -/
def ofMemory (memory : Memory) : Machine where
  cpu := .zeroed
  bus := .ofMemory memory
  fetched := []
  attachments := []
  cycles := 0

def fetchDepth : Nat := 2

def onCore {α : Type} (action : Action Core α) : Action Machine α :=
  action.onPart (·.toCore) fun machine core => { machine with toCore := core }

def onBus {α : Type} (action : Action Bus α) : Action Machine α := onCore (Core.onBus action)

/-- Attaches a peripheral. It is put to use by the next cycle. -/
def attach (holder : Handle) (machine : Machine) : Machine :=
  { machine with attachments := machine.attachments ++ [⟨holder, none⟩] }

/-- Detaches all peripherals and ends their subscriptions. -/
def detach (machine : Machine) : Machine :=
  let ids := machine.attachments.flatMap fun attachment => attachment.subscriptions?.getD []
  { machine with
    attachments := []
    bus := ids.foldl (fun bus id => (bus.unobserve id).2) machine.bus }

/-- Subscribes a peripheral to all its watches. -/
def observeAll (holder : Handle) : List Watch → Action Bus (List Nat)
  | [] => pure []
  | watch :: rest => do
      let id ← Bus.observe holder watch
      let ids ← observeAll holder rest
      return id :: ids

/-- Puts a peripheral to use, if it has not been yet, and records its subscriptions. -/
def startAttachment (attachment : Attachment) : Action Bus Attachment :=
  match attachment.subscriptions? with
  | some _ => pure attachment
  | none => do
      let watches ← Bus.start attachment.holder
      let ids ← observeAll attachment.holder watches
      return { attachment with subscriptions? := some ids }

/-- Lets the attachment at an index take a step, putting it to use before if need be. -/
def stepAttachment (index : Nat) (attachment : Attachment) : Action Machine Unit := do
  let started ← onBus (startAttachment attachment)
  -- Recorded before the step, which may fail.
  Action.change fun machine : Machine =>
    { machine with attachments := machine.attachments.set index started }
  onBus (Bus.step attachment.holder)

/-- Lets peripherals take a step one after the other, the first at the given index. -/
def stepFrom : Nat → List Attachment → Action Machine Unit
  | _, [] => pure ()
  | index, attachment :: rest => do
      stepAttachment index attachment
      stepFrom (index + 1) rest

def stepPeripherals : Action Machine Unit := do
  let attachments ← Action.ask fun machine : Machine => .ok machine.attachments
  stepFrom 0 attachments

/-- Fetches the word at r15 and moves r15 on. -/
def fetch : Action Machine Unit := .ofFunction fun machine =>
  match machine.bus.memory.readWord machine.cpu.registers.pc with
  | .error fault => (.error fault, machine)
  | .ok word =>
      (.ok (), { machine with
        fetched := machine.fetched ++ [word]
        cpu := { machine.cpu with registers := machine.cpu.registers.advancePc instructionSize } })

/-- Fetches as many words as are missing, which is at most `missing`. -/
def fillQueue : Nat → Action Machine Unit
  | 0 => pure ()
  | missing + 1 => do
      fetch
      fillQueue missing

def takeFetched : Action Machine Word := .ofFunction fun machine =>
  match machine.fetched with
  | [] => (.error (.misuse .emptyPrefetch), machine)
  | word :: rest => (.ok word, { machine with fetched := rest })

/-- Decodes and executes a word; opcode faults carry the given address. -/
def executeWord (address word : Word) : Action Machine Bool :=
  Action.mapFault (Fault.atAddress address) do
    let opcode ← Action.ask fun _ => Opcode.decode word
    onCore (Core.execute opcode)

/-- Executes one instruction. -/
def cycle : Action Machine Unit := do
  stepPeripherals
  let queued ← Action.ask fun machine : Machine => .ok machine.fetched.length
  fillQueue (fetchDepth - queued)
  let ahead ← onCore Core.pc
  -- From here on the word counts as taken, whatever becomes of it.
  let word ← takeFetched
  let branched ← executeWord (ahead - pipelineDistance) word
  Action.change fun machine : Machine =>
    { machine with
      fetched := if branched then [] else machine.fetched
      cycles := machine.cycles + 1 }

/-- Executes a number of instructions, or as many as succeed before a fault. -/
def run : Nat → Action Machine Unit
  | 0 => pure ()
  | count + 1 => do
      cycle
      run count

/-- Executes a number of instructions and tells by how many the count has grown. -/
def runCounted (count : Nat) : Action Machine Nat := do
  let start ← Action.ask fun machine : Machine => .ok machine.cycles
  run count
  let finish ← Action.ask fun machine : Machine => .ok machine.cycles
  return finish - start

/-- More cycles than a machine can count, which stands for running until a fault. -/
def unlimited : Nat := 0xFFFFFFFFFFFFFFFF

/-- Puts a program at address zero and drops the words fetched ahead. Tells how many bytes fit. -/
def loadProgram (program : List Byte) (machine : Machine) : Nat × Machine :=
  let (count, memory) := machine.bus.memory.putChunk 0 program
  (count, { machine with bus := { machine.bus with memory }, fetched := [] })

end Machine

/--
What can be kept of a machine and brought back: all but the watchers, which are shared with
whatever happens later.
-/
structure Snapshot where
  cpu : Cpu
  memory : Memory
  registry : Registry
  fetched : List Word
  attachments : List Attachment
  cycles : Nat

namespace Machine

def snapshot (machine : Machine) : Snapshot where
  cpu := machine.cpu
  memory := machine.bus.memory
  registry := machine.bus.registry
  fetched := machine.fetched
  attachments := machine.attachments
  cycles := machine.cycles

/-- Brings a kept state back. The watchers stay as they have become. -/
def restore (snapshot : Snapshot) (machine : Machine) : Machine where
  cpu := snapshot.cpu
  bus := { machine.bus with memory := snapshot.memory, registry := snapshot.registry }
  fetched := snapshot.fetched
  attachments := snapshot.attachments
  cycles := snapshot.cycles

end Machine

end ArmBoard
