import ArmBoard.Proofs.Execution.Stored
import ArmBoard.Proofs.Machine.NextAddress

/-!
# Pages come from writes only

Whatever is done to a machine without peripherals and subscriptions, each step
stores at some pieces of memory, which are known before it is made, up to the
first that does not lie inside memory. Reading, fetching and computing store at
none. After any number of steps the pages that exist are those that a stored
piece touches.
-/
namespace ArmBoard

namespace Operation

/-- Whether an operation makes or ends a subscription. -/
def subscribes : Operation → Bool
  | observe .. | unobserve _ => true
  | _ => false

/-- Where an operation stores, if that lies inside memory. A chunk is cut to what fits before. -/
def pieces (memory : Memory) : Operation → List Piece
  | write width address _ _ => [⟨address, width.bytes⟩]
  | addWord address _ => [⟨address, 4⟩]
  | putChunk address bytes => [⟨address, memory.room address bytes.length⟩]
  | _ => []

end Operation

/-- What is only returned afterwards makes no difference to the state. -/
theorem Action.reached_andReturn {σ α β : Type} (action : Action σ α) (answer : α → β) (state : σ) :
    ((action >>= fun value => pure (answer value)).perform state).2 = (action.perform state).2 := by
  rw [perform_bind]
  rcases action.perform state with ⟨_ | _, reached⟩ <;> rfl

namespace Bus

open ArmBoard.Action

variable {bus : Bus}

theorem storedAt_of_write {count : Nat} {address : Word} (value : BitVec (8 * count)) :
    StoredAt [⟨address, count⟩] bus
      (match bus.memory.write count address value with
        | .error _ => bus
        | .ok memory => { bus with memory }) := by
  by_cases fits : address.toNat + count ≤ bus.memory.size
  · obtain ⟨written, stored⟩ := Memory.exists_write_eq_ok fits value
    rw [stored]
    exact .cons stored (.of_eq rfl)
  · rw [Memory.write_eq_beyond (Nat.lt_of_not_le fits)]
    exact .beyond fits []

/-- A plain write, of a value that may depend on what was there before. -/
theorem storedAt_changeOr {count : Nat} {address : Word} (value : Bus → BitVec (8 * count)) :
    StoredAt [⟨address, count⟩] bus ((changeOr fun bus : Bus =>
      (bus.memory.write count address (value bus)).map fun memory =>
        { bus with memory }).perform bus).2 := by
  have stored := @storedAt_of_write bus count address (value bus)
  simp only [Action.perform, changeOr]
  cases written : bus.memory.write count address (value bus) with
  | error fault | ok memory =>
    rw [written] at stored
    exact stored

theorem storedAt_putChunk (address : Word) (bytes : List Byte) :
    StoredAt [⟨address, bus.memory.room address bytes.length⟩] bus
      { bus with memory := (bus.memory.putChunk address bytes).2 } := by
  have length : (bytes.take (bus.memory.room address bytes.length)).length =
      bus.memory.room address bytes.length := by
    rw [List.length_take, Memory.room]
    omega
  refine ⟨?_, rfl⟩
  by_cases fits : address.toNat + bus.memory.room address bytes.length ≤ bus.memory.size
  · rw [Memory.accepted_cons_inside (decide_eq_true fits)]
    exact .cons length (decide_eq_true fits) .nil
  · -- The address itself is beyond memory, so that nothing is left to store.
    have noRoom : bus.memory.room address bytes.length = 0 := by
      rw [Memory.room] at fits ⊢
      omega
    rw [Memory.accepted_cons_beyond (mt of_decide_eq_true fits), Memory.putChunk, noRoom,
      List.take_zero, Memory.setBytes_nil]
    exact .nil

section Silent

variable (silent : bus.registry.subscriptions = [])
include silent

theorem load_silent (count : Nat) (address : Word) :
    ((load (report []) count address).perform bus).2 = bus := by
  rw [load, perform_ofFunction]
  cases bus.memory.check address count with
  | error fault => rfl
  | ok _ =>
    dsimp only
    rw [report_silent bus silent]
    cases bus.memory.read count address with
    | error fault => rfl
    | ok value => exact report_silent bus silent [] _

theorem store_storedAt {count : Nat} {address : Word} (value : BitVec (8 * count)) :
    StoredAt [⟨address, count⟩] bus ((store (report []) count address value).perform bus).2 := by
  have stored := @storedAt_of_write bus count address value
  rw [store, perform_ofFunction]
  cases written : bus.memory.write count address value with
  | error fault =>
    rw [written] at stored
    exact stored
  | ok memory =>
    rw [written] at stored
    dsimp only
    rwa [report_silent { bus with memory } silent]

/-- Every operation but those on subscriptions stores where it says and does nothing else. -/
theorem perform_storedAt {operation : Operation} (apart : operation.subscribes = false) :
    StoredAt (operation.pieces bus.memory) bus
      ((perform (report []) operation).perform bus).2 := by
  cases operation with
  | read width address tracked =>
    refine .of_eq ?_
    cases tracked <;> rw [perform, reached_andReturn]
    · rfl
    · exact load_silent silent _ _
  | write width address value tracked =>
    cases tracked <;> rw [perform, reached_andReturn]
    · exact storedAt_changeOr fun _ => value
    · exact store_storedAt silent value
  | addWord address value =>
    rw [perform, reached_andReturn]
    exact @storedAt_changeOr bus 4 address fun bus =>
      ((bus.memory.readWord address).toOption.getD 0 + value : Word)
  | putChunk address bytes => exact storedAt_putChunk address bytes
  | chunk | pages | extent => exact .of_eq rfl
  | observe | unobserve => cases apart

end Silent

end Bus

/-- Where a processor stores when it executes a word. -/
def Cpu.pieces (cpu : Cpu) (word : Word) : List Piece :=
  match Opcode.decode word with
  | .ok opcode => opcode.pieces cpu
  | .error _ => []

theorem Cpu.pieces_eq_nil {word : Word} (reads : ∀ opcode, Opcode.decode word = .ok opcode →
    opcode.instruction.writesMemory = false) (cpu : Cpu) : cpu.pieces word = [] := by
  rw [pieces]
  cases decoded : Opcode.decode word with
  | error fault => rfl
  | ok opcode =>
    dsimp only
    rw [Opcode.pieces]
    split
    · exact Instruction.pieces_eq_nil (reads opcode decoded) cpu
    · rfl

/-- What can be done to a machine without making a subscription. -/
inductive Act where
  | operation (operation : Operation) (apart : operation.subscribes = false)
  /-- A word is executed that need not be in memory. -/
  | execute (word : Word)
  | cycle
  /-- The processor is put into another state. -/
  | processor (cpu : Cpu)

namespace Act

/-- The machine afterwards, whether the act has succeeded or not. -/
def apply (machine : Machine) : Act → Machine
  | operation asked _ => ((Machine.onBus (Bus.perform (Bus.report []) asked)).perform machine).2
  | execute word => ((Machine.executeWord 0 word).perform machine).2
  | cycle => (Machine.cycle.perform machine).2
  | processor cpu => { machine with cpu }

/-- Where an act stores, if that lies inside memory: a cycle where the oldest word fetched does. -/
def pieces (machine : Machine) : Act → List Piece
  | operation asked _ => asked.pieces machine.bus.memory
  | execute word => machine.cpu.pieces word
  | cycle =>
      match (Machine.fillQueue (Machine.fetchDepth - machine.fetched.length)).perform machine with
      | (.ok _, filled) => filled.fetched.head?.elim [] filled.cpu.pieces
      | (.error _, _) => []
  | processor _ => []

end Act

namespace Machine

/-- Neither peripherals nor subscriptions. -/
structure Alone (machine : Machine) : Prop where
  unattended : machine.attachments = []
  silent : machine.bus.registry.subscriptions = []

variable {machine : Machine}

open Bus (StoredAt)

theorem executeWord_storedAt (silent : machine.bus.registry.subscriptions = [])
    (address word : Word) :
    StoredAt (machine.cpu.pieces word) machine.bus
      ((executeWord address word).perform machine).2.bus := by
  rw [perform_executeWord, Cpu.pieces]
  cases decoded : Opcode.decode word with
  | error fault => exact .of_eq rfl
  | ok opcode =>
    have executed := Core.execute_storedAt silent (Opcode.withinBounds_of_decode decoded)
    dsimp only
    rcases acted : (Core.execute opcode).perform machine.toCore with ⟨_ | _, core⟩ <;>
      rw [acted] at executed <;> exact executed

theorem bus_fetch (machine : Machine) : (fetch.perform machine).2.bus = machine.bus := by
  obtain ⟨_, _, core, _⟩ := fetch_prefetches.keeps machine
  rw [core]
  rfl

theorem bus_fillQueue (missing : Nat) (machine : Machine) :
    ((fillQueue missing).perform machine).2.bus = machine.bus := by
  obtain ⟨_, _, core, _⟩ := (fillQueue_prefetches missing).keeps machine
  rw [core]
  rfl

theorem cycle_storedAt (alone : machine.Alone) :
    StoredAt (Act.cycle.pieces machine) machine.bus (cycle.perform machine).2.bus := by
  -- Filling the queue changes no memory, so the word executed stores where the machine began.
  have kept := bus_fillQueue (fetchDepth - machine.fetched.length) machine
  rw [perform_cycle alone.unattended, Act.pieces]
  rcases filling : (fillQueue (fetchDepth - machine.fetched.length)).perform machine with
    ⟨_ | _, filled⟩
  · rw [filling] at kept
    exact .of_eq kept
  · rw [filling] at kept
    dsimp only at kept ⊢
    cases filled.fetched with
    | nil => exact .of_eq kept
    | cons word rest =>
      have executed := @executeWord_storedAt { filled with fetched := rest }
        (by rw [kept]; exact alone.silent) (filled.cpu.registers.pc - pipelineDistance) word
      dsimp only at executed ⊢
      rw [kept] at executed
      rcases acted : (executeWord (filled.cpu.registers.pc - pipelineDistance) word).perform
        { filled with fetched := rest } with ⟨_ | _, reached⟩ <;>
        rw [acted] at executed <;> exact executed

/-- An act stores where it says, and makes neither a subscription nor a peripheral. -/
theorem apply_storedAt (alone : machine.Alone) (act : Act) :
    StoredAt (act.pieces machine) machine.bus (act.apply machine).bus ∧
      (act.apply machine).Alone := by
  have stored : StoredAt (act.pieces machine) machine.bus (act.apply machine).bus := by
    cases act with
    | operation asked apart => exact Bus.perform_storedAt alone.silent apart
    | execute word => exact executeWord_storedAt alone.silent 0 word
    | cycle => exact cycle_storedAt alone
    | processor cpu => exact .of_eq rfl
  refine ⟨stored, ?_, ?_⟩
  · cases act with
    | operation | processor => exact alone.unattended
    | execute word => exact (((executeWord_follows 0 word).keeps machine).1).trans alone.unattended
    | cycle =>
      rcases cycle_cases alone.unattended with ⟨fault, reached, stopped, _, still, _⟩ |
        ⟨reached, cycled, still, _⟩
      · exact (congrArg (·.2.attachments) stopped).trans still
      · exact (congrArg (·.2.attachments) cycled).trans still
  · rw [stored.elsewhere]
    exact alone.silent

/-- The machine after some acts. -/
def after (machine : Machine) (acts : List Act) : Machine := acts.foldl Act.apply machine

/-- The pieces that some acts have stored, in this order. -/
def written : Machine → List Act → List Piece
  | _, [] => []
  | machine, act :: rest =>
      machine.bus.memory.accepted (act.pieces machine) ++ written (act.apply machine) rest

theorem written_stores (alone : machine.Alone) (acts : List Act) :
    Memory.Stores (machine.written acts) machine.bus.memory (machine.after acts).bus.memory ∧
      (machine.after acts).Alone := by
  induction acts generalizing machine with
  | nil => exact ⟨.nil, alone⟩
  | cons act rest ih =>
    obtain ⟨stored, still⟩ := apply_storedAt alone act
    obtain ⟨stores, alone⟩ := ih still
    exact ⟨stored.memory.append stores, alone⟩

/--
What must not bring about a page, in a given state: to read, to fail to write, to put no bytes, to
set up the processor, and to execute what is neither a store nor a swap, or cannot be fetched.
-/
inductive Idle (machine : Machine) : Act → Prop
  | read (width : Width) (address : Word) (tracked : Bool) :
      Idle machine (.operation (.read width address tracked) rfl)
  | chunk (address : Word) (count : Nat) : Idle machine (.operation (.chunk address count) rfl)
  | pages : Idle machine (.operation .pages rfl)
  | extent : Idle machine (.operation .extent rfl)
  | failedWrite {width : Width} {address : Word} {value : BitVec (8 * width.bytes)} {fault : Fault}
      (failed : machine.bus.memory.write width.bytes address value = .error fault)
      (tracked : Bool) :
      Idle machine (.operation (.write width address value tracked) rfl)
  | emptyChunk (address : Word) : Idle machine (.operation (.putChunk address []) rfl)
  | processor (cpu : Cpu) : Idle machine (.processor cpu)
  | execute {word : Word} (reads : ∀ opcode, Opcode.decode word = .ok opcode →
      opcode.instruction.writesMemory = false) : Idle machine (.execute word)
  | cycle (reads : ∀ filled word rest opcode,
      (fillQueue (fetchDepth - machine.fetched.length)).perform machine = (.ok (), filled) →
      filled.fetched = word :: rest → Opcode.decode word = .ok opcode →
      opcode.instruction.writesMemory = false) : Idle machine .cycle

/-- Nothing that is idle stores a byte. -/
theorem Idle.memory_eq {act : Act} (alone : machine.Alone) (idle : machine.Idle act) :
    (act.apply machine).bus.memory = machine.bus.memory := by
  have same (nowhere : machine.bus.memory.accepted (act.pieces machine) = []) :
      (act.apply machine).bus.memory = machine.bus.memory := by
    have stores := (apply_storedAt alone act).1.memory
    rw [nowhere] at stores
    exact stores.eq_of_nil
  cases idle with
  | read | chunk | pages | extent | processor => exact same rfl
  | @failedWrite width address value fault failed =>
    apply same
    refine Memory.accepted_cons_beyond (fun inside => ?_) []
    obtain ⟨written, stored⟩ := Memory.exists_write_eq_ok (of_decide_eq_true inside) value
    rw [failed] at stored
    cases stored
  | emptyChunk address =>
    change (machine.bus.memory.putChunk address []).2 = machine.bus.memory
    rw [Memory.putChunk, List.take_nil]
    exact Memory.setBytes_nil _ _
  | execute reads =>
    apply same
    rw [Act.pieces, Cpu.pieces_eq_nil reads]
    rfl
  | cycle reads =>
    apply same
    rw [Act.pieces]
    rcases filling : (fillQueue (fetchDepth - machine.fetched.length)).perform machine with
      ⟨_ | _, filled⟩
    · rfl
    · dsimp only
      cases queued : filled.fetched with
      | nil => rfl
      | cons word rest =>
        have nowhere : filled.cpu.pieces word = [] :=
          Cpu.pieces_eq_nil (fun opcode => reads filled word rest opcode filling queued) _
        rw [List.head?_cons, Option.elim_some, nowhere]
        rfl

end Machine

/-- The pages of a memory are those that some pieces touch, and all of them are whole. -/
structure Memory.PagesOf (size pageSize : Nat) (pieces : List Piece) (memory : Memory) : Prop where
  ascending : memory.allocatedPages.Pairwise (· < ·)
  touched : ∀ start, start ∈ memory.allocatedPages ↔
    pageSize ∣ start ∧ ∃ piece ∈ pieces, piece.Touches pageSize start
  whole : ∀ key page, memory.pages[key]? = some page →
    page.toList.length = pageSize ∧ key * pageSize < size

/--
After any acts on a machine whose memory was blank, the pages are those that a stored piece of at
least one byte touches. Neither fetching nor anything else that is idle changes memory.
-/
theorem Machine.pages_exist_exactly_where_something_was_stored {machine : Machine}
    {size pageSize : Nat} (created : Memory.create? size pageSize = .ok machine.bus.memory)
    (alone : machine.Alone) (acts : List Act) :
    Memory.Stores (machine.written acts) machine.bus.memory (machine.after acts).bus.memory ∧
    (machine.after acts).bus.memory.PagesOf size pageSize (machine.written acts) ∧
    (fetch.perform (machine.after acts)).2.bus = (machine.after acts).bus ∧
    ∀ act, (machine.after acts).Idle act →
      (act.apply (machine.after acts)).bus.memory = (machine.after acts).bus.memory := by
  obtain ⟨stores, still⟩ := written_stores alone acts
  refine ⟨stores, ?_, bus_fetch _, fun act idle => idle.memory_eq still⟩
  obtain ⟨fits, blank⟩ : pageBytes pageSize.log2 = pageSize ∧
      machine.bus.memory = .blank size pageSize.log2 := by
    unfold Memory.create? at created
    split at created
    · next power => exact ⟨power, (Except.ok.inj created).symm⟩
    · cases created
  obtain ⟨sameSize, samePages, inside, pages⟩ := stores.allocatedBy
  have paged : machine.bus.memory.pageSize = pageSize := by
    rw [blank]
    exact fits
  have sized : machine.bus.memory.size = size := by
    rw [blank]
    rfl
  have unallocated : machine.bus.memory.allocatedPages = [] := by
    rw [blank]
    exact Memory.allocatedPages_blank _ _
  simp only [unallocated, paged, sized, List.not_mem_nil, false_or] at inside pages samePages
  refine ⟨Memory.allocatedPages_ascending _, pages, fun key page found => ⟨?_, ?_⟩⟩
  · rw [Vector.length_toList]
    exact samePages
  · -- A page that exists has been touched, and what was stored lies inside memory.
    have allocated : key * pageSize ∈ (machine.after acts).bus.memory.allocatedPages := by
      rw [Memory.mem_allocatedPages, samePages]
      exact ⟨key, Std.TreeMap.mem_iff_isSome_getElem?.mpr (by rw [found]; rfl), rfl⟩
    obtain ⟨_, piece, member, place, ⟨_, below⟩, above, _⟩ := (pages _).mp allocated
    have fit := of_decide_eq_true (inside piece member)
    omega

/-- A processor whose registers point four bytes before the end of sixteen pages of four bytes. -/
def nearTheEnd : Cpu := { Cpu.zeroed with registers := ⟨.replicate 16 60⟩ }

/--
A word across two pages brings about both. A write beyond memory brings about none, and a block
store brings about the page of the word that it has stored before it stops.
-/
theorem three_pages_come_about :
    ∃ memory, Memory.create? 64 4 = .ok memory ∧
      let acts : List Act := [
        .operation (.write .word 6 0xFFFFFFFF true) rfl,
        .operation (.write .word 62 0xFFFFFFFF false) rfl,
        .operation (.read .dword 32 true) rfl,
        .processor nearTheEnd,
        .execute 0xE8800006] -- STM r0, {r1, r2}
      let machine := Machine.ofMemory memory
      machine.written acts = [⟨6, 4⟩, ⟨60, 4⟩] ∧
      (machine.after acts).bus.memory.allocatedPages = [4, 8, 60] ∧
      (machine.after acts).bus.memory.PagesOf 64 4 (machine.written acts) := by
  refine ⟨_, rfl, rfl, rfl, ?_⟩
  exact (Machine.pages_exist_exactly_where_something_was_stored rfl ⟨rfl, rfl⟩ _).2.1

end ArmBoard
