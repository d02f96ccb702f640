import ArmBoard.Proofs.Bus.Moment
import ArmBoard.Proofs.Execution.Trait
import ArmBoard.Proofs.Machine.Ownership

/-!
# The same machine at another moment

Neither the processor nor the pipeline looks at the clock. If no peripheral is a
timer and nobody calls on one, a machine does the same at any moment.
-/
namespace ArmBoard

open ArmBoard.Action (Respects)

variable {clocks : Handle → Prop}

namespace Core

/-- The same processor on a bus that avoids all clocks, at two moments. -/
structure SameButTime (clocks : Handle → Prop) (core other : Core) : Prop where
  avoids : core.bus.Avoids clocks
  moved : ∃ moment, other = { core with bus := core.bus.atMoment moment }

/-- What does the same on every bus, and leaves the bus alone, does the same at any moment. -/
theorem timeless_of_elsewhere {α : Type} {action : Action Core α}
    (elsewhere : ∀ core bus, action.perform { core with bus } =
      ((action.perform core).1, { (action.perform core).2 with bus })) :
    Respects (SameButTime clocks) action := by
  constructor
  rintro core _ ⟨avoids, moment, rfl⟩
  have stays : (action.perform core).2.bus = core.bus :=
    congrArg (·.2.bus) (elsewhere core core.bus)
  rw [elsewhere core (core.bus.atMoment moment)]
  refine ⟨rfl, ?_, moment, ?_⟩
  · rwa [stays]
  · rw [stays]

theorem onBus_timeless {α : Type} {action : Action Bus α}
    (respects : Respects (Bus.SameButTime clocks) action) :
    Respects (SameButTime clocks) (onBus action) := by
  apply respects.onPart
  · rintro core _ ⟨avoids, moment, rfl⟩
    exact ⟨avoids, moment, rfl⟩
  · rintro core _ bus _ ⟨_, moment, rfl⟩ ⟨avoids, later, rfl⟩
    exact ⟨avoids, later, rfl⟩

/-- An instruction does the same at any moment. -/
def timeless (clocks : Handle → Prop) : Trait where
  holds := Respects (SameButTime clocks)
  pure := .pure
  fail := .fail
  bind := .bind
  readRegister _ := timeless_of_elsewhere fun _ _ => rfl
  writeRegister number value := by
    refine timeless_of_elsewhere fun core bus => ?_
    simp only [writeRegister, Action.perform, Action.changeOr]
    cases core.cpu.registers.set? number value <;> rfl
  pc := timeless_of_elsewhere fun _ _ => rfl
  setPc _ := timeless_of_elsewhere fun _ _ => rfl
  status := timeless_of_elsewhere fun _ _ => rfl
  setStatus _ := timeless_of_elsewhere fun _ _ => rfl
  savedStatus := timeless_of_elsewhere fun _ _ => rfl
  setSavedStatus status := by
    refine timeless_of_elsewhere fun core bus => ?_
    simp only [setSavedStatus, Action.perform, Action.changeOr]
    cases core.cpu.setSavedStatus status <;> rfl
  load count address :=
    onBus_timeless (Bus.load_timeless (Bus.report_timeless clocks []) count address)
  store count address value :=
    onBus_timeless (Bus.store_timeless (Bus.report_timeless clocks []) count address value)

end Core

namespace Machine

def atMoment (moment : Nat) (machine : Machine) : Machine :=
  { machine with bus := machine.bus.atMoment moment }

/-- The same machine at two moments, whose bus avoids all clocks as do its attachments. -/
structure SameButTime (clocks : Handle → Prop) (machine other : Machine) : Prop where
  avoids : machine.bus.Avoids clocks
  attached : ∀ attachment ∈ machine.attachments, ¬ clocks attachment.holder
  moved : ∃ moment, other = machine.atMoment moment

theorem SameButTime.atMoment {machine other : Machine} (same : SameButTime clocks machine other)
    (moment : Nat) : SameButTime clocks machine (other.atMoment moment) := by
  obtain ⟨_, rfl⟩ := same.moved
  exact ⟨same.avoids, same.attached, moment, rfl⟩

theorem onCore_timeless {α : Type} {action : Action Core α}
    (respects : Respects (Core.SameButTime clocks) action) :
    Respects (SameButTime clocks) (onCore action) := by
  apply respects.onPart
  · rintro machine _ ⟨avoids, _, moment, rfl⟩
    exact ⟨avoids, moment, rfl⟩
  · rintro machine _ core _ ⟨_, attached, moment, rfl⟩ ⟨avoids, later, rfl⟩
    exact ⟨avoids, attached, later, rfl⟩

theorem onBus_timeless {α : Type} {action : Action Bus α}
    (respects : Respects (Bus.SameButTime clocks) action) :
    Respects (SameButTime clocks) (onBus action) :=
  onCore_timeless (Core.onBus_timeless respects)

theorem fetch_timeless : Respects (SameButTime clocks) fetch := by
  constructor
  rintro machine _ ⟨avoids, attached, moment, rfl⟩
  have read : (machine.atMoment moment).bus.memory.readWord
      (machine.atMoment moment).cpu.registers.pc =
        machine.bus.memory.readWord machine.cpu.registers.pc := rfl
  rw [perform_fetch, perform_fetch, read]
  cases machine.bus.memory.readWord machine.cpu.registers.pc with
  | error fault => exact ⟨rfl, avoids, attached, moment, rfl⟩
  | ok word => exact ⟨rfl, avoids, attached, moment, rfl⟩

theorem fillQueue_timeless (missing : Nat) : Respects (SameButTime clocks) (fillQueue missing) := by
  induction missing with
  | zero => exact .pure _
  | succ missing ih => exact fetch_timeless.bind fun _ => ih

theorem takeFetched_timeless : Respects (SameButTime clocks) takeFetched := by
  constructor
  rintro machine _ ⟨avoids, attached, moment, rfl⟩
  obtain ⟨core, queue, attachments, cycles⟩ := machine
  cases queue with
  | nil => exact ⟨rfl, avoids, attached, moment, rfl⟩
  | cons word rest => exact ⟨rfl, avoids, attached, moment, rfl⟩

theorem executeNext_timeless : Respects (SameButTime clocks) executeNext := by
  apply Respects.bind (.ask fun ⟨_, _, _, moved⟩ => by rw [moved]; rfl)
  intro queued
  apply Respects.bind (fillQueue_timeless _)
  intro _
  apply Respects.bind (onCore_timeless ((Core.timeless clocks).pc))
  intro ahead
  apply Respects.bind takeFetched_timeless
  intro word
  apply Respects.bind
  · apply Respects.mapFault
    apply Respects.bind (.ask fun _ => rfl)
    intro opcode
    exact onCore_timeless (Core.execute_holds opcode : (Core.timeless clocks).holds _)
  intro branched
  apply Respects.change
  rintro machine _ ⟨avoids, attached, moment, rfl⟩
  exact ⟨avoids, attached, moment, rfl⟩

/-- Whoever is put to use now would be put to use at any moment, and gets the same numbers. -/
theorem putToUse_timeless (index : Nat) {attachment : Attachment}
    (idle : ¬ clocks attachment.holder) :
    Respects (SameButTime clocks) (putToUse index attachment) := by
  constructor
  rintro machine _ ⟨avoids, attached, moment, rfl⟩
  have recorded {started : Attachment} (same : started.holder = attachment.holder) :
      ∀ other ∈ machine.attachments.set index started, ¬ clocks other.holder := by
    intro other member
    rcases List.mem_or_eq_of_mem_set member with old | rfl
    · exact attached other old
    · rwa [same]
  cases used : attachment.subscriptions? with
  | some ids =>
    rw [perform_putToUse_some index used, perform_putToUse_some index used]
    exact ⟨rfl, avoids, recorded rfl, moment, rfl⟩
  | none =>
    have same : Bus.SameButTime clocks machine.bus (machine.atMoment moment).bus :=
      ⟨avoids, moment, rfl⟩
    obtain ⟨outcome, bus, _, started, later, kept, reached, rfl⟩ :=
      (Bus.start_timeless idle).cases same
    rw [perform_putToUse_none index used, perform_putToUse_none index used, started, later]
    cases outcome with
    | error fault => exact ⟨rfl, kept, attached, reached, rfl⟩
    | ok watches =>
      refine ⟨rfl, kept.withRegistry fun subscription member => ?_, recorded rfl, reached, rfl⟩
      rcases List.mem_append.mp member with old | new
      · exact kept.held subscription old
      · rwa [(Registry.mem_issue new).1]

theorem stepFrom_timeless (index : Nat) {attachments : List Attachment}
    (idle : ∀ attachment ∈ attachments, ¬ clocks attachment.holder) :
    Respects (SameButTime clocks) (stepFrom index attachments) := by
  induction attachments generalizing index with
  | nil => exact .pure _
  | cons attachment rest ih =>
    obtain ⟨here, later⟩ := List.forall_mem_cons.mp idle
    rw [stepFrom, stepAttachment_eq]
    apply Respects.bind
    · apply Respects.bind (putToUse_timeless index here)
      intro _
      exact onBus_timeless (Bus.step_timeless here)
    intro _
    exact ih (index + 1) later

theorem cycle_timeless : Respects (SameButTime clocks) cycle := by
  rw [cycle_eq]
  apply Respects.bind
  · constructor
    intro machine other same
    rw [stepPeripherals, Action.perform_bind, Action.perform_bind, Action.perform_ask,
      Action.perform_ask]
    obtain ⟨moment, rfl⟩ := same.moved
    exact (stepFrom_timeless 0 same.attached).both same
  intro _
  exact executeNext_timeless

end Machine

end ArmBoard
