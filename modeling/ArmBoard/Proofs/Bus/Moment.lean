import ArmBoard.Bus.Peripherals
import ArmBoard.Proofs.Bus.Habit
import ArmBoard.Proofs.Bus.Likeness

/-!
# The same bus at another moment

Of all watchers timers alone look at the clock. As long as nobody calls on one,
the time of day is of no consequence: whatever is done to a bus comes to the
same outcome at any moment, and leaves the same bus.
-/
namespace ArmBoard.Bus

open ArmBoard.Action (Respects)

def atMoment (moment : Nat) (bus : Bus) : Bus := { bus with now := moment }

/-- All timers on the bus belong to a set of watchers, and nobody calls on those in the set. -/
structure Avoids (clocks : Handle → Prop) (bus : Bus) : Prop where
  timers : ∀ {holder timer}, bus.watchers[holder]? = some (.timer timer) → clocks holder
  held : ∀ subscription ∈ bus.registry.subscriptions, ¬ clocks subscription.holder
  reactions : ∀ watcher ∈ bus.watchers, ∀ operation, watcher.Performs operation →
    ∀ holder ∈ operation.holder?, ¬ clocks holder

/-- The same bus at two moments, which avoids all clocks. -/
structure SameButTime (clocks : Handle → Prop) (bus other : Bus) : Prop where
  avoids : bus.Avoids clocks
  moved : ∃ moment, other = bus.atMoment moment

def IsTimer (bus : Bus) (holder : Handle) : Prop :=
  ∃ timer, bus.watchers[holder]? = some (.timer timer)

variable {clocks : Handle → Prop} {bus other : Bus}

/-- Who avoids a set that all timers belong to avoids the timers. -/
theorem Avoids.isTimer (avoids : bus.Avoids clocks) : bus.Avoids bus.IsTimer where
  timers present := ⟨_, present⟩
  held subscription member timer :=
    avoids.held subscription member (avoids.timers timer.choose_spec)
  reactions watcher member operation performed holder named timer :=
    avoids.reactions watcher member operation performed holder named
      (avoids.timers timer.choose_spec)

theorem Avoids.withRegistry (avoids : bus.Avoids clocks) {registry : Registry}
    (held : ∀ subscription ∈ registry.subscriptions, ¬ clocks subscription.holder) :
    Avoids clocks { bus with registry } :=
  ⟨avoids.timers, held, avoids.reactions⟩

/-- A watcher that is no timer, and calls on none, can take any place. -/
theorem Avoids.setWatcher (avoids : bus.Avoids clocks) (holder : Handle) {watcher : Watcher}
    (noTimer : ∀ timer, watcher ≠ .timer timer)
    (idle : ∀ operation, watcher.Performs operation →
      ∀ holder ∈ operation.holder?, ¬ clocks holder) :
    Avoids clocks (bus.setWatcher holder watcher) where
  timers {place timer} present := by
    by_cases same : place = holder
    · subst same
      rw [Bus.setWatcher, Array.getElem?_setIfInBounds_self] at present
      split at present
      · exact absurd (Option.some.inj present) (noTimer timer)
      · cases present
    · rw [Bus.setWatcher, Array.getElem?_setIfInBounds_ne (Ne.symm same)] at present
      exact avoids.timers present
  held := avoids.held
  reactions old member := by
    rcases Array.mem_or_eq_of_mem_setIfInBounds member with before | rfl
    · exact avoids.reactions old before
    · exact idle

namespace SameButTime

variable (same : SameButTime clocks bus other)
include same

theorem memory : other.memory = bus.memory := by
  obtain ⟨_, moment, rfl⟩ := same
  rfl

theorem registry : other.registry = bus.registry := by
  obtain ⟨_, moment, rfl⟩ := same
  rfl

theorem watchers : other.watchers = bus.watchers := by
  obtain ⟨_, moment, rfl⟩ := same
  rfl

theorem present (holder : Handle) : other.watchers[holder]? = bus.watchers[holder]? := by
  rw [same.watchers]

theorem withMemory (memory : Memory) :
    SameButTime clocks { bus with memory } { other with memory } := by
  obtain ⟨avoids, moment, rfl⟩ := same
  exact ⟨⟨avoids.timers, avoids.held, avoids.reactions⟩, moment, rfl⟩

theorem withRegistry {registry : Registry}
    (held : ∀ subscription ∈ registry.subscriptions, ¬ clocks subscription.holder) :
    SameButTime clocks { bus with registry } { other with registry } := by
  obtain ⟨avoids, moment, rfl⟩ := same
  exact ⟨avoids.withRegistry held, moment, rfl⟩

theorem note (entry : Entry) : SameButTime clocks (bus.note entry) (other.note entry) := by
  obtain ⟨avoids, moment, rfl⟩ := same
  exact ⟨⟨avoids.timers, avoids.held, avoids.reactions⟩, moment, rfl⟩

theorem setWatcher (holder : Handle) {watcher : Watcher} (noTimer : ∀ timer, watcher ≠ .timer timer)
    (idle : ∀ operation, watcher.Performs operation →
      ∀ holder ∈ operation.holder?, ¬ clocks holder) :
    SameButTime clocks (bus.setWatcher holder watcher) (other.setWatcher holder watcher) := by
  obtain ⟨avoids, moment, rfl⟩ := same
  exact ⟨avoids.setWatcher holder noTimer idle, moment, rfl⟩

theorem setUnit (holder : Handle) (gpu : Gpu) :
    SameButTime clocks (bus.setWatcher holder (.gpu gpu)) (other.setWatcher holder (.gpu gpu)) :=
  same.setWatcher holder nofun nofun

end SameButTime

/-- A reporter does not look at the clock, as long as nobody calls on one. -/
def Timeless (clocks : Handle → Prop) (report : Reporter) : Prop :=
  ∀ touch {bus other : Bus}, SameButTime clocks bus other →
    SameButTime clocks (report touch bus) (report touch other)

section Reporters

variable {report : Reporter}

theorem load_timeless (timeless : Timeless clocks report) (count : Nat) (address : Word) :
    Respects (SameButTime clocks) (load report count address) := by
  constructor
  intro bus other same
  rw [load, Action.perform_ofFunction, Action.perform_ofFunction, same.memory]
  cases bus.memory.check address count with
  | error fault => exact ⟨rfl, same⟩
  | ok _ =>
    have announced := timeless ⟨.preRead, address, count⟩ same
    dsimp only
    rw [announced.memory]
    cases (report ⟨.preRead, address, count⟩ bus).memory.read count address with
    | error fault => exact ⟨rfl, announced⟩
    | ok value => exact ⟨rfl, timeless _ announced⟩

theorem store_timeless (timeless : Timeless clocks report) (count : Nat) (address : Word)
    (value : BitVec (8 * count)) :
    Respects (SameButTime clocks) (store report count address value) := by
  constructor
  intro bus other same
  rw [store, Action.perform_ofFunction, Action.perform_ofFunction, same.memory]
  cases bus.memory.write count address value with
  | error fault => exact ⟨rfl, same⟩
  | ok memory => exact ⟨rfl, timeless _ (same.withMemory memory)⟩

/-- A write of a value that depends on memory, of which nobody is told. -/
theorem write_timeless (count : Nat) (address : Word) (value : Memory → BitVec (8 * count)) :
    Respects (SameButTime clocks) (Action.changeOr fun bus : Bus =>
      (bus.memory.write count address (value bus.memory)).map fun memory => { bus with memory }) := by
  refine .changeOr fun {bus other} same => ?_
  rw [same.memory]
  cases bus.memory.write count address (value bus.memory) with
  | error fault => exact .failed fault
  | ok memory => exact .made (same.withMemory memory)

theorem observe_timeless {holder : Handle} (idle : ¬ clocks holder) (watch : Watch) :
    Respects (SameButTime clocks) (observe holder watch) := by
  constructor
  intro bus other same
  rw [observe, Action.perform_ofFunction, Action.perform_ofFunction, same.registry]
  cases watch.complaint? with
  | some complaint => exact ⟨rfl, same⟩
  | none =>
    refine ⟨rfl, same.withRegistry fun subscription member => ?_⟩
    rcases List.mem_append.mp member with old | new
    · exact same.avoids.held subscription old
    · obtain rfl := List.mem_singleton.mp new
      exact idle

theorem perform_timeless (timeless : Timeless clocks report) {operation : Operation}
    (idle : ∀ holder ∈ operation.holder?, ¬ clocks holder) :
    Respects (SameButTime clocks) (perform report operation) := by
  cases operation with
  | read width address tracked =>
    cases tracked with
    | false => exact (Respects.ask fun same => by rw [same.memory]).bind fun _ => .pure _
    | true => exact (load_timeless timeless _ _).bind fun _ => .pure _
  | write width address value tracked =>
    cases tracked with
    | false => exact (write_timeless _ address fun _ => value).bind fun _ => .pure _
    | true => exact (store_timeless timeless _ _ _).bind fun _ => .pure _
  | addWord address value =>
    exact (write_timeless 4 address fun memory =>
      (memory.readWord address).toOption.getD 0 + value).bind fun _ => .pure _
  | putChunk address bytes =>
    constructor
    intro bus other same
    rw [perform, Action.perform_ofFunction, Action.perform_ofFunction, same.memory]
    exact ⟨rfl, same.withMemory _⟩
  | chunk | pages => exact (Respects.ask fun same => by rw [same.memory]).bind fun _ => .pure _
  | extent => exact Respects.ask fun same => by rw [same.memory]
  | observe holder watch =>
    exact (observe_timeless (idle holder rfl) watch).bind fun _ => .pure _
  | unobserve id =>
    constructor
    intro bus other same
    rw [perform, Action.perform_ofFunction, Action.perform_ofFunction, unobserve, unobserve,
      same.registry]
    exact ⟨rfl, same.withRegistry fun subscription member =>
      same.avoids.held subscription (List.mem_of_mem_eraseP member)⟩

theorem follow_timeless (timeless : Timeless clocks report) (holder : Handle) {reaction : Reaction}
    (idle : ∀ operation, reaction.Performs operation →
      ∀ holder ∈ operation.holder?, ¬ clocks holder)
    (same : SameButTime clocks bus other) :
    (bus.follow report holder reaction).1 = (other.follow report holder reaction).1 ∧
      SameButTime clocks (bus.follow report holder reaction).2
        (other.follow report holder reaction).2 := by
  induction reaction generalizing bus other with
  | finish kept => exact ⟨rfl, same⟩
  | operate operation next ih =>
    obtain ⟨reply, after, otherAfter, performed, otherPerformed, kept⟩ :=
      (perform_timeless timeless (idle operation .now)).cases same
    rw [follow, follow, performed, otherPerformed]
    exact ih reply (fun other later => idle other (.later reply later)) (kept.note _)

theorem notify_timeless (timeless : Timeless clocks report) (same : SameButTime clocks bus other)
    (subscription : Nat) {holder : Handle} (idle : ¬ clocks holder) (touch : Touch) :
    SameButTime clocks (bus.notify report subscription holder touch)
      (other.notify report subscription holder touch) := by
  unfold notify
  rw [same.present]
  split
  · exact same
  · next before notified present =>
    have aside := same.avoids.reactions _ (Array.mem_of_getElem? present)
    obtain ⟨kept, followed⟩ := follow_timeless timeless holder
      (fun operation performs => aside operation ⟨before, subscription, touch, performs⟩) same
    dsimp only
    rw [kept]
    exact followed.setWatcher holder nofun aside
  · dsimp only
    rw [same.memory]
    exact (same.withMemory _).setUnit holder _
  · next present => exact absurd (same.avoids.timers present) idle

theorem deliver_timeless (timeless : Timeless clocks report) (same : SameButTime clocks bus other)
    {subscription : Subscription} (idle : ¬ clocks subscription.holder) (touch : Touch) :
    SameButTime clocks (bus.deliver report subscription touch)
      (other.deliver report subscription touch) := by
  rw [deliver, deliver]
  exact (notify_timeless timeless (same.note _) subscription.id idle touch).note _

end Reporters

theorem report_timeless (clocks : Handle → Prop) (busy : List Handle) :
    Timeless clocks (report busy) := by
  intro touch bus other same
  rw [report, report, same.watchers]
  exact reportWithin_related (fun subscription => ¬ clocks subscription.holder)
    (fun same => same.registry.symm) (fun same => by rw [same.registry]; exact same.avoids.held)
    (fun timeless _ _ same _ idle touch => deliver_timeless timeless same idle touch)
    _ busy touch same

theorem answerMail_timeless (holder : Handle) (gpu : Gpu) (mail : Word) :
    Respects (SameButTime clocks) (answerMail holder gpu mail) := by
  apply Respects.bind
  · refine .changeOr fun {bus other} same => ?_
    rw [same.memory]
    cases gpu.allocate bus.memory mail with
    | error fault => exact .failed fault
    | ok granted => exact .made ((same.withMemory _).setUnit holder _)
  intro _
  apply Respects.bind (.ask fun _ => rfl)
  intro base
  apply Respects.bind (store_timeless (report_timeless clocks [holder]) _ _ _)
  intro _
  apply Respects.bind
  · refine .change fun {bus other} same => ?_
    rw [same.present]
    split
    · exact same.setUnit holder _
    · exact same
  intro _
  refine .changeOr fun {bus other} same => ?_
  rw [same.present]
  split
  · next gpu _ =>
    rw [same.memory]
    cases gpu.publishStatus bus.memory with
    | error fault => exact .failed fault
    | ok memory => exact .made (same.withMemory memory)
  · exact .made same

section Peripherals

variable {holder : Handle} (idle : ¬ clocks holder)
include idle

theorem start_timeless : Respects (SameButTime clocks) (start holder) := by
  constructor
  intro bus other same
  rw [start, Action.perform_ofFunction, Action.perform_ofFunction, same.present]
  split
  · rw [same.memory]
    exact ⟨rfl, (same.withMemory _).setUnit holder _⟩
  · next present => exact absurd (same.avoids.timers present) idle
  · exact ⟨rfl, same⟩

theorem step_timeless : Respects (SameButTime clocks) (step holder) := by
  constructor
  intro bus other same
  rw [step, Action.perform_ofFunction, Action.perform_ofFunction, same.present]
  split
  · next gpu _ =>
    cases gpu.pending? with
    | none => exact ⟨rfl, same⟩
    | some mail => exact (answerMail_timeless holder _ mail).both (same.setUnit holder _)
  · next present => exact absurd (same.avoids.timers present) idle
  · exact ⟨rfl, same⟩

end Peripherals

end ArmBoard.Bus
