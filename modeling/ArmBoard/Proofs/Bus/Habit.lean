import ArmBoard.Bus.Basic
import ArmBoard.Proofs.Memory.Frame

/-!
# What observers do to the bus

An observer does little by itself, whatever it goes by: it changes memory or the
subscriptions, one operation at a time. All else comes from the reports of its
accesses, in which further observers do the same. A relation between buses that
every single operation respects, and that survives the beginning and the end of
a reaction, is therefore respected by any report, however deeply it is nested.
-/
namespace ArmBoard

open Memory (Within ChangedIn)

namespace Operation

/-- All operations but those on subscriptions. -/
def isAccess : Operation → Bool
  | observe .. | unobserve .. => false
  | _ => true

/-- The operations that store something. -/
def isWrite : Operation → Bool
  | write .. | addWord .. | putChunk .. => true
  | _ => false

/-- The places that an operation may write. -/
def MayWrite : Operation → Nat → Prop
  | write width address _ _ => Within address.toNat width.bytes
  | addWord address _ => Within address.toNat 4
  | putChunk address bytes => Within address.toNat bytes.length
  | _ => fun _ => False

/-- What observers are told of an operation once it has been performed. -/
def report? : Operation → Option Touch
  | write width address _ true => some ⟨.write, address, width.bytes⟩
  | read width address true => some ⟨.read, address, width.bytes⟩
  | _ => none

/-- Whom an operation subscribes. -/
def holder? : Operation → Option Handle
  | observe holder _ => some holder
  | _ => none

end Operation

namespace Reaction

/-- An operation that occurs in a reaction for some replies. -/
inductive Performs (operation : Operation) : Reaction → Prop
  | now {next : Except Fault Reply → Reaction} : Performs operation (.operate operation next)
  | later {first : Operation} {next : Except Fault Reply → Reaction} (reply : Except Fault Reply)
      (performs : Performs operation (next reply)) : Performs operation (.operate first next)

variable {operation first : Operation}

@[simp]
theorem not_performs_finish (kept : Nat) : ¬ (finish kept).Performs operation := nofun

@[simp]
theorem performs_operate {next : Except Fault Reply → Reaction} :
    (operate first next).Performs operation ↔
      operation = first ∨ ∃ reply, (next reply).Performs operation := by
  constructor
  · rintro (_ | ⟨reply, later⟩)
    · exact .inl rfl
    · exact .inr ⟨reply, later⟩
  · rintro (rfl | ⟨reply, later⟩)
    · exact .now
    · exact .later reply later

theorem performs_ofList {operations : List Operation} :
    (ofList operations).Performs operation ↔ operation ∈ operations := by
  induction operations with
  | nil => simp [ofList]
  | cons first rest ih =>
    -- Whatever the reply, the rest is the same.
    have replies : Nonempty (Except Fault Reply) := ⟨.ok .done⟩
    rw [ofList, performs_operate, exists_const, ih, List.mem_cons]

end Reaction

namespace Watcher

/--
An operation that occurs in some reaction of a watcher, whatever it has in mind when it is called.
A peripheral changes memory without operations.
-/
def Performs (operation : Operation) : Watcher → Prop
  | observer _ notified =>
      ∃ kept subscription touch, (notified kept subscription touch).Performs operation
  | gpu _ | timer _ => False

@[simp]
theorem not_performs_gpu (unit : Gpu) (operation : Operation) :
    ¬ (gpu unit).Performs operation := nofun

@[simp]
theorem not_performs_timer (counter : Timer) (operation : Operation) :
    ¬ (timer counter).Performs operation := nofun

@[simp]
theorem performs_script {reactions : List (Event × Operation)} {operation : Operation} :
    (script reactions).Performs operation ↔ operation ∈ reactions.map (·.2) := by
  simp only [script, Performs, Reaction.performs_ofList, List.mem_map, List.mem_filter]
  constructor
  · rintro ⟨_, _, _, reaction, ⟨listed, _⟩, same⟩
    exact ⟨reaction, listed, same⟩
  · rintro ⟨reaction, listed, same⟩
    exact ⟨0, 0, ⟨reaction.1, 0, 0⟩, reaction, ⟨listed, beq_self_eq_true _⟩, same⟩

end Watcher

namespace Bus

/-- What an operation does to the bus by itself, the reports of its accesses apart. -/
inductive Changes (operation : Operation) (bus : Bus) : Bus → Prop
  | nothing : Changes operation bus bus
  | stored {memory : Memory} (stores : operation.isWrite = true)
      (changes : ChangedIn operation.MayWrite bus.memory memory) :
      Changes operation bus { bus with memory }
  | subscribed {holder : Handle} {watch : Watch} (subscribes : operation = .observe holder watch) :
      Changes operation bus { bus with registry := (bus.registry.insert holder watch).2 }
  | unsubscribed {id : Nat} (unsubscribes : operation = .unobserve id) :
      Changes operation bus { bus with registry := (bus.registry.remove id).2 }

/-- What an operation comes to, the reports of its accesses included. -/
inductive Leaves (report : Reporter) (operation : Operation) (bus : Bus) : Bus → Prop
  | unreported {after : Bus} (changes : Changes operation bus after) :
      Leaves report operation bus after
  /-- A read was announced and then refused. -/
  | announced (touch : Touch) : Leaves report operation bus (report touch bus)
  | read (before after : Touch) : Leaves report operation bus (report after (report before bus))
  | written {changed : Bus} (touch : Touch) (changes : Changes operation bus changed) :
      Leaves report operation bus (report touch changed)

section Operations

variable (report : Reporter) (bus : Bus)

theorem leaves_read (width : Width) (address : Word) (tracked : Bool) :
    Leaves report (.read width address tracked) bus
      ((perform report (.read width address tracked)).perform bus).2 := by
  cases tracked with
  | false =>
    rw [perform, Action.perform_bind, Action.perform_ask]
    cases bus.memory.read width.bytes address <;> exact .unreported .nothing
  | true =>
    rw [perform, Action.perform_bind, load, Action.perform_ofFunction]
    cases bus.memory.check address width.bytes with
    | error fault => exact .unreported .nothing
    | ok _ =>
      dsimp only
      cases (report ⟨.preRead, address, width.bytes⟩ bus).memory.read width.bytes address with
      | error fault => exact .announced _
      | ok value => exact .read _ _

/-- A write that nobody is told of. -/
theorem changes_of_changeOr {operation : Operation} (stores : operation.isWrite = true)
    (count : Nat) (address : Word) (value : Bus → BitVec (8 * count))
    (places : operation.MayWrite = Within address.toNat count) :
    Changes operation bus ((do
      Action.changeOr fun bus : Bus =>
        (bus.memory.write count address (value bus)).map fun memory => { bus with memory }
      return .done : Action Bus Reply).perform bus).2 := by
  rw [Action.perform_bind, Action.perform, Action.changeOr]
  cases stored : bus.memory.write count address (value bus) with
  | error fault => exact .nothing
  | ok memory =>
    refine .stored stores ?_
    rw [places]
    exact Memory.changedIn_of_write stored

theorem leaves_write (width : Width) (address : Word) (value : BitVec (8 * width.bytes))
    (tracked : Bool) :
    Leaves report (.write width address value tracked) bus
      ((perform report (.write width address value tracked)).perform bus).2 := by
  cases tracked with
  | false => exact .unreported (changes_of_changeOr bus rfl width.bytes address (fun _ => value) rfl)
  | true =>
    rw [perform, Action.perform_bind, store, Action.perform_ofFunction]
    cases stored : bus.memory.write width.bytes address value with
    | error fault => exact .unreported .nothing
    | ok memory => exact .written _ (.stored rfl (Memory.changedIn_of_write stored))

theorem leaves_observe (holder : Handle) (watch : Watch) :
    Leaves report (.observe holder watch) bus
      ((perform report (.observe holder watch)).perform bus).2 := by
  rw [perform, Action.perform_bind, observe, Action.perform_ofFunction]
  cases watch.complaint? with
  | some complaint => exact .unreported .nothing
  | none => exact .unreported (.subscribed rfl)

theorem leaves_perform (operation : Operation) :
    Leaves report operation bus ((perform report operation).perform bus).2 := by
  cases operation with
  | read width address tracked => exact leaves_read report bus width address tracked
  | write width address value tracked => exact leaves_write report bus width address value tracked
  | addWord address value =>
    exact .unreported (changes_of_changeOr bus rfl 4 address
      (fun bus => (bus.memory.readWord address).toOption.getD 0 + value) rfl)
  | putChunk address bytes =>
    exact .unreported (.stored rfl (Memory.changedIn_putChunk bus.memory address bytes))
  | chunk | pages | extent => exact .unreported .nothing
  | observe holder watch => exact leaves_observe report bus holder watch
  | unobserve id => exact .unreported (.unsubscribed rfl)

end Operations

theorem present_setWatcher {bus : Bus} {holder : Handle} {watcher : Watcher}
    (present : bus.watchers[holder]? = some watcher)
    (other : Watcher) : (bus.setWatcher holder other).watchers[holder]? = some other := by
  obtain ⟨inside, _⟩ := Array.getElem?_eq_some_iff.mp present
  simp [setWatcher, inside]

/-- Every subscription has a holder on the bus, and observers subscribe nobody else. -/
structure Staffed (bus : Bus) : Prop where
  held : ∀ subscription ∈ bus.registry.subscriptions, subscription.holder < bus.watchers.size
  reactions : ∀ watcher ∈ bus.watchers, ∀ operation, watcher.Performs operation →
    ∀ holder ∈ operation.holder?, holder < bus.watchers.size

namespace Staffed

variable {bus : Bus}

theorem withMemory (staffed : bus.Staffed) (memory : Memory) : Staffed { bus with memory } :=
  ⟨staffed.held, staffed.reactions⟩

theorem note (staffed : bus.Staffed) (entry : Entry) : (bus.note entry).Staffed :=
  ⟨staffed.held, staffed.reactions⟩

theorem of_changes (staffed : bus.Staffed) {operation : Operation} {after : Bus}
    (known : ∀ holder ∈ operation.holder?, holder < bus.watchers.size)
    (changes : Changes operation bus after) :
    after.Staffed ∧ after.watchers = bus.watchers := by
  cases changes with
  | nothing => exact ⟨staffed, rfl⟩
  | stored => exact ⟨staffed.withMemory _, rfl⟩
  | @subscribed holder watch subscribes =>
    refine ⟨⟨fun subscription member => ?_, staffed.reactions⟩, rfl⟩
    rcases List.mem_append.mp member with old | new
    · exact staffed.held subscription old
    · obtain rfl := List.mem_singleton.mp new
      exact known holder (by rw [subscribes]; rfl)
  | unsubscribed =>
    refine ⟨⟨fun subscription member => ?_, staffed.reactions⟩, rfl⟩
    exact staffed.held subscription (List.mem_of_mem_eraseP member)

theorem setWatcher (staffed : bus.Staffed) {watcher : Watcher} (holder : Handle)
    (known : ∀ operation, watcher.Performs operation →
      ∀ holder ∈ operation.holder?, holder < bus.watchers.size) :
    (bus.setWatcher holder watcher).Staffed := by
  have size : (bus.setWatcher holder watcher).watchers.size = bus.watchers.size :=
    Array.size_setIfInBounds
  refine ⟨fun subscription member => ?_, fun other member operation performed => ?_⟩
  · rw [size]
    exact staffed.held subscription member
  · rw [size]
    rcases Array.mem_or_eq_of_mem_setIfInBounds member with old | rfl
    · exact staffed.reactions other old operation performed
    · exact known operation performed

end Staffed

/--
A relation between a bus and what becomes of it while some watchers are busy, which the watchers
that are permitted respect in all that they do.
-/
structure Habit where
  permits : Watcher → Prop
  keeps : List Handle → Bus → Bus → Prop
  refl : ∀ busy bus, keeps busy bus bus
  trans : ∀ {busy first second third},
    keeps busy first second → keeps busy second third → keeps busy first third
  operated : ∀ {busy watcher operation bus after}, permits watcher →
    watcher.Performs operation → Changes operation bus after → keeps busy bus after
  performed : ∀ {busy bus holder reply}, keeps busy bus (bus.note (.performed holder reply))
  settled : ∀ {busy bus holder before after notified}, permits (.observer before notified) →
    permits (.observer after notified) ∧
      keeps busy bus (bus.setWatcher holder (.observer after notified))
  unitHeard : ∀ {busy bus holder gpu} {touch : Touch}, permits (.gpu gpu) →
    permits (.gpu (gpu.hear bus.memory touch).1) ∧
      keeps busy bus ({ bus with memory := (gpu.hear bus.memory touch).2 }.setWatcher holder
        (.gpu (gpu.hear bus.memory touch).1))
  timerHeard : ∀ {busy bus timer} {touch : Touch}, permits (.timer timer) →
    keeps busy bus { bus with memory := timer.hear bus.now bus.memory touch }
  called : ∀ {busy bus holder id touch after}, holder ∉ busy → holder < bus.watchers.size →
    keeps (holder :: busy) (bus.note (.entered id holder touch)) after →
      keeps busy bus (after.note (.left holder))

namespace Habit

/-- The bus is staffed with watchers that the habit permits. -/
structure Governs (habit : Habit) (bus : Bus) : Prop where
  staffed : bus.Staffed
  permitted : ∀ watcher ∈ bus.watchers, habit.permits watcher

/-- What became of a bus keeps the habit, and is staffed as before. -/
structure Kept (habit : Habit) (busy : List Handle) (bus after : Bus) : Prop where
  governs : habit.Governs after
  size : after.watchers.size = bus.watchers.size
  keeps : habit.keeps busy bus after

/-- A reporter keeps the habit on every bus that the habit governs. -/
def Respects (habit : Habit) (busy : List Handle) (report : Reporter) : Prop :=
  ∀ touch bus, habit.Governs bus → habit.Kept busy bus (report touch bus)

variable {habit : Habit} {busy : List Handle} {report : Reporter} {bus after : Bus}

theorem Governs.kept (governs : habit.Governs bus) (busy : List Handle) : habit.Kept busy bus bus :=
  ⟨governs, rfl, habit.refl busy bus⟩

theorem Kept.trans {later : Bus} (first : habit.Kept busy bus after)
    (second : habit.Kept busy after later) : habit.Kept busy bus later :=
  ⟨second.governs, second.size.trans first.size, habit.trans first.keeps second.keeps⟩

theorem Governs.note (governs : habit.Governs bus) (entry : Entry) :
    habit.Governs (bus.note entry) :=
  ⟨governs.staffed.note entry, governs.permitted⟩

/-- What an operation does by itself, if it subscribes nobody from outside. -/
theorem Governs.kept_of_changes (governs : habit.Governs bus) {operation : Operation}
    (known : ∀ holder ∈ operation.holder?, holder < bus.watchers.size)
    (keeps : ∀ {bus after}, Changes operation bus after → habit.keeps busy bus after)
    (changes : Changes operation bus after) : habit.Kept busy bus after := by
  obtain ⟨staffed, same⟩ := governs.staffed.of_changes known changes
  refine ⟨⟨staffed, ?_⟩, congrArg Array.size same, keeps changes⟩
  rw [same]
  exact governs.permitted

theorem kept_of_perform (respects : habit.Respects busy report) (governs : habit.Governs bus)
    {operation : Operation} (known : ∀ holder ∈ operation.holder?, holder < bus.watchers.size)
    (keeps : ∀ {bus after}, Changes operation bus after → habit.keeps busy bus after) :
    habit.Kept busy bus ((perform report operation).perform bus).2 := by
  have leaves := leaves_perform report bus operation
  generalize ((perform report operation).perform bus).2 = after at leaves
  -- The operation's own change comes first, then at most two reports.
  cases leaves with
  | unreported changes => exact governs.kept_of_changes known keeps changes
  | announced touch => exact respects touch bus governs
  | read before after =>
    have announced := respects before bus governs
    exact announced.trans (respects after _ announced.governs)
  | written touch changes =>
    have changed := governs.kept_of_changes known keeps changes
    exact changed.trans (respects touch _ changed.governs)

theorem kept_of_follow (respects : habit.Respects busy report) (holder : Handle)
    {reaction : Reaction} {watcher : Watcher} (permitted : habit.permits watcher)
    (own : ∀ operation, reaction.Performs operation → watcher.Performs operation)
    (governs : habit.Governs bus)
    (known : ∀ operation, reaction.Performs operation →
      ∀ holder ∈ operation.holder?, holder < bus.watchers.size) :
    habit.Kept busy bus (bus.follow report holder reaction).2 := by
  induction reaction generalizing bus with
  | finish kept => exact governs.kept busy
  | operate operation next ih =>
    have performed := kept_of_perform respects governs (known operation .now)
      (habit.operated permitted (own operation .now))
    rw [follow]
    rcases result : (perform report operation).perform bus with ⟨reply, between⟩
    rw [result] at performed
    -- The rest is performed on a bus of the same size, so whom it subscribes is still known.
    have noted : habit.Kept busy between (between.note (.performed holder reply)) :=
      ⟨performed.governs.note _, rfl, habit.performed⟩
    refine (performed.trans noted).trans (ih reply (fun other later => own other (.later reply later))
      noted.governs fun other later => ?_)
    rw [noted.size, performed.size]
    exact known other (.later reply later)

theorem Governs.setWatcher (governs : habit.Governs bus) {watcher : Watcher} (holder : Handle)
    (permitted : habit.permits watcher)
    (known : ∀ operation, watcher.Performs operation →
      ∀ holder ∈ operation.holder?, holder < bus.watchers.size) :
    habit.Governs (bus.setWatcher holder watcher) where
  staffed := governs.staffed.setWatcher holder known
  permitted other member := by
    rcases Array.mem_or_eq_of_mem_setIfInBounds member with old | rfl
    · exact governs.permitted other old
    · exact permitted

theorem kept_of_notify (respects : habit.Respects busy report) (governs : habit.Governs bus)
    (subscription : Nat) (holder : Handle) (touch : Touch) :
    habit.Kept busy bus (bus.notify report subscription holder touch) := by
  unfold notify
  split
  · exact governs.kept busy
  · next before notified present =>
    have member := Array.mem_of_getElem? present
    have permitted := governs.permitted _ member
    have known := governs.staffed.reactions _ member
    have own : ∀ operation, (notified before subscription touch).Performs operation →
        (Watcher.observer before notified).Performs operation :=
      fun _ performs => ⟨before, subscription, touch, performs⟩
    have followed := kept_of_follow respects holder permitted own governs
      fun operation performs => known operation (own operation performs)
    rcases result : bus.follow report holder (notified before subscription touch) with
      ⟨after, reached⟩
    rw [result] at followed
    -- What the observer keeps in mind has no influence on which operations it may perform.
    obtain ⟨still, keeps⟩ := habit.settled permitted
    refine followed.trans ⟨followed.governs.setWatcher holder still ?_, Array.size_setIfInBounds,
      keeps⟩
    rw [followed.size]
    exact known
  · next gpu present =>
    have member := Array.mem_of_getElem? present
    obtain ⟨permitted, keeps⟩ := habit.unitHeard (governs.permitted _ member)
    have stored : habit.Governs { bus with memory := (gpu.hear bus.memory touch).2 } :=
      ⟨governs.staffed.withMemory _, governs.permitted⟩
    exact ⟨stored.setWatcher holder permitted nofun, Array.size_setIfInBounds, keeps⟩
  · next timer present =>
    have member := Array.mem_of_getElem? present
    exact ⟨⟨governs.staffed.withMemory _, governs.permitted⟩, rfl,
      habit.timerHeard (governs.permitted _ member)⟩

theorem kept_of_deliver {subscription : Subscription}
    (respects : habit.Respects (subscription.holder :: busy) report) (governs : habit.Governs bus)
    (idle : subscription.holder ∉ busy) (known : subscription.holder < bus.watchers.size)
    (touch : Touch) : habit.Kept busy bus (bus.deliver report subscription touch) := by
  have entered := governs.note (.entered subscription.id subscription.holder touch)
  have reacted := kept_of_notify respects entered subscription.id subscription.holder touch
  exact ⟨reacted.governs.note _, reacted.size, habit.called idle known reacted.keeps⟩

theorem respects_reportWithin (habit : Habit) (level : Nat) (busy : List Handle) :
    habit.Respects busy (reportWithin level busy) := by
  intro touch bus governs
  -- A nested report runs at a lower level, with its observer among the busy ones.
  induction level generalizing busy touch bus with
  | zero => exact governs.kept busy
  | succ level ih =>
    have known : ∀ subscription ∈ bus.registry.hearing touch,
        subscription.holder < bus.watchers.size := fun subscription member =>
      governs.staffed.held subscription (List.mem_filter.mp member).1
    rw [reportWithin]
    -- The list is fixed from the beginning, while the bus changes from one reaction to the next.
    generalize bus.registry.hearing touch = told at known
    induction told generalizing bus with
    | nil => exact governs.kept busy
    | cons subscription rest next =>
      obtain ⟨here, later⟩ := List.forall_mem_cons.mp known
      rw [List.foldl_cons]
      split
      · exact next bus governs later
      · next idle =>
        rw [List.contains_iff_mem] at idle
        have delivered := kept_of_deliver (fun touch bus governs => ih _ touch bus governs) governs
          idle here touch
        refine delivered.trans (next _ delivered.governs ?_)
        rw [delivered.size]
        exact later

end Habit

/--
A relation between a bus and whatever becomes of it. Unlike a habit it asks nothing of the watchers,
nor of those who hold the subscriptions.
-/
structure Lasting (keeps : Bus → Bus → Prop) : Prop where
  refl : ∀ bus, keeps bus bus
  trans : ∀ {first second third}, keeps first second → keeps second third → keeps first third
  operated : ∀ {operation bus after}, Changes operation bus after → keeps bus after
  noted : ∀ bus entry, keeps bus (bus.note entry)
  settled : ∀ {bus after : Bus} {holder : Handle} {before kept notified},
    bus.watchers[holder]? = some (.observer before notified) → keeps bus after →
      keeps after (after.setWatcher holder (.observer kept notified))
  unitHeard : ∀ {bus : Bus} {holder : Handle} {gpu : Gpu} (touch : Touch),
    bus.watchers[holder]? = some (.gpu gpu) →
      keeps bus ({ bus with memory := (gpu.hear bus.memory touch).2 }.setWatcher holder
        (.gpu (gpu.hear bus.memory touch).1))
  timerHeard : ∀ (bus : Bus) (timer : Timer) (touch : Touch),
    keeps bus { bus with memory := timer.hear bus.now bus.memory touch }

namespace Lasting

variable {keeps : Bus → Bus → Prop} (lasting : Lasting keeps)
include lasting

section Reported

variable {report : Reporter} (reported : ∀ touch bus, keeps bus (report touch bus))
include reported

theorem keeps_perform (operation : Operation) (bus : Bus) :
    keeps bus ((perform report operation).perform bus).2 := by
  have leaves := leaves_perform report bus operation
  generalize ((perform report operation).perform bus).2 = after at leaves
  cases leaves with
  | unreported changes => exact lasting.operated changes
  | announced touch => exact reported touch bus
  | read before after => exact lasting.trans (reported before bus) (reported after _)
  | written touch changes => exact lasting.trans (lasting.operated changes) (reported touch _)

theorem keeps_follow (holder : Handle) (reaction : Reaction) (bus : Bus) :
    keeps bus (bus.follow report holder reaction).2 := by
  induction reaction generalizing bus with
  | finish kept => exact lasting.refl bus
  | operate operation next ih =>
    have performed := lasting.keeps_perform reported operation bus
    rw [follow]
    rcases result : (perform report operation).perform bus with ⟨reply, between⟩
    rw [result] at performed
    have noted := lasting.noted between (.performed holder reply)
    exact lasting.trans performed (lasting.trans noted (ih reply _))

theorem keeps_notify (subscription : Nat) (holder : Handle) (touch : Touch) (bus : Bus) :
    keeps bus (bus.notify report subscription holder touch) := by
  unfold notify
  split
  · exact lasting.refl bus
  · next before notified present =>
    have followed := lasting.keeps_follow reported holder (notified before subscription touch) bus
    exact lasting.trans followed (lasting.settled present followed)
  · next gpu present => exact lasting.unitHeard touch present
  · next timer _ => exact lasting.timerHeard bus timer touch

theorem keeps_deliver (subscription : Subscription) (touch : Touch) (bus : Bus) :
    keeps bus (bus.deliver report subscription touch) := by
  have entered := lasting.noted bus (.entered subscription.id subscription.holder touch)
  have reacted := lasting.keeps_notify reported subscription.id subscription.holder touch
  exact lasting.trans entered (lasting.trans (reacted _) (lasting.noted _ _))

end Reported

theorem keeps_reportWithin (level : Nat) (busy : List Handle) (touch : Touch) (bus : Bus) :
    keeps bus (reportWithin level busy touch bus) := by
  induction level generalizing busy touch bus with
  | zero => exact lasting.refl bus
  | succ level ih =>
    rw [reportWithin]
    -- The recipients were settled on the first bus and are called on the ones that follow.
    generalize bus.registry.hearing touch = told
    induction told generalizing bus with
    | nil => exact lasting.refl bus
    | cons subscription rest next =>
      rw [List.foldl_cons]
      split
      · exact next bus
      · have delivered := lasting.keeps_deliver (ih (subscription.holder :: busy)) subscription touch
        exact lasting.trans (delivered bus) (next _)

theorem keeps_report (busy : List Handle) (touch : Touch) (bus : Bus) :
    keeps bus (Bus.report busy touch bus) := lasting.keeps_reportWithin _ busy touch bus

end Lasting

end Bus

end ArmBoard
