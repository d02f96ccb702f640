import ArmBoard.Action
import ArmBoard.Bus.Operation
import ArmBoard.Peripheral.Gpu
import ArmBoard.Peripheral.Timer

/-!
# The bus

The bus joins memory to those who watch it. A tracked access is reported, one
after the other, to the subscriptions that hear it at that moment; an observer
that is still busy with an earlier report is passed over. Observers may make
accesses of their own while they react, and these are reported in turn. At
each level of such nesting one more observer is busy, so that the depth is
bounded by the number of observers. The journal records who was told what.
-/
namespace ArmBoard

/-- Someone on the bus who can watch memory. -/
inductive Watcher where
  /--
  Any observer from outside. Its reaction depends on what it has kept in mind, on the number of the
  subscription for which it is called, and on the access. Whatever finite things it keeps in mind
  are coded as one number. It can count its calls, so that what else it goes by, outside the board,
  lets it do nothing more in any one run.
  -/
  | observer (kept : Nat) (notified : (kept subscription : Nat) → Touch → Reaction)
  | gpu (gpu : Gpu)
  | timer (timer : Timer)

/-- An observer that answers each kind of event with fixed operations. -/
def Watcher.script (reactions : List (Event × Operation)) : Watcher :=
  .observer 0 fun _ _ touch =>
    .ofList ((reactions.filter fun reaction => reaction.1 == touch.event).map (·.2))

inductive Entry where
  /-- An observer begins to react to an access. -/
  | entered (subscription : Nat) (holder : Handle) (touch : Touch)
  /-- An observer has performed one of its operations. -/
  | performed (holder : Handle) (reply : Except Fault Reply)
  /-- An observer has finished its reaction. -/
  | left (holder : Handle)

/-- Memory, the subscriptions to it, the watchers and the time of day in microseconds. -/
structure Bus where
  memory : Memory
  registry : Registry
  watchers : Array Watcher
  now : Nat
  journal : Array Entry

/-- Tells observers of an access. -/
abbrev Reporter := Touch → Bus → Bus

namespace Bus

/-- A bus to which nobody listens. -/
def ofMemory (memory : Memory) : Bus := ⟨memory, .empty, #[], 0, #[]⟩

def note (bus : Bus) (entry : Entry) : Bus := { bus with journal := bus.journal.push entry }

def addWatcher (bus : Bus) (watcher : Watcher) : Handle × Bus :=
  (bus.watchers.size, { bus with watchers := bus.watchers.push watcher })

def setWatcher (bus : Bus) (holder : Handle) (watcher : Watcher) : Bus :=
  { bus with watchers := bus.watchers.setIfInBounds holder watcher }

/-- Subscribes a watcher, unless the watch is empty or deaf. -/
def observe (holder : Handle) (watch : Watch) : Action Bus Nat := .ofFunction fun bus =>
  match watch.complaint? with
  | some complaint => (.error (.misuse complaint), bus)
  | none =>
      let (id, registry) := bus.registry.insert holder watch
      (.ok id, { bus with registry })

/-- Ends a subscription and tells whether there was one of that number. -/
def unobserve (id : Nat) (bus : Bus) : Bool × Bus :=
  let (known, registry) := bus.registry.remove id
  (known, { bus with registry })

/--
A tracked read of `count` bytes. It is announced before the value is fetched and reported after;
an access outside memory is reported to nobody.
-/
def load (report : Reporter) (count : Nat) (address : Word) : Action Bus (BitVec (8 * count)) :=
  .ofFunction fun bus =>
    match bus.memory.check address count with
    | .error fault => (.error fault, bus)
    | .ok () =>
      let bus := report ⟨.preRead, address, count⟩ bus
      -- The value is what the observers left there.
      match bus.memory.read count address with
      | .error fault => (.error fault, bus)
      | .ok value => (.ok value, report ⟨.read, address, count⟩ bus)

/-- A tracked write of `count` bytes, reported once it has been made. -/
def store (report : Reporter) (count : Nat) (address : Word) (value : BitVec (8 * count)) :
    Action Bus Unit := .ofFunction fun bus =>
  match bus.memory.write count address value with
  | .error fault => (.error fault, bus)
  | .ok memory => (.ok (), report ⟨.write, address, count⟩ { bus with memory })

/-- Performs an operation; its tracked accesses are reported by `report`. -/
def perform (report : Reporter) : Operation → Action Bus Reply
  | .read width address true => do
      let bits ← load report width.bytes address
      return .value width bits
  | .read width address false => do
      let bits ← Action.ask fun bus : Bus => bus.memory.read width.bytes address
      return .value width bits
  | .write width address value true => do
      store report width.bytes address value
      return .done
  | .write width address value false => do
      Action.changeOr fun bus : Bus =>
        (bus.memory.write width.bytes address value).map fun memory => { bus with memory }
      return .done
  | .addWord address value => do
      Action.changeOr fun bus : Bus =>
        let old := (bus.memory.readWord address).toOption.getD 0
        (bus.memory.writeWord address (old + value)).map fun memory => { bus with memory }
      return .done
  | .putChunk address bytes => .ofFunction fun bus =>
      let (count, memory) := bus.memory.putChunk address bytes
      (.ok (.count count), { bus with memory })
  | .chunk address count => do
      let bytes ← Action.ask fun bus : Bus => .ok (bus.memory.chunk address count)
      return .bytes bytes
  | .pages => do
      let pages ← Action.ask fun bus : Bus => .ok bus.memory.allocatedPages
      return .pages pages
  | .extent => Action.ask fun bus => .ok (.extent bus.memory.size bus.memory.pageSize)
  | .observe holder watch => do
      let id ← observe holder watch
      return .subscription id
  | .unobserve id => .ofFunction fun bus =>
      let (known, bus) := bus.unobserve id
      (.ok (.removed known), bus)

/--
Follows an observer through its reaction, noting each reply, and tells what the observer keeps in
mind.
-/
def follow (report : Reporter) (holder : Handle) : Reaction → Bus → Nat × Bus
  | .finish kept, bus => (kept, bus)
  | .operate operation next, bus =>
      let (reply, bus) := (perform report operation).perform bus
      follow report holder (next reply) (bus.note (.performed holder reply))

/--
Calls a watcher for a subscription because of an access. The tracked accesses of its reaction are
reported by `report`.
-/
def notify (report : Reporter) (subscription : Nat) (holder : Handle) (touch : Touch) (bus : Bus) :
    Bus :=
  match bus.watchers[holder]? with
  | none => bus
  | some (.observer kept notified) =>
      let (kept, bus) := bus.follow report holder (notified kept subscription touch)
      bus.setWatcher holder (.observer kept notified)
  | some (.gpu gpu) =>
      let (gpu, memory) := gpu.hear bus.memory touch
      { bus with memory }.setWatcher holder (.gpu gpu)
  | some (.timer timer) => { bus with memory := timer.hear bus.now bus.memory touch }

/-- Calls a watcher from outside, for no subscription. The numbers of subscriptions begin at 1. -/
def react (report : Reporter) (holder : Handle) (touch : Touch) (bus : Bus) : Bus :=
  bus.notify report 0 holder touch

def deliver (report : Reporter) (subscription : Subscription) (touch : Touch) (bus : Bus) : Bus :=
  let bus := bus.note (.entered subscription.id subscription.holder touch)
  let bus := bus.notify report subscription.id subscription.holder touch
  bus.note (.left subscription.holder)

/--
Tells the subscriptions that hear an access, apart from those whose holders are busy. While one
reacts it is busy too, and its own accesses are reported one level further down. At level zero
nobody is told.
-/
def reportWithin : Nat → List Handle → Reporter
  | 0, _, _, bus => bus
  | level + 1, busy, touch, bus =>
      -- Who hears the access is settled before the first of them reacts.
      (bus.registry.hearing touch).foldl
        (fun bus subscription =>
          if busy.contains subscription.holder then bus
          else
            bus.deliver (reportWithin level (subscription.holder :: busy)) subscription touch)
        bus

/-- Tells of an access while some watchers are busy. No nesting is deeper than the watchers allow. -/
def report (busy : List Handle) : Reporter := fun touch bus =>
  reportWithin bus.watchers.size busy touch bus

/-- An access that no subscription hears leaves the bus as it is. -/
theorem report_eq_self {bus : Bus} {touch : Touch} (unheard : bus.registry.hearing touch = [])
    (busy : List Handle) : report busy touch bus = bus := by
  unfold report
  cases bus.watchers.size with
  | zero => rfl
  | succ level => simp [reportWithin, unheard]

end Bus

end ArmBoard
