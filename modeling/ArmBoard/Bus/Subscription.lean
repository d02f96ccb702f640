import ArmBoard.Fault

/-!
# Subscriptions

Observers subscribe to windows of memory and to kinds of events. A registry
keeps the subscriptions in the order they were made and numbers them from one
upwards.
-/
namespace ArmBoard

inductive Event where
  | read
  | write
  /-- A read is about to fetch its value, which the observer may still refresh. -/
  | preRead
  deriving DecidableEq, Repr

structure EventSet where
  read : Bool
  write : Bool
  preRead : Bool
  deriving DecidableEq, Repr

namespace EventSet

def empty : EventSet := ⟨false, false, false⟩

def ofList (events : List Event) : EventSet :=
  ⟨events.contains .read, events.contains .write, events.contains .preRead⟩

def contains (set : EventSet) : Event → Bool
  | .read => set.read
  | .write => set.write
  | .preRead => set.preRead

theorem contains_ofList (events : List Event) (event : Event) :
    (ofList events).contains event = events.contains event := by
  cases event <;> rfl

def isEmpty (set : EventSet) : Bool := !(set.read || set.write || set.preRead)

end EventSet

/-- The bytes that an access touches and the event it gives rise to. -/
structure Touch where
  event : Event
  address : Word
  length : Nat
  deriving DecidableEq, Repr

/-- Whether the byte at an address was touched; the window does not wrap. -/
def Touch.covers (touch : Touch) (address : Word) : Bool :=
  touch.address.toNat ≤ address.toNat && address.toNat < touch.address.toNat + touch.length

/-- A window of memory and the events to hear about in it. -/
structure Watch where
  address : Word
  length : Word
  events : EventSet
  deriving DecidableEq, Repr

namespace Watch

/-- Whether window and access share a byte; neither of them wraps. -/
def overlaps (watch : Watch) (touch : Touch) : Bool :=
  touch.address.toNat < watch.address.toNat + watch.length.toNat &&
    watch.address.toNat < touch.address.toNat + touch.length

/-- Whether the access is to be reported to whoever holds the watch. -/
def hears (watch : Watch) (touch : Touch) : Bool :=
  watch.events.contains touch.event && watch.overlaps touch

/-- A watch needs a window and an event; the window is looked at first. -/
def complaint? (watch : Watch) : Option Misuse :=
  if watch.length == 0 then some (.emptyWatch watch.address)
  else if watch.events.isEmpty then some (.deafWatch watch.address)
  else none

end Watch

abbrev Handle := Nat

/-- A watch held by an observer, under the number it was given. -/
structure Subscription where
  id : Nat
  watch : Watch
  holder : Handle
  deriving DecidableEq, Repr

/-- The subscriptions in the order they were made, and the number for the next one. -/
structure Registry where
  nextId : Nat
  subscriptions : List Subscription
  deriving DecidableEq, Repr

namespace Registry

/-- No subscriptions; the first one will be number one. -/
def empty : Registry := ⟨1, []⟩

/--
Subscribes an observer and returns the number of the subscription. Numbers have no bound here; a
counter of 64 bits would stay at its greatest value after 2^64 - 1 subscriptions.
-/
def insert (registry : Registry) (holder : Handle) (watch : Watch) : Nat × Registry :=
  (registry.nextId,
    { nextId := registry.nextId + 1,
      subscriptions := registry.subscriptions ++ [⟨registry.nextId, watch, holder⟩] })

/-- Removes the subscription of a number, and tells whether there was one. -/
def remove (registry : Registry) (id : Nat) : Bool × Registry :=
  (registry.subscriptions.any (·.id == id),
    { registry with subscriptions := registry.subscriptions.eraseP (·.id == id) })

/-- The subscriptions that hear an access, in the order they were made. -/
def hearing (registry : Registry) (touch : Touch) : List Subscription :=
  registry.subscriptions.filter (·.watch.hears touch)

end Registry

end ArmBoard
