import ArmBoard.Bus.Subscription
import ArmBoard.Memory.Paged

/-!
# The free-running timer

A counter of microseconds in two words of memory, brought up to date at every
step and just before it is read. The time of day is not the timer's own: it
is told the moment at which something happens to it.
-/
namespace ArmBoard

structure Timer where
  /-- Where the registers lie. -/
  base? : Option Word
  /-- The moment at which it was put to use. -/
  started? : Option Nat
  /-- The address can no longer change. -/
  fixed : Bool
  deriving DecidableEq, Repr

namespace Timer

/-- Offset of the control register, which is left alone. -/
def controlOffset : Word := 0x00

def lowOffset : Word := 0x04

def highOffset : Word := 0x08

/-- Offset of the first compare register; all of them are left alone. -/
def compareOffset : Word := 0x0C

def create (base? : Option Word) : Timer := ⟨base?, none, false⟩

/-- Moves the registers, as long as the timer is unused. -/
def setBase (timer : Timer) (address : Word) : Except Fault Timer :=
  if timer.fixed then .error (.misuse .timerBaseFixed)
  else .ok { timer with base? := some address }

/-- The registers, which must have been placed. -/
def base (timer : Timer) : Except Fault Word :=
  match timer.base? with
  | some address => .ok address
  | none => .error (.misuse .timerBaseMissing)

/-- The microseconds since the timer was put to use, zero before that. -/
def elapsed (timer : Timer) (now : Nat) : Nat :=
  match timer.started? with
  | some moment => now - moment
  | none => 0

def refresh (timer : Timer) (now : Nat) (memory : Memory) : Except Fault Memory := do
  let base ← timer.base
  memory.write 8 (base + lowOffset) (BitVec.ofNat 64 (timer.elapsed now))

/-- The reads of the counter that are about to happen. -/
def watch (base : Word) : Watch := ⟨base + lowOffset, 8, .ofList [.preRead]⟩

/-- Puts the timer to use and tells what it wants to watch. -/
def start (timer : Timer) (now : Nat) : Except Fault (List Watch) × Timer :=
  match timer.base with
  | .error fault => (.error fault, timer)
  | .ok base => (.ok [watch base], { timer with fixed := true, started? := some now })

/-- Hears of an access: the counter is refreshed, as far as it can be, before it is read. -/
def hear (timer : Timer) (now : Nat) (memory : Memory) (touch : Touch) : Memory :=
  match touch.event with
  | .preRead =>
    match timer.refresh now memory with
    | .ok memory => memory
    | .error _ => memory
  | _ => memory

end Timer

end ArmBoard
