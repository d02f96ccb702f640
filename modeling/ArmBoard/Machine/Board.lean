import ArmBoard.Machine.Pipeline

/-!
# Boards

The boards differ in where their peripherals lie. A board carries a machine
with the whole address space, a graphics unit and a timer.
-/
namespace ArmBoard

/-- What differs from board to board. -/
structure Board where
  name : String
  gpioBase : Word
  gpioPinCount : Nat
  mailboxBase : Word
  timerBase : Word
  framebufferEnd : Word
  deriving DecidableEq, Repr

namespace Board

def pi : Board where
  name := "pi"
  gpioBase := 0x20200000
  gpioPinCount := 54
  mailboxBase := 0x2000B880
  timerBase := 0x20003000
  framebufferEnd := 0x20000000

def pi2 : Board where
  name := "pi2"
  gpioBase := 0x3F200000
  gpioPinCount := 54
  mailboxBase := 0x3F00B880
  timerBase := 0x3F003000
  framebufferEnd := 0x3C000000

/-- The third board, which is laid out like the second. -/
def pi3 : Board := { pi2 with name := "pi3" }

def all : List Board := [pi, pi2, pi3]

def names : List String := all.map (·.name)

def find? (name : String) : Option Board := all.find? (·.name == name)

def gpuHandle : Handle := 0

def timerHandle : Handle := 1

/-- A machine with the board's peripherals attached, the graphics unit first. -/
def machine (board : Board) : Machine :=
  let bare := Machine.ofMemory .standard
  let (gpu, bus) :=
    bare.bus.addWatcher (.gpu (.create (some board.mailboxBase) (some board.framebufferEnd)))
  let (timer, bus) := bus.addWatcher (.timer (.create (some board.timerBase)))
  ({ bare with bus }.attach gpu).attach timer

end Board

namespace Machine

/-- Draws the framebuffer of a graphics unit on an image. -/
def draw (machine : Machine) (holder : Handle) (image : Image) : Except Fault Unit × Image :=
  match machine.bus.watchers[holder]? with
  | some (.gpu gpu) => gpu.draw machine.bus.memory image
  | _ => (.ok (), image)

end Machine

end ArmBoard
