import ArmBoard.Bus.Subscription
import ArmBoard.Peripheral.Framebuffer

/-!
# The graphics unit and its mailbox

A program talks to the graphics unit through a block of registers in memory.
It posts a mail, an address with a channel in its low four bits, by writing
the write register; the unit answers in the read register. The status
register tells whether there is something to read and whether a mail would be
accepted. A mail written while none is accepted is lost.
-/
namespace ArmBoard

structure Gpu where
  /-- Where the registers lie. -/
  mailboxBase? : Option Word
  /-- Where every framebuffer ends. -/
  framebufferEnd? : Option Word
  /-- The two addresses can no longer change. -/
  fixed : Bool
  /-- There is an answer to read. -/
  readReady : Bool
  /-- A mail would be accepted. -/
  writeReady : Bool
  /-- The mail that waits for the next step. -/
  pending? : Option Word
  /-- The last framebuffer that was agreed on. -/
  framebuffer? : Option Framebuffer
  deriving DecidableEq, Repr

namespace Gpu

def readOffset : Word := 0x00

/-- Offset of the register that shows an answer without taking it. -/
def pollOffset : Word := 0x10

def senderOffset : Word := 0x14

def statusOffset : Word := 0x18

def configOffset : Word := 0x1C

def writeOffset : Word := 0x20

def blockSize : Word := 0x24

/-- The status bit that is set while there is nothing to read. -/
def emptyBit : Nat := 30

/-- The status bit that is set while no mail is accepted. -/
def fullBit : Nat := 31

def create (mailboxBase? framebufferEnd? : Option Word) : Gpu where
  mailboxBase? := mailboxBase?
  framebufferEnd? := framebufferEnd?
  fixed := false
  readReady := false
  writeReady := false
  pending? := none
  framebuffer? := none

/-- Moves the block of registers, as long as the unit is unused. -/
def setMailboxBase (gpu : Gpu) (address : Word) : Except Fault Gpu :=
  if gpu.fixed then .error (.misuse .mailboxBaseFixed)
  else .ok { gpu with mailboxBase? := some address }

/-- Moves the end of framebuffers, as long as the unit is unused. -/
def setFramebufferEnd (gpu : Gpu) (address : Word) : Except Fault Gpu :=
  if gpu.fixed then .error (.misuse .framebufferEndFixed)
  else .ok { gpu with framebufferEnd? := some address }

/-- The block of registers, which must have been placed. -/
def mailboxBase (gpu : Gpu) : Except Fault Word :=
  match gpu.mailboxBase? with
  | some base => .ok base
  | none => .error (.misuse .mailboxBaseMissing)

/-- The end of framebuffers, which must have been placed. -/
def framebufferEnd (gpu : Gpu) : Except Fault Word :=
  match gpu.framebufferEnd? with
  | some limit => .ok limit
  | none => .error (.misuse .framebufferEndMissing)

def statusWord (gpu : Gpu) : Word :=
  Bits.put (Bits.put 0 emptyBit (!gpu.readReady)) fullBit (!gpu.writeReady)

def publishStatus (gpu : Gpu) (memory : Memory) : Except Fault Memory := do
  let base ← gpu.mailboxBase
  memory.writeWord (base + statusOffset) gpu.statusWord

/-- The reads and writes of the block of registers. -/
def watch (base : Word) : Watch := ⟨base, blockSize, .ofList [.read, .write]⟩

/--
Puts the unit to use and tells what it wants to watch. Both addresses must have been placed; from
the moment that they are found they are fixed, even if the status register cannot be written.
-/
def start (gpu : Gpu) (memory : Memory) : Except Fault (List Watch) × Gpu × Memory :=
  match gpu.mailboxBase, gpu.framebufferEnd with
  | .error fault, _ => (.error fault, gpu, memory)
  | .ok _, .error fault => (.error fault, gpu, memory)
  | .ok base, .ok _ =>
      let gpu := { gpu with fixed := true, writeReady := true, readReady := false }
      -- Too late to go back: a status register outside memory leaves the unit fixed.
      match gpu.publishStatus memory with
      | .error fault => (.error fault, gpu, memory)
      | .ok memory => (.ok [watch base], gpu, memory)

def channelOf (mail : Word) : Word := Bits.slice mail 0 3

def addressOf (mail : Word) : Word := mail &&& ~~~0xF

/-- Allocates the framebuffer that a mail asks for and writes its descriptor back. -/
def allocate (gpu : Gpu) (memory : Memory) (mail : Word) : Except Fault (Gpu × Memory) := do
  let limit ← gpu.framebufferEnd
  let request ← Framebuffer.read memory (addressOf mail)
  let frame ← request.allocate limit
  let memory ← frame.write memory (addressOf mail)
  return ({ gpu with framebuffer? := some frame }, memory)

/--
Hears of an access. A write that covers the write register latches the word found there, unless a
mail is already waiting; a read that covers the read register takes the answer. Either way the
status register is brought up to date, as far as it can be written.
-/
def hear (gpu : Gpu) (memory : Memory) (touch : Touch) : Gpu × Memory :=
  match gpu.mailboxBase? with
  | none => (gpu, memory)
  | some base =>
    let changed? : Option Gpu :=
      match touch.event with
      | .write =>
          if gpu.writeReady && touch.covers (base + writeOffset) then
            match memory.readWord (base + writeOffset) with
            | .ok mail => some { gpu with pending? := some mail, writeReady := false }
            | .error _ => none
          else none
      | .read =>
          if touch.covers (base + readOffset) then some { gpu with readReady := false } else none
      | .preRead => none
    match changed? with
    | none => (gpu, memory)
    | some gpu =>
      match gpu.publishStatus memory with
      | .ok memory => (gpu, memory)
      | .error _ => (gpu, memory)

/-- Draws the framebuffer on an image; without one the image stays as it is. -/
def draw (gpu : Gpu) (memory : Memory) (image : Image) : Except Fault Unit × Image :=
  match gpu.framebuffer? with
  | none => (.ok (), image)
  | some frame => frame.draw memory image

end Gpu

end ArmBoard
