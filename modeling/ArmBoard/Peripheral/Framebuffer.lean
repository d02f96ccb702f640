import ArmBoard.Memory.Paged
import ArmBoard.Render.Image

/-!
# Framebuffers

A framebuffer is described by ten words in a row. A program fills in what it
wishes for and the graphics unit answers with the pitch, the size and the
place, just below a fixed limit. Addresses within a framebuffer wrap like
those of the processor, for the offsets come from the program.
-/
namespace ArmBoard

/-- The ten words of a descriptor in their order. -/
structure Framebuffer where
  physicalWidth : Word
  physicalHeight : Word
  virtualWidth : Word
  virtualHeight : Word
  pitch : Word
  depth : Word
  xOffset : Word
  yOffset : Word
  pointer : Word
  size : Word
  deriving DecidableEq, Repr

namespace Framebuffer

def wordCount : Nat := 10

def words (frame : Framebuffer) : List Word :=
  [frame.physicalWidth, frame.physicalHeight, frame.virtualWidth, frame.virtualHeight,
    frame.pitch, frame.depth, frame.xOffset, frame.yOffset, frame.pointer, frame.size]

def wordAddress (address : Word) (index : Nat) : Word := address + BitVec.ofNat 32 (4 * index)

def read (memory : Memory) (address : Word) : Except Fault Framebuffer := do
  let physicalWidth ← memory.readWord (wordAddress address 0)
  let physicalHeight ← memory.readWord (wordAddress address 1)
  let virtualWidth ← memory.readWord (wordAddress address 2)
  let virtualHeight ← memory.readWord (wordAddress address 3)
  let pitch ← memory.readWord (wordAddress address 4)
  let depth ← memory.readWord (wordAddress address 5)
  let xOffset ← memory.readWord (wordAddress address 6)
  let yOffset ← memory.readWord (wordAddress address 7)
  let pointer ← memory.readWord (wordAddress address 8)
  let size ← memory.readWord (wordAddress address 9)
  return { physicalWidth, physicalHeight, virtualWidth, virtualHeight, pitch, depth, xOffset,
           yOffset, pointer, size }

/-- Stores words one after the other, the first at the address of the given index. -/
def writeWords (memory : Memory) (address : Word) : Nat → List Word → Except Fault Memory
  | _, [] => .ok memory
  | index, word :: rest => do
      let memory ← memory.writeWord (wordAddress address index) word
      writeWords memory address (index + 1) rest

def write (frame : Framebuffer) (memory : Memory) (address : Word) : Except Fault Memory :=
  writeWords memory address 0 frame.words

/--
Answers a request: the pitch is the virtual width in whole bytes, the size covers the virtual
height, and the framebuffer ends at the limit. All three must fit a word.
-/
def allocate (request : Framebuffer) (limit : Word) : Except Fault Framebuffer :=
  let pitch := request.virtualWidth.toNat * ((request.depth.toNat + 7) / 8)
  let size := pitch * request.virtualHeight.toNat
  if 0x100000000 ≤ pitch then .error (.misuse .pitchOverflow)
  else if 0x100000000 ≤ size then .error (.misuse .framebufferOverflow)
  else if limit.toNat < size then
    .error (.misuse (.framebufferRoom (BitVec.ofNat 32 size) limit))
  else
    .ok { request with
      pitch := BitVec.ofNat 32 pitch
      size := BitVec.ofNat 32 size
      pointer := limit - BitVec.ofNat 32 size }

/-- The address of the first byte of a pixel, around the end of the address space if need be. -/
def pixelAddress (frame : Framebuffer) (x y : Nat) : Word :=
  frame.pointer + (BitVec.ofNat 32 y + frame.yOffset) * frame.pitch +
    (BitVec.ofNat 32 x + frame.xOffset) * 2

def pixel (frame : Framebuffer) (memory : Memory) (x y : Nat) : Except Fault Color := do
  let high ← memory.read 1 (frame.pixelAddress x y)
  let low ← memory.read 1 (frame.pixelAddress x y + 1)
  return .ofBytes high low

/-- Draws `remaining` pixels of a line from column `x` on, up to the first that cannot be read. -/
def drawLine (frame : Framebuffer) (memory : Memory) (y : Nat) :
    Nat → Nat → Image → Except Fault Unit × Image
  | 0, _, image => (.ok (), image)
  | remaining + 1, x, image =>
      match frame.pixel memory x y with
      | .error fault => (.error fault, image)
      | .ok color => drawLine frame memory y remaining (x + 1) (image.set x y color)

/-- Draws `remaining` lines from line `y` on, up to the first pixel that cannot be read. -/
def drawLines (frame : Framebuffer) (memory : Memory) :
    Nat → Nat → Image → Except Fault Unit × Image
  | 0, _, image => (.ok (), image)
  | remaining + 1, y, image =>
      match drawLine frame memory y frame.physicalWidth.toNat 0 image with
      | (.error fault, image) => (.error fault, image)
      | (.ok (), image) => drawLines frame memory remaining (y + 1) image

/-- Draws the framebuffer on an image. Only pixels of sixteen bits are understood. -/
def draw (frame : Framebuffer) (memory : Memory) (image : Image) : Except Fault Unit × Image :=
  if frame.depth = 16 then drawLines frame memory frame.physicalHeight.toNat 0 image
  else (.error (.unhandled .framebufferDepth frame.depth), image)

end Framebuffer

end ArmBoard
