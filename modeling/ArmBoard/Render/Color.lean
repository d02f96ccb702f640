import ArmBoard.Text.Hexadecimal

/-!
# Colors

Eight bits for each of red, green and blue. A pixel of sixteen bits gives five
bits to red and blue and six to green; each channel is stretched so that its
greatest value becomes 255.
-/
namespace ArmBoard

structure Color where
  red : Byte
  green : Byte
  blue : Byte
  deriving DecidableEq, Repr

namespace Color

def black : Color := ⟨0, 0, 0⟩

def pureRed : Color := ⟨255, 0, 0⟩

def pureGreen : Color := ⟨0, 255, 0⟩

def pureBlue : Color := ⟨0, 0, 255⟩

def white : Color := ⟨255, 255, 255⟩

/-- Stretches a channel whose greatest value is `top`, rounding down. -/
def stretch (value top : Nat) : Byte := BitVec.ofNat 8 (value * 255 / top)

def ofPixel (pixel : Half) : Color where
  red := stretch (Bits.field pixel 11 15) 31
  green := stretch (Bits.field pixel 5 10) 63
  blue := stretch (Bits.field pixel 0 4) 31

/-- The color of a pixel stored as two bytes, the high half first. -/
def ofBytes (high low : Byte) : Color :=
  ofPixel ((high.setWidth 16 <<< 8) ||| low.setWidth 16)

/-- The three channels as decimal numbers between parentheses. -/
def text (color : Color) : String :=
  "(" ++ toString color.red.toNat ++ "," ++ toString color.green.toNat ++ "," ++
    toString color.blue.toNat ++ ")"

def hexText (color : Color) : String := Text.hexBytes [color.red, color.green, color.blue]

end Color

end ArmBoard
