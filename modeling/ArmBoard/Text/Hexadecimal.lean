import ArmBoard.Word

/-!
# Hexadecimal text

Lower-case digits without a leading mark. Addresses and opcodes in messages
have eight digits; sizes have as many as they need.
-/
namespace ArmBoard.Text

/-- The digits of `n`, without leading zeros; zero is `0`. -/
def hexDigits (n : Nat) : String := String.ofList (Nat.toDigits 16 n)

/-- The digits of `n`, filled up with zeros on the left to at least `width` digits. -/
def hexPadded (width n : Nat) : String :=
  let digits := Nat.toDigits 16 n
  String.ofList (List.replicate (width - digits.length) '0' ++ digits)

def hex (n : Nat) : String := "0x" ++ hexDigits n

/-- A word with the mark `0x` and all its eight digits. -/
def hexWord (x : Word) : String := "0x" ++ hexPadded 8 x.toNat

def hexByte (x : Byte) : String := hexPadded 2 x.toNat

/-- A row of bytes, two digits each and nothing between them. -/
def hexBytes (bytes : List Byte) : String := String.join (bytes.map hexByte)

def hexDigit? (c : Char) : Option Nat :=
  if '0' ≤ c && c ≤ '9' then some (c.toNat - '0'.toNat)
  else if 'a' ≤ c && c ≤ 'f' then some (c.toNat - 'a'.toNat + 10)
  else if 'A' ≤ c && c ≤ 'F' then some (c.toNat - 'A'.toNat + 10)
  else none

def parseHexPairs? : List Char → Option (List Byte)
  | [] => some []
  | high :: low :: rest => do
      let high ← hexDigit? high
      let low ← hexDigit? low
      let bytes ← parseHexPairs? rest
      return BitVec.ofNat 8 (16 * high + low) :: bytes
  | [_] => none

/-- The bytes that a text of two digits each stands for. -/
def parseHexBytes? (text : String) : Option (List Byte) := parseHexPairs? text.toList

end ArmBoard.Text
