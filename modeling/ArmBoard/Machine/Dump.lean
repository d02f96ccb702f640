import ArmBoard.Machine.Pipeline

/-!
# Register dumps

The final state of a machine as text: one line for the instruction count and
one for each register, or a single line of JSON with the status as well.
-/
namespace ArmBoard.Machine

open Text

/-- The contents of all registers together with their names, in order. -/
def namedRegisters (machine : Machine) : List (List String × Word) :=
  (List.finRange 16).map fun number =>
    (Registers.names number, machine.cpu.registers.get number)

def dumpText (machine : Machine) : String :=
  "cycles=" ++ toString machine.cycles ++ "\n" ++
    String.join (machine.namedRegisters.map fun (names, value) =>
      ",".intercalate names ++ "=" ++ hexWord value ++ "\n")

/-- Text between quotation marks; register names have nothing to escape. -/
def quoted (text : String) : String := "\"" ++ text ++ "\""

def registerJson (names : List String) (value : Word) : String :=
  "\x7b\"names\":[" ++ ",".intercalate (names.map quoted) ++ "],\"value\":" ++
    toString value.toNat ++ "\x7d"

def dumpJson (machine : Machine) : String :=
  "\x7b\"cycles\":" ++ toString machine.cycles ++ ",\"registers\":[" ++
    ",".intercalate (machine.namedRegisters.map fun (names, value) => registerJson names value) ++
    "],\"cpsr\":" ++ toString machine.cpu.status.bits.toNat ++ "\x7d\n"

end ArmBoard.Machine
