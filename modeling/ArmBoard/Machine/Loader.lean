import ArmBoard.Machine.Pipeline

/-!
# Program images

A program image is a flat file: its bytes are copied to address zero, as many
as there is memory for. Reading the file is left to whoever has files; here is
what can go wrong with it and what becomes of the bytes.
-/
namespace ArmBoard

inductive LoadFault where
  | cannotOpen (path reason : String)
  | cannotRead (path reason : String)
  deriving DecidableEq, Repr

def LoadFault.message : LoadFault → String
  | cannotOpen path reason => "cannot open " ++ path ++ ": " ++ reason
  | cannotRead path reason => "cannot read " ++ path ++ ": " ++ reason

namespace Machine

/-- Loads the image that was read, if it could be. Tells how many bytes fit. -/
def loadImage (image : Except LoadFault (List Byte)) (machine : Machine) :
    Except LoadFault (Nat × Machine) :=
  image.map fun program => machine.loadProgram program

end Machine

end ArmBoard
