import ArmBoard.CommandLine.Request

/-!
# The command

Answers the requests of a call with the files and the clock of the computer
that it runs on.
-/
namespace ArmBoard.CommandLine

/-- Creates an empty file; the answer is the reason why it could not be. -/
def createFile (path : String) : IO (Option String) := do
  try
    IO.FS.writeFile path ""
    return none
  catch error =>
    return some (toString error)

/-- Reads all bytes of an open file. -/
def readRest (path : String) (handle : IO.FS.Handle) : IO (Except LoadFault (List Byte)) := do
  try
    let bytes ← handle.readBinToEnd
    return .ok (bytes.toList.map fun byte => byte.toBitVec)
  catch error =>
    return .error (.cannotRead path (toString error))

/-- Opens a program image; a file that opens may still fail to be read. -/
def readImageFile (path : String) : IO (Except LoadFault (List Byte)) := do
  match ← (IO.FS.Handle.mk path .read).toBaseIO with
  | .ok handle => readRest path handle
  | .error error => return .error (.cannotOpen path (toString error))

/-- Answers requests until the call is finished. -/
partial def answer : Request → IO Report
  | .finish report => return report
  | .createLog path next => do answer (next (← createFile path))
  | .readImage path next => do answer (next (← readImageFile path))
  | .clock next => do answer (next ((← IO.monoNanosNow) / 1000))

end ArmBoard.CommandLine

/-- Runs a program on a board and prints its final state. -/
def main (arguments : List String) : IO UInt32 := do
  let report ← ArmBoard.CommandLine.answer (ArmBoard.CommandLine.call arguments)
  IO.print report.output
  IO.eprint report.complaint
  return report.exitCode.toUInt32
