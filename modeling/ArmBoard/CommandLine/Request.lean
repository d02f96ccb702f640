import ArmBoard.CommandLine.Arguments
import ArmBoard.Machine.Board
import ArmBoard.Machine.Dump
import ArmBoard.Machine.Loader

/-!
# Running a program from the command line

A call is a sequence of requests to whoever has files and a clock, and ends
with a report: what is printed and the exit code. Everything between two
requests is decided here.
-/
namespace ArmBoard.CommandLine

/-- What a call leaves behind. -/
structure Report where
  exitCode : Nat
  output : String
  complaint : String
  deriving DecidableEq, Repr

/-- What a call wants next. -/
inductive Request where
  | finish (report : Report)
  /-- Creates an empty log file; the answer is the reason why it could not be. -/
  | createLog (path : String) (next : Option String → Request)
  /-- Reads a program image. -/
  | readImage (path : String) (next : Except LoadFault (List Byte) → Request)
  /-- Asks for the time in microseconds. -/
  | clock (next : Nat → Request)

def successCode : Nat := 0

/-- The exit code of a program that stopped with a fault, and of a log file that failed. -/
def failureCode : Nat := 1

def usageCode : Nat := 2

def unknownBoardCode : Nat := 3

/-- The exit code of a program image that could not be read. -/
def imageCode : Nat := 4

def versionText : String := "run 0.1.0\n"

def usageText : String :=
  "Usage: run [-l|--list] [--json] [--log-file <LOG_FILE>] <DEVICE> <PROGRAM> [MAX_CYCLES]\n"

def Halt.report : Halt → Report
  | usage => ⟨usageCode, "", usageText⟩
  | version => ⟨successCode, versionText, ""⟩
  | help => ⟨successCode, usageText, ""⟩

/-- The report of a run, with a dump in any case and the fault that ended it. -/
def runReport (json : Bool) (machine : Machine) (fault? : Option Fault) : Report :=
  let dump := if json then machine.dumpJson else machine.dumpText
  match fault? with
  | none => ⟨successCode, dump, ""⟩
  | some fault => ⟨failureCode, dump, "error: " ++ fault.message ++ "\n"⟩

/-- Runs a machine for a number of instructions, looking at the clock before each. -/
def runMachine (json : Bool) : Nat → Machine → Request
  | 0, machine => .finish (runReport json machine none)
  | count + 1, machine => .clock fun now =>
      -- The clock is what the timer of the board shows.
      match Machine.cycle.perform { machine with bus := { machine.bus with now } } with
      | (.ok (), machine) => runMachine json count machine
      | (.error fault, machine) => .finish (runReport json machine (some fault))

def runBoard (arguments : Arguments) (board : Board) (path : String) : Request :=
  .readImage path fun image =>
    match board.machine.loadImage image with
    | .error fault => .finish ⟨imageCode, "", fault.message ++ "\n"⟩
    | .ok (_, machine) =>
        runMachine arguments.json (arguments.maxCycles?.getD Machine.unlimited) machine

def unknownBoard (name : String) : Report :=
  ⟨unknownBoardCode, "",
    "unknown device '" ++ name ++ "', available: " ++ ", ".intercalate Board.names ++ "\n"⟩

def boardList : Report := ⟨successCode, String.join (Board.names.map (· ++ "\n")), ""⟩

/-- Lists the boards or runs a program, once the log file is open. -/
def proceed (arguments : Arguments) : Request :=
  if arguments.list then .finish boardList
  else
    match arguments.device?, arguments.program? with
    | some name, some path =>
      match Board.find? name with
      | some board => runBoard arguments board path
      | none => .finish (unknownBoard name)
    | _, _ => .finish Halt.usage.report

def call (texts : List String) : Request :=
  match Arguments.parse texts with
  | .error halt => .finish halt.report
  | .ok arguments =>
    match arguments.logFile? with
    | none => proceed arguments
    | some path => .createLog path fun
        | none => proceed arguments
        | some reason => .finish ⟨failureCode, "", "cannot open the log file: " ++ reason ++ "\n"⟩

end ArmBoard.CommandLine
