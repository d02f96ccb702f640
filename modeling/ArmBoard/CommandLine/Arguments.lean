/-!
# Command-line arguments

Options may stand anywhere among the three positional arguments: the board,
the program image and the greatest number of instructions. A lone `--` ends
the options. Arguments are looked at from left to right and the first one that
settles the matter wins, be it an error or a request for the version.
-/
namespace ArmBoard.CommandLine

/-- The arguments of a call. -/
structure Arguments where
  list : Bool
  json : Bool
  logFile? : Option String
  device? : Option String
  program? : Option String
  maxCycles? : Option Nat
  deriving DecidableEq, Repr

def Arguments.none : Arguments := ⟨false, false, .none, .none, .none, .none⟩

/-- Why there is nothing to run. -/
inductive Halt where
  /-- The arguments make no sense. -/
  | usage
  /-- The version is asked for. -/
  | version
  /-- Help is asked for. -/
  | help
  deriving DecidableEq, Repr

def isDigit (c : Char) : Bool := '0' ≤ c && c ≤ '9'

/-- A number of at most sixty-four bits in decimal digits, with or without a plus sign. -/
def parseCount? (text : String) : Option Nat :=
  let digits := match text.toList with
    | '+' :: rest => rest
    | all => all
  if digits.isEmpty || !digits.all isDigit then .none
  else
    let value := digits.foldl (fun sum c => sum * 10 + (c.toNat - '0'.toNat)) 0
    if value < 0x10000000000000000 then some value else .none

namespace Arguments

/-- Asks for the list of boards, which can be done once. -/
def setList (arguments : Arguments) : Except Halt Arguments :=
  if arguments.list then .error .usage else .ok { arguments with list := true }

/-- Asks for JSON, which can be done once. -/
def setJson (arguments : Arguments) : Except Halt Arguments :=
  if arguments.json then .error .usage else .ok { arguments with json := true }

/-- Names the log file, which can be done once; its name may not be empty. -/
def setLogFile (arguments : Arguments) (path : String) : Except Halt Arguments :=
  if arguments.logFile?.isSome || path.isEmpty then .error .usage
  else .ok { arguments with logFile? := some path }

def addPositional (arguments : Arguments) (text : String) : Except Halt Arguments :=
  match arguments.device?, arguments.program?, arguments.maxCycles? with
  | .none, _, _ => .ok { arguments with device? := some text }
  | some _, .none, _ =>
      if text.isEmpty then .error .usage else .ok { arguments with program? := some text }
  | some _, some _, .none =>
      match parseCount? text with
      | some count => .ok { arguments with maxCycles? := some count }
      | .none => .error .usage
  | some _, some _, some _ => .error .usage

/-- Takes the letters of short options that stand together. -/
def addLetters (arguments : Arguments) : List Char → Except Halt Arguments
  | [] => .ok arguments
  | 'l' :: rest => do (← arguments.setList).addLetters rest
  | 'V' :: _ => .error .version
  | 'h' :: _ => .error .help
  | _ :: _ => .error .usage

/-- Takes a long option that has no value. -/
def addLong (arguments : Arguments) (name : String) : Except Halt Arguments :=
  match name with
  | "list" => arguments.setList
  | "json" => arguments.setJson
  | "version" => .error .version
  | "help" => .error .help
  | _ => .error .usage

/-- Takes a long option with a value after an equals sign; only the log file has one. -/
def addValued (arguments : Arguments) (name value : String) : Except Halt Arguments :=
  if name = "log-file" then arguments.setLogFile value else .error .usage

/-- Positional arguments only. -/
def addAll (arguments : Arguments) : List String → Except Halt Arguments
  | [] => .ok arguments
  | text :: rest => do (← arguments.addPositional text).addAll rest

inductive Shape where
  | endOfOptions
  | long (name : String)
  | valued (name value : String)
  | letters (letters : List Char)
  | positional

/-- Tells options from positional arguments; a single dash is positional. -/
def shapeOf (text : String) : Shape :=
  match text.toList with
  | ['-', '-'] => .endOfOptions
  | '-' :: '-' :: name =>
      match name.span (· ≠ '=') with
      | (name, '=' :: value) => .valued (String.ofList name) (String.ofList value)
      | (name, _) => .long (String.ofList name)
  | '-' :: first :: rest => .letters (first :: rest)
  | _ => .positional

def scan (arguments : Arguments) : List String → Except Halt Arguments
  | [] => .ok arguments
  | text :: rest =>
    match shapeOf text with
    | .endOfOptions => arguments.addAll rest
    | .valued name value => do (← arguments.addValued name value).scan rest
    | .letters letters => do (← arguments.addLetters letters).scan rest
    | .positional => do (← arguments.addPositional text).scan rest
    | .long "log-file" =>
      match rest with
      | [] => .error .usage
      | value :: rest =>
        -- An option in the place of the file name is not taken for one.
        match shapeOf value with
        | .positional => do (← arguments.setLogFile value).scan rest
        | _ => .error .usage
    | .long name => do (← arguments.addLong name).scan rest

/-- Unless boards are listed, a board and a program are needed. -/
def complete (arguments : Arguments) : Except Halt Arguments :=
  if arguments.list || (arguments.device?.isSome && arguments.program?.isSome) then .ok arguments
  else .error .usage

/-- The arguments of a call. -/
def parse (texts : List String) : Except Halt Arguments := do
  (← Arguments.none.scan texts).complete

end Arguments

end ArmBoard.CommandLine
