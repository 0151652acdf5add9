import FlightRecorder.CommandLine.Reading
import FlightRecorder.Device.Settings

/-!
# What a command line asks for

`Arguments.parse` reads the words behind the program's name. The words of the command are checked
before those of the program, and the program's checks come in a fixed order: a command, no two
options that exclude each other, the serial port.
-/

namespace FlightRecorder

/-- How much is logged. -/
inductive LogLevel
  | off
  | error
  | warn
  | info
  | debug
  | trace
  deriving DecidableEq, Repr

/-- The levels, from nothing to everything. -/
def LogLevel.all : List LogLevel := [.off, .error, .warn, .info, .debug, .trace]

/-- Place of the level for which no other is asked. -/
def defaultLogLevel : Nat := 3

/-- The level that is so many steps above the default and so many below. -/
def LogLevel.ofCounts (more less : Nat) : LogLevel :=
  LogLevel.all.getD (min (defaultLogLevel + more - less) 5) .trace

/-- What the program is asked to do. -/
inductive Command
  | ping
  | list (json : Bool)
  | info (index : UInt8)
  | download (index : UInt8) (output : Option String)
  | exit
  deriving DecidableEq, Repr

/-- A command line that can be carried out. -/
structure Arguments where
  port : String
  baud : Nat
  controlTimeout : Nat
  dataTimeout : Nat
  logFile : Option String
  level : LogLevel
  command : Command
  deriving DecidableEq, Repr

/-- Baud rate for which no other is asked. -/
def defaultBaud : Nat := 57600

namespace Arguments

/-- The most often that an option is counted. -/
def maxCount : Nat := 255

/-- The number given for an option. -/
def number? (r : Reading) (key : OptionKey) : Option Nat := do
  key.number? (← r.value? key)

/-- The command with its options and operands. -/
def commandOf (name : CommandName) (r : Reading) : Command :=
  let index := UInt8.ofNat ((number? r .index).getD 0)
  match name with
  | .ping => .ping
  | .list => .list (r.count .json ≠ 0)
  | .info => .info index
  | .download => .download index (r.value? .output)
  | .exit => .exit

/-- How often an option that both levels have was given: the command's level goes before. -/
def innermostCount (program command : Reading) (key : OptionKey) : Nat :=
  min (if command.count key ≠ 0 then command.count key else program.count key) maxCount

/-- What is asked for when both levels have been read. -/
def ofReadings (name : CommandName) (program command : Reading) : Arguments where
  port := (program.value? .port).getD ""
  baud := (number? program .baud).getD defaultBaud
  controlTimeout := (number? program .controlTimeout).getD defaultControlTimeout
  dataTimeout := (number? program .dataTimeout).getD defaultDataTimeout
  logFile := program.value? .logFile
  level := .ofCounts (innermostCount program command .verbose)
    (innermostCount program command .quiet)
  command := commandOf name command

/-- The fault of a program without a command: nothing at all was given, or no command. -/
def withoutCommand (program : Reading) : UsageFault :=
  match program.settle with
  | .error fault => fault
  | .ok program => if program.given = [] then .displayHelpOnMissing else .missingSubcommand

/-- The answer to a request for help: the words behind it have to be commands of one another. -/
def helpFor : List String → UsageFault
  | [] => .displayHelp
  | [word] => if Level.program.isCommandWord word then .displayHelp else .invalidSubcommand
  | _ => .invalidSubcommand

/-- Reads the words behind the program's name. -/
def parse (words : List String) : Except UsageFault Arguments := do
  let (program, rest) ← (Reading.start .program).words false words
  match rest with
  | [] => throw (withoutCommand program)
  | word :: rest =>
    match CommandName.ofWord? word with
    | none => throw (helpFor rest)
    | some name =>
      let (command, _) ← (Reading.start (.command name)).words false rest
      -- What is wrong behind the command is reported before what is wrong in front of it.
      let command ← command.finish
      let program ← program.finish
      pure (ofReadings name program command)

end Arguments

end FlightRecorder
