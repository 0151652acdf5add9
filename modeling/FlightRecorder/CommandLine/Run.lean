import FlightRecorder.CommandLine.Arguments
import FlightRecorder.CommandLine.Report
import FlightRecorder.Device.Download
import FlightRecorder.Device.Listing
import FlightRecorder.Flight.Json

/-!
# Running a command

What the program does once it knows what is asked for: it opens the serial port, talks to the device
and prints the result. A command prints only when it has succeeded.

* `describeRecord` — one record, as the commands for a single record see it
* `Command.run` — a command on an open serial port
* `Program.run` — the whole program behind its command line, the log file included
-/

namespace FlightRecorder

/-! ## Commands -/

/-- How a command ends: the lines it prints, or what went wrong. -/
abbrev CommandResult := Except Report (List String)

/-- Selects a record and reads its description. -/
def describeRecord (index : UInt8) (s : Session) : Except Report Flight × Session :=
  match (selectRecord index).perform s with
  | (.error failure, s') => (.error (.ofFailure failure), s')
  | (.ok type, s') =>
    if type = .ack then
      match (readInfo index).perform s' with
      | (.error failure, s'') =>
        (.error ((Report.ofFailure failure).within
          s!"Failed to read info of record #{index.toNat}"), s'')
      | (.ok flight, s'') => (.ok flight, s'')
    else if type = .nack then
      (.error (.ofSentence s!"No record #{index.toNat} on the device"), s')
    else (.error (.ofSentence ("Unexpected answer to record selection: " ++ type.mnemonic)), s')

/-- The lines that show a list of flights. -/
def FlightList.lines (l : FlightList) (json : Bool) : List String :=
  if json then [flightsToJson (.indented 0) l.flights]
  else if l.isEmpty then ["No flights stored on the device"]
  else l.flights.map Flight.display

/-- The result of an action, reported as part of what was being done. -/
def Action.reporting {α : Type} (action : Action α) (sentence : String) (s : Session) :
    Except Report α × Session :=
  match action.perform s with
  | (.error failure, s') => (.error ((Report.ofFailure failure).within sentence), s')
  | (.ok a, s') => (.ok a, s')

/-- Runs a command on an open serial port. -/
def Command.run (command : Command) (s : Session) : CommandResult × Session :=
  match command with
  | .ping =>
    match FlightRecorder.ping.reporting "Device did not answer the ping" s with
    | (.error report, s') => (.error report, s')
    | (.ok (), s') => (.ok ["FLARM is answering"], s')
  | .list json =>
    match listRecords s.newList s with
    | (.error failure, _, s') =>
      (.error ((Report.ofFailure failure).within "Failed to read the flight list"), s')
    | (.ok (), found, s') => (.ok (found.lines json), s')
  | .info index =>
    match describeRecord index s with
    | (.error report, s') => (.error report, s')
    | (.ok flight, s') => (.ok [flight.display], s')
  | .download index output =>
    match describeRecord index s with
    | (.error report, s') => (.error report, s')
    | (.ok flight, s') =>
      let path := output.getD flight.defaultFileName
      match (FlightRecorder.download flight path).reporting
          s!"Failed to download record #{index.toNat}" s' with
      | (.error report, s'') => (.error report, s'')
      | (.ok (), s'') => (.ok ["Saved " ++ path], s'')
  | .exit =>
    match exitBinaryMode.perform s with
    | (.error failure, s') => (.error (.ofFailure failure), s')
    | (.ok (), s') => (.ok [], s')

/-! ## The program -/

namespace Program

/-- The settings that a command line asks for. -/
def settings (arguments : Arguments) : Settings :=
  { Settings.standard with
    controlTimeout := arguments.controlTimeout
    dataTimeout := arguments.dataTimeout }

/-- Runs the command of a command line. The serial port is open unless there is a reason why it is
not. -/
def run (arguments : Arguments) (closed : Option String) (s : Session) :
    CommandResult × Session :=
  match closed with
  | some reason =>
    let report := Report.ofSentence reason
    (.error (report.within ("Failed to open serial port " ++ arguments.port)), s)
  | none => arguments.command.run { s with settings := settings arguments }

/-- The names on the way to a log file and its own name, if the path has one at its end. -/
def logNames? (path : String) : Option (List String × String) :=
  let names := (namesOf path).filter fun name => name ≠ "" ∧ name ≠ "."
  match names.getLast? with
  | none => none
  | some name => if name = ".." then none else some (names.dropLast, name)

/-- Opens the log file, if one is asked for. The directories on the way to it are created. -/
def openLog (storage : Storage) : Option String → Except Report Storage
  | none => .ok storage
  | some path =>
    match logNames? path with
    | none => .error (.ofSentence "Log file path has no file name")
    | some (directories, name) =>
      let start := if path.startsWith "/" then "/" else ""
      let opened := do
        let storage ← storage.createDirectories (storage.origin path) directories
        storage.openLog (start ++ "/".intercalate (directories ++ [name]))
      opened.mapError fun fault =>
        (Report.ofSentence fault.message).within "Failed to create log file"

/-- How the program ends. -/
structure Exit where
  code : Nat
  output : String
  /-- What is written on the error channel; a text about the usage is not part of it. -/
  errors : Option String
  deriving DecidableEq, Repr

/-- The lines of a text. -/
def printed (lines : List String) : String := String.join (lines.map (· ++ "\n"))

/-- The exit of a command line that is not carried out: help and version are no errors. -/
def usageExit (fault : UsageFault) : Exit where
  code := if fault = .displayHelp ∨ fault = .displayVersion then 0 else 2
  output := ""
  errors := none

/-- The exit of a command that has ended. -/
def exitOf : CommandResult → Exit
  | .ok lines => { code := 0, output := printed lines, errors := some "" }
  | .error report => { code := 1, output := "", errors := some report.render }

/-- The whole program: its exit and the session behind it. -/
def execute (words : List String) (closed : Option String) (s : Session) : Exit × Session :=
  match Arguments.parse words with
  | .error fault => (usageExit fault, s)
  | .ok arguments =>
    match openLog s.storage arguments.logFile with
    | .error report => (exitOf (.error report), s)
    | .ok storage =>
      let (result, s') := run arguments closed { s with storage := storage }
      (exitOf result, s')

end Program

end FlightRecorder
