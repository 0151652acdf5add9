import FlightRecorder.CommandLine.Run

/-!
# The program on a serial port

`Program.execute` decides everything. It is evaluated on what has arrived so far, as if nothing came
after that, and again whenever something has come. Its history up to the present moment does not
depend on what is still to come, so the bytes sent there are sent now; when its clock lies in the
past, its exit is the exit.

The line settings of the serial port are made before the program starts: its speed, and reads that
give up after a while (`VTIME` of a terminal line). A read that gives up at once shows the end of
the link.
-/

namespace FlightRecorder.Terminal

/-! ## Files -/

/-- The places on the way through these names. -/
def placesOn (start : Place) : List String → List Place
  | [] => [start]
  | name :: names =>
    if name = "" ∨ name = "." then placesOn start names
    else if name = ".." then start :: placesOn start.dropLast names
    else start :: placesOn (start ++ [name]) names

/-- The path of a place. -/
def pathOf (place : Place) : String := "/" ++ "/".intercalate place

/-- Whether there is something at a path. -/
def isThere (path : String) : IO Bool := do
  try
    let _ ← IO.FS.realPath path
    return true
  catch _ => return false

/-- What is at a place; the content of a file is not looked at. -/
def entryAt? (place : Place) : IO (Option Entry) := do
  if ← isThere (pathOf place ++ "/.") then return some .directory
  else if ← isThere (pathOf place) then return some (.file [])
  else return none

/-- The tree, as far as these paths lead. -/
def storageAround (paths : List String) : IO Storage := do
  let working := (namesOf (← IO.currentDir).toString).filter (· ≠ "")
  let empty : Storage := { entries := [], workingDirectory := working }
  let places := placesOn [] working ++
    paths.flatMap fun path => placesOn (empty.origin path) (namesOf path)
  places.foldlM (fun storage place => do
    match ← entryAt? place with
    | some entry => return storage.put place entry
    | none => return storage) empty

/-- The paths that a command line names. -/
def pathsOf (arguments : Arguments) : List String :=
  match arguments.command with
  | .download _ output => output.toList ++ arguments.logFile.toList
  | _ => arguments.logFile.toList

/-- Creates the log file, if one is asked for. -/
def createLog (path : String) : IO Unit := do
  match Program.logNames? path with
  | none => return
  | some (directories, name) =>
    let start := if path.startsWith "/" then "/" else "./"
    let directory := start ++ "/".intercalate directories
    IO.FS.createDirAll directory
    let _ ← IO.FS.Handle.mk (directory ++ "/" ++ name) .append

/-- Leaves the files on disk as they are behind a session. -/
def keepFiles (s : Session) : IO Unit :=
  s.history.forM fun
    | .created place =>
      match s.storage.get? place with
      | some (.file content) => IO.FS.writeBinFile (pathOf place) ⟨content.toArray⟩
      | _ => do
        if ← isThere (pathOf place) then IO.FS.removeFile (pathOf place)
    | _ => return

/-! ## The serial port -/

/-- The two sides of an open serial port. -/
structure SerialPort where
  input : IO.FS.Handle
  output : IO.FS.Handle

/-- Opens a serial port. -/
def SerialPort.ofPath (path : String) : IO SerialPort := do
  let input ← IO.FS.Handle.mk path .read
  let output ← IO.FS.Handle.mk path .append
  return { input := input, output := output }

/-- Reads up to the end of a frame, the next pause or the end of the link: the bytes, whether the
link goes on, and the state of the stream. -/
partial def listen (port : SerialPort) (state : DecoderState) (heard : Array UInt8) :
    IO (Array UInt8 × Bool × DecoderState) := do
  let earlier ← IO.monoMsNow
  -- One byte at a time: a read of more would wait for all of them.
  match (← port.input.read 1).toList with
  | [] => return (heard, earlier < (← IO.monoMsNow), state)
  | byte :: _ =>
    match state.step byte with
    | (state, some _) => return (heard.push byte, true, state)
    | (state, none) => listen port state (heard.push byte)

/-- Runs the command line on a serial port from the moment `now` on. Everything that arrived up to
then is among the arrivals; times are counted from `start`. -/
partial def converse (words : List String) (storage : Storage) (port : SerialPort)
    (start now : Nat) (arrivals : List Arrival) (written : Nat) (state : DecoderState) :
    IO (Program.Exit × Session) := do
  let (exit, s) :=
    Program.execute words none (.start .standard arrivals .unlimited storage)
  let sent := sentBytes (historyBefore (now + 1) s.history)
  port.output.write ⟨(sent.drop written).toArray⟩
  port.output.flush
  if s.clock ≤ now then return (exit, s)
  -- What comes now comes after every deadline up to `now`, so the history up to it stands.
  let (heard, goesOn, state) ← listen port state #[]
  let later := max (now + 1) ((← IO.monoMsNow) - start)
  let news := [.silentUntil later, .data heard.toList] ++ if goesOn then [] else [.hangup]
  converse words storage port start later (arrivals ++ news) sent.length state

/-! ## The whole -/

/-- What is said about the usage. -/
def usage : String :=
  "Usage: flight-recorder --port <PORT> [--baud <BAUD>] [--control-timeout-ms <MS>]\n" ++
  "         [--data-timeout-ms <MS>] [--log-file <PATH>] [-v...] [-q...] <COMMAND>\n" ++
  "Commands: ping | list [--json] | info <INDEX> | download <INDEX> [--output <PATH>] | exit"

/-- Carries out a command line: its exit. -/
def carryOut (words : List String) (arguments : Arguments) : IO Program.Exit := do
  let storage ← storageAround (pathsOf arguments)
  match Program.openLog storage arguments.logFile with
  | .error report => return Program.exitOf (.error report)
  | .ok _ =>
    arguments.logFile.forM createLog
    match ← (SerialPort.ofPath arguments.port).toBaseIO with
    | .error reason =>
      return (Program.execute words (some (toString reason))
        (.start .standard [] .unlimited storage)).1
    | .ok port =>
      let (exit, s) ← converse words storage port (← IO.monoMsNow) 0 [] 0 .idle
      keepFiles s
      return exit

/-- Runs the words behind the program's name: the exit code. -/
def run (words : List String) : IO UInt32 := do
  match Arguments.parse words with
  | .error fault =>
    let exit := Program.usageExit fault
    if exit.code = 0 then IO.println usage else IO.eprintln usage
    return exit.code.toUInt32
  | .ok arguments =>
    try
      let exit ← carryOut words arguments
      IO.print exit.output
      IO.eprint (exit.errors.getD "")
      return exit.code.toUInt32
    catch reason =>
      IO.eprintln ("Error: " ++ toString reason)
      return 1

end FlightRecorder.Terminal

/-- The program. -/
def main (words : List String) : IO UInt32 := FlightRecorder.Terminal.run words
