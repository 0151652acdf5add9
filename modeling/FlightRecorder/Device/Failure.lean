import FlightRecorder.Storage
import FlightRecorder.Text.Quoted
import FlightRecorder.Wire.Fault
import FlightRecorder.Wire.MessageType
import FlightRecorder.Flight.Date
import FlightRecorder.Flight.Time

/-!
# Failures of an operation

Why an operation on a device did not succeed: what went wrong on the link or in the tree of files,
what the device answered, or that nobody wanted the result any more.
-/

namespace FlightRecorder

/-- What can go wrong outside the device. -/
inductive SystemFault
  /-- The link failed. -/
  | link
  /-- The link took no bytes. -/
  | writeZero
  | storage (fault : StorageFault)
  deriving DecidableEq, Repr

/-- The words that report it. -/
def SystemFault.message : SystemFault → String
  | .link => "link failure"
  | .writeZero => "write zero"
  | .storage fault => fault.message

/-- Why an operation failed. -/
inductive Failure
  | system (fault : SystemFault)
  | timeout
  /-- The device closed the link. -/
  | closed
  | cancelled
  /-- An answer of a type that does not answer the request. -/
  | unexpectedResponse (type : MessageType)
  /-- A text that describes no flight. -/
  | invalidInfo (text : String)
  /-- An answer that is too short. -/
  | insufficientData (expected actual : Nat)
  /-- Bytes that are no frame. -/
  | malformedFrame (fault : FrameFault)
  deriving DecidableEq, Repr

namespace Failure

/-- What is said of every wait that ended without an answer. -/
def elapsed : String := "deadline has elapsed"

/-- The sentence that reports a failure. -/
def message : Failure → String
  | system fault => "I/O error: " ++ fault.message
  | timeout => "Timeout waiting for the device: " ++ elapsed
  | closed => "Serial link closed by the device"
  | cancelled => "Operation cancelled"
  | unexpectedResponse type => "Unexpected response: " ++ type.caption
  | invalidInfo text => "Invalid record info: " ++ text
  | insufficientData expected actual =>
    s!"Insufficient data: expected at least {expected} bytes, got {actual}"
  | malformedFrame fault => "Malformed frame: " ++ fault.message

/-- The reports that a failure goes back to, nearest first. -/
def causes : Failure → List String
  | system fault => [fault.message]
  | timeout => [elapsed]
  | _ => []

/-- Whether a wait ended without an answer. -/
def isTimeout : Failure → Bool
  | timeout => true
  | _ => false

end Failure

/-- Reads a date, or quotes the text that is none. -/
def Date.read (text : String) : Except Failure Date :=
  match Date.parse? text.toList with
  | some date => .ok date
  | none => .error (.invalidInfo ("bad date " ++ quoted text))

/-- Reads a time, or quotes the text that is none. -/
def Time.read (text : String) : Except Failure Time :=
  match Time.parse? text.toList with
  | some time => .ok time
  | none => .error (.invalidInfo ("bad time " ++ quoted text))

end FlightRecorder
