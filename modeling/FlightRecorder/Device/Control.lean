import FlightRecorder.Device.Exchange

/-!
# Control operations

The operations that take one request: asking whether the device is there, leaving its binary mode,
selecting a record and reading the description of the selected one.
-/

namespace FlightRecorder

/-- The action with a given result that leaves the session as it is. -/
def Action.ofResult {α : Type} (result : Except Failure α) : Action α :=
  Action.ofPerform fun s => (result, s)

/-- Asks whether the device is there. -/
def ping : Action Unit := do
  let reply ← exchange .ping [] (·.controlTimeout)
  if reply.type ≠ .ack then throw (.unexpectedResponse reply.type)

/-- Asks the device to leave its binary mode. It does not answer. -/
def exitBinaryMode : Action Unit := do
  let _ ← request .exit []

/-- Selects a record for the requests that follow; `nack` says that there is none. -/
def selectRecord (index : UInt8) : Action MessageType := do
  let reply ← exchange .selectRecord [index] (·.controlTimeout)
  pure reply.type

/-- Reads the description of the selected record, which is number `index`. -/
def readInfo (index : UInt8) : Action Flight := do
  let reply ← exchange .getRecordInfo [] (·.controlTimeout)
  Action.ofResult (reply.flight index)

end FlightRecorder
